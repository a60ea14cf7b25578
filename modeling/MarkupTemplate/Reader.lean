import MarkupTemplate.Error.Fault
import MarkupTemplate.Number.Integer

/-!
# Reader

Every piece of text that enters a parse is a sequence: the template itself, imported templates, the
output of macros, the values of arguments. A reader stacks them. A sequence that is appended while
another is being read suspends that one, which is resumed where it stopped once the newer one is
exhausted.

What a reader delivers is one text, `unread`, however many sequences it is spread over. The stack
only says where the text comes from: each sequence knows how many of its characters are still part
of `unread`, and the line it has reached. The bottom of the stack is the **base** sequence. It
stays, even when exhausted, until the reader is cleared, so that its name and line can always be
reported.
-/

set_option autoImplicit false

namespace MarkupTemplate

/-- A named text that is being read. The text is kept whole, also what has been read of it, since an
error shows the lines around its place. -/
structure Sequence where
  name : Text
  text : Text
  /-- How many characters at the end of the text are still to be read. -/
  left : Nat
  /-- The number of the line that the next character is on, counted from one. -/
  line : Nat
deriving DecidableEq

namespace Sequence

def start (name text : Text) : Sequence := ⟨name, text, text.length, 1⟩

/-- The characters still to be read, which are an end of the text. -/
def rest (s : Sequence) : Text := s.text.drop (s.text.length - s.left)

/-- A stack after one more character. -/
def advance (s : Sequence) (c : Char) : Sequence :=
  { s with left := s.left - 1, line := if c = '\n' then s.line + 1 else s.line }

end Sequence

/-- A stack of sequences, the one being read first and the base last, and the text they still hold.
The text is kept beside the stack because that is what is read; that the two belong together
(`Coherent`) is an invariant of the operations and not a part of the type. -/
structure Reader where
  stack : List Sequence := []
  unread : Text := []
deriving DecidableEq, Inhabited

namespace Reader

/-! ## The state

What can be asked about a reader without moving it. -/

def empty : Reader := {}

def current? (r : Reader) : Option Sequence := r.stack.head?

def base? (r : Reader) : Option Sequence := r.stack.getLast?

/-- Whether the sequence being read is the one at the bottom, so that a position in it is one in the
template itself. -/
def isReadingBase (r : Reader) : Bool := r.stack.length == 1

def isEmpty (r : Reader) : Bool := r.stack.isEmpty

def available (r : Reader) : Nat := r.unread.length

def hasNext (r : Reader) : Bool := !r.unread.isEmpty

def hasNextN (r : Reader) (count : Nat) : Bool := count ≤ r.available

/-! ## Reading

A reader is moved by one character at a time, and everything else is that repeated. So a fact about
`next` is one about all moves. -/

/-- Puts a text in front of what is unread. An empty text changes nothing: it would be a sequence in
which no character can stand. -/
def append (r : Reader) (text name : Text) : Reader :=
  if text = [] then r else ⟨.start name text :: r.stack, text ++ r.unread⟩

def ofText (name text : Text) : Reader := empty.append text name

/-- A stack without the exhausted sequences above its first one that is not, or its last one. They
are dropped when the next character is asked for and not when they become exhausted, so a position
behind the last character of a sequence is still one in it. -/
def dropExhausted : List Sequence → List Sequence
  | s :: t :: below => if s.left = 0 then dropExhausted (t :: below) else s :: t :: below
  | stack => stack

/-- A stack after one more character. -/
def advance (c : Char) (stack : List Sequence) : List Sequence :=
  match dropExhausted stack with
  | s :: below => s.advance c :: below
  | [] => []

def next (r : Reader) : Option Char × Reader :=
  match r.unread with
  | c :: unread => (some c, ⟨advance c r.stack, unread⟩)
  | [] => (none, ⟨dropExhausted r.stack, []⟩)

/-- Reads so many characters, or all there are. -/
def skip : Nat → Reader → Reader
  | 0, r => r
  | n + 1, r =>
    match r.next with
    | (some _, r) => skip n r
    | (none, r) => r

/-- Reads all characters, and asks for one more. So the sequences above the base are gone behind
it. -/
def finish (r : Reader) : Reader := skip (r.available + 1) r

/-! ## Looking ahead

All of these look at the unread text, and none of them at the stack: a sign may begin in one
sequence and end in the next. -/

def peekAt (r : Reader) (offset : Nat) : Option Char := r.unread[offset]?

def peek (r : Reader) : Option Char := r.unread.head?

/-- The unread character `offset` places ahead; there has to be one. Asking for it without having
made sure is a mistake of the program and not of the template, and is told as such. -/
def peekN (r : Reader) (offset : Nat) : Except Fault Char :=
  match r.peekAt offset with
  | some c => .ok c
  | none => .error (.internal ("cannot peek ".toList ++ writeNat (offset + 1) ++
      " characters ahead, only ".toList ++ writeNat r.available ++ " available".toList))

def startsWith (r : Reader) (text : Text) : Bool := text.isPrefixOf r.unread

/-! ## What reading does to the unread text

These are the laws by which the scanner is proved: whatever the stack is, the text goes on as if it
were all there is. -/

@[simp] theorem unread_append (r : Reader) (text name : Text) :
    (r.append text name).unread = text ++ r.unread := by
  unfold append
  split
  · next h => simp [h]
  · rfl

theorem next_of_unread_cons {r : Reader} {c : Char} {t : Text} (h : r.unread = c :: t) :
    r.next = (some c, ⟨advance c r.stack, t⟩) := by
  simp [next, h]

theorem next_of_unread_nil {r : Reader} (h : r.unread = []) :
    r.next = (none, ⟨dropExhausted r.stack, []⟩) := by
  simp [next, h]

@[simp] theorem unread_skip (n : Nat) (r : Reader) : (skip n r).unread = r.unread.drop n := by
  induction n generalizing r with
  | zero => rfl
  | succ n ih =>
    cases h : r.unread with
    | nil => simp [skip, next_of_unread_nil h]
    | cons c t => simp [skip, next_of_unread_cons h, ih]

@[simp] theorem unread_finish (r : Reader) : r.finish.unread = [] := by
  simp [finish, available]

end Reader

end MarkupTemplate
