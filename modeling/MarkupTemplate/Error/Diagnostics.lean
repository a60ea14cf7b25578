import MarkupTemplate.Reader

/-!
# Errors and where they arose

An error is a fault with, once it has left the parse it arose in, the position of the reader at
that moment: the line of the base sequence, the line of the sequence being read if that is
another one, and the lines around it. Only the first position is kept.
-/

set_option autoImplicit false

namespace MarkupTemplate

/-! ## Lines

Lines are needed twice: to count where an error is, which the reader does by itself, and to show the
text around it, which is done here. -/

/-- The text without the carriage return at its end, which belongs to the end of the line and not to
the line. -/
def dropReturn (t : Text) : Text := (Text.dropLast? '\r' t).getD t

/-- The lines of a text. A line ends with a line feed or a carriage return and a line feed, and the
last line may lack its end. What is behind the last line feed is no line if it is empty, though the
reader that stands there counts it as one. -/
def lines (t : Text) : List Text :=
  let parts := Text.splitAll '\n' t
  let last := match parts.getLast? with
    | none | some [] => []
    | some part => [part]
  parts.dropLast.map dropReturn ++ last

def excerptRadius : Nat := 2

/-- A line with its number, four places wide, and a mark if it is the current one. A number of more
than four places is written in full and moves the text to the right. -/
def excerptLine (current number : Nat) (content : Text) : Text :=
  let digits := writeNat number
  (if number = current then '>' else ' ') :: List.replicate (4 - digits.length) ' ' ++ digits ++
    '|' :: ' ' :: content

/-- The lines around the current one, with their numbers: so many in front of it and as many behind,
as far as there are lines. -/
def excerptLines (t : Text) (current : Nat) : List Text :=
  let numbered := (lines t).zipIdx 1
  let near := numbered.filter fun p =>
    current ≤ p.2 + excerptRadius && p.2 ≤ current + excerptRadius
  near.map fun p => excerptLine current p.2 p.1

/-! ## Positions

A position names two sequences at most. The base is what the host has handed over, and the current
one is what the reader was in, which may be the output of a macro. -/

/-- The position of a reader, with everything that a message tells about it. Where nothing has been
read there is no base, and the position says so. -/
structure Diagnostics where
  baseLine : Option Nat
  baseName : Option Text
  currentLine : Option Nat
  currentName : Option Text
  readingBase : Bool
  excerpt : Text
deriving DecidableEq

namespace Diagnostics

/-- The position at which a reader stands. -/
def capture (r : Reader) : Diagnostics where
  baseLine := r.base?.map Sequence.line
  baseName := r.base?.map Sequence.name
  currentLine := r.current?.map Sequence.line
  currentName := r.current?.map Sequence.name
  readingBase := r.isReadingBase
  excerpt := match r.current? with
    | some s => Text.joinWith ['\n'] (excerptLines s.text s.line)
    | none => []

def lineOf (line : Nat) (name : Text) : Text :=
  "line ".toList ++ writeNat line ++ " of ".toList ++ Fault.quoted name

def message (d : Diagnostics) : Text :=
  let place := match d.baseName, d.baseLine with
    | some name, some line => "at ".toList ++ lineOf line name
    | _, _ => "outside of any template".toList
  let inner := match d.readingBase, d.currentName, d.currentLine with
    | false, some name, some line => ", ".toList ++ lineOf line name
    | _, _, _ => []
  place ++ inner ++ if d.excerpt = [] then [] else ':' :: '\n' :: d.excerpt

end Diagnostics

/-! ## Errors

An error is raised without a place, since what raises it does not know the reader. It gets one where
it leaves the parse, and keeps the first one it got. -/

/-- A fault, and where it arose if that is known. -/
structure Error where
  fault : Fault
  place : Option Diagnostics := none
deriving DecidableEq

namespace Error

/-- The error with the position of a reader, unless it has one already. So an error out of a
fragment names the place in the fragment, and not the one in the template around it. -/
def locate (e : Error) (r : Reader) : Error :=
  match e.place with
  | some _ => e
  | none => { e with place := some (Diagnostics.capture r) }

def message (e : Error) : Text :=
  match e.place with
  | none => e.fault.message
  | some d => e.fault.message ++ '\n' :: d.message

@[simp] theorem fault_locate (e : Error) (r : Reader) : (e.locate r).fault = e.fault := by
  unfold locate; split <;> rfl

theorem locate_locate (e : Error) (r s : Reader) : (e.locate r).locate s = e.locate r := by
  cases e with
  | mk fault place => cases place <;> rfl

end Error

end MarkupTemplate
