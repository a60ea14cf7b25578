import MarkupTemplate.Proofs.Reader

/-!
# A reader as a plain text

Who uses a reader gives it one command after another and gets replies. Both can be told without
sequences: `Command.on` is what a command does to a reader, `Command.onText` what it would do to a
plain text, and `run_eq_onText` says that no run of commands can tell the two apart. The text of a
reader is what its sequences still hold, the newest first, exhausted ones among them or not.

The readers here keep what is unread as one text, beside the sequences. `Walk` is the other view, in
which a reader has nothing but its sequences and goes through them one by one, be it for the next
character, for one some places ahead, or for a text that may start in one sequence and end in
another. Every run leaves a reader for which both views come to the same. So whoever cuts a piece
off the text that is unread, and then skips as many characters, has read the piece.
-/

set_option autoImplicit false

namespace MarkupTemplate

namespace Reader

/-- What the sequences of a reader still hold, the newest first. -/
def flat (r : Reader) : Text := r.stack.flatMap Sequence.rest

/-! ## Commands

One function says what a command does to a reader, another one what it would do to the text
alone. -/

/-- What can be asked of a reader. -/
inductive Command where
  | append (text name : Text)
  | next
  | peek
  | peekAt (offset : Nat)
  | peekN (offset : Nat)
  | startsWith (text : Text)
  | skip (count : Nat)
  | available
  | hasNext
  | hasNextN (count : Nat)
  | clear

/-- What a reader replies. Only looking at a place that has to be there can fail. -/
inductive Reply where
  | done
  | character (c : Option Char)
  | outcome (c : Except Fault Char)
  | number (n : Nat)
  | verdict (b : Bool)

namespace Command

/-- The reply of a reader, and the reader behind it. -/
def on (r : Reader) : Command → Reply × Reader
  | append text name => (.done, r.append text name)
  | next => (.character r.next.1, r.next.2)
  | peek => (.character r.peek, r)
  | peekAt offset => (.character (r.peekAt offset), r)
  | peekN offset => (.outcome (r.peekN offset), r)
  | startsWith text => (.verdict (r.startsWith text), r)
  | skip count => (.done, Reader.skip count r)
  | available => (.number r.available, r)
  | hasNext => (.verdict r.hasNext, r)
  | hasNextN count => (.verdict (r.hasNextN count), r)
  | clear => (.done, .empty)

/-- The fault of looking at a place behind the end of a text. -/
def behindEnd (offset length : Nat) : Fault :=
  .internal ("cannot peek ".toList ++ writeNat (offset + 1) ++
    " characters ahead, only ".toList ++ writeNat length ++ " available".toList)

/-- The reply of a plain text, and the text behind it. -/
def onText (t : Text) : Command → Reply × Text
  | append text _ => (.done, text ++ t)
  | next => (.character t.head?, t.tail)
  | peek => (.character t.head?, t)
  | peekAt offset => (.character t[offset]?, t)
  | peekN offset =>
    (.outcome (if h : offset < t.length then .ok t[offset]
      else .error (behindEnd offset t.length)), t)
  | startsWith text => (.verdict (decide (text <+: t)), t)
  | skip count => (.done, t.drop (min count t.length))
  | available => (.number t.length, t)
  | hasNext => (.verdict (decide (t ≠ [])), t)
  | hasNextN count => (.verdict (decide (count ≤ t.length)), t)
  | clear => (.done, [])

end Command

/-- The replies to a run of commands, and what it leaves. -/
def run {σ : Type} (act : σ → Command → Reply × σ) : σ → List Command → List Reply × σ
  | state, [] => ([], state)
  | state, command :: commands =>
    let (reply, state) := act state command
    let (replies, state) := run act state commands
    (reply :: replies, state)

/-! ## Going through the sequences

The reader of the program has no text of its own. It finds a character by going down its sequences,
and what follows is that view of it. -/

/-- The character so many places ahead, looked for in one sequence after another. -/
def lookThrough : List Sequence → Nat → Option Char
  | [], _ => none
  | s :: below, offset =>
    if offset < s.left then s.text[s.text.length - s.left + offset]?
    else lookThrough below (offset - s.left)

/-- Whether a reader answers what going through its sequences would. The next character is the one
that the first sequence has which is not exhausted; places ahead are counted off against one sequence
after another; a text stands ahead if each of its characters does. -/
structure Walk (r : Reader) : Prop where
  next : r.next.1 = (dropExhausted r.stack).head?.bind fun s => s.text[s.text.length - s.left]?
  peek : r.peek = lookThrough r.stack 0
  peekAt : ∀ offset, r.peekAt offset = lookThrough r.stack offset
  peekN : ∀ offset, r.peekN offset = match lookThrough r.stack offset with
    | some c => .ok c
    | none => .error (Command.behindEnd offset (r.stack.foldr (fun s n => s.left + n) 0))
  startsWith : ∀ text, r.startsWith text = true ↔
    ∀ offset, offset < text.length → lookThrough r.stack offset = text[offset]?
  available : r.available = r.stack.foldr (fun s n => s.left + n) 0
  hasNext : r.hasNext = r.stack.any fun s => s.left != 0
  hasNextN : ∀ count, r.hasNextN count = true ↔
    count ≤ r.stack.foldr (fun s n => s.left + n) 0

theorem getElem?_rest (s : Sequence) (k : Nat) :
    s.rest[k]? = s.text[s.text.length - s.left + k]? := by
  rw [Sequence.rest, List.getElem?_drop]

theorem length_rest {s : Sequence} (h : s.left ≤ s.text.length) : s.rest.length = s.left := by
  rw [Sequence.rest, List.length_drop]
  omega

/-- Going through the sequences finds the character of the text that they hold. -/
theorem lookThrough_eq {stack : List Sequence} (h : ∀ s ∈ stack, s.left ≤ s.text.length)
    (offset : Nat) : lookThrough stack offset = (stack.flatMap Sequence.rest)[offset]? := by
  induction stack generalizing offset with
  | nil => rfl
  | cons s below ih =>
    obtain ⟨hs, hbelow⟩ := List.forall_mem_cons.mp h
    rw [lookThrough, List.flatMap_cons]
    split
    · next hlt =>
      rw [List.getElem?_append_left (by rw [length_rest hs]; exact hlt), getElem?_rest]
    · next hge =>
      rw [List.getElem?_append_right (by rw [length_rest hs]; omega), length_rest hs, ih hbelow]

/-- The stack's first sequence that is not exhausted has the next character. -/
theorem head?_dropExhausted {stack : List Sequence} (h : ∀ s ∈ stack, s.left ≤ s.text.length) :
    (stack.flatMap Sequence.rest).head? =
      (dropExhausted stack).head?.bind fun s => s.text[s.text.length - s.left]? := by
  rw [← flatMap_dropExhausted]
  cases hs : dropExhausted stack with
  | nil => rfl
  | cons s below =>
    have hle : s.left ≤ s.text.length := h s (mem_of_mem_dropExhausted (hs ▸ List.mem_cons_self))
    rw [List.head?_cons, Option.bind_some, List.flatMap_cons, List.head?_append]
    cases hr : s.rest with
    | cons c rest =>
      have hc := getElem?_rest s 0
      rw [hr] at hc
      simpa using hc
    | nil =>
      -- Only the base can be exhausted here, and then nothing is left at all.
      have hleft : s.left = 0 := by rw [← length_rest hle, hr]; rfl
      have hnil : stack.flatMap Sequence.rest = [] := Decidable.byContradiction fun hne =>
        absurd (left_pos_of_dropExhausted hs hne) (by omega)
      rw [← flatMap_dropExhausted, hs, List.flatMap_cons, List.append_eq_nil_iff] at hnil
      simp [hnil.2, hleft]

/-- The sequences have as many characters left, taken together, as the text that they hold. -/
theorem length_flatMap_rest {stack : List Sequence} (h : ∀ s ∈ stack, s.left ≤ s.text.length) :
    (stack.flatMap Sequence.rest).length = stack.foldr (fun s n => s.left + n) 0 := by
  induction stack with
  | nil => rfl
  | cons s below ih =>
    obtain ⟨hs, hbelow⟩ := List.forall_mem_cons.mp h
    rw [List.flatMap_cons, List.length_append, length_rest hs, ih hbelow]
    rfl

/-- **What is unread can be read off the sequences.** -/
theorem Coherent.walk {r : Reader} (h : r.Coherent) : r.Walk := by
  have hpeekAt : ∀ offset, r.peekAt offset = lookThrough r.stack offset := fun offset => by
    rw [Reader.peekAt, h.1, lookThrough_eq h.2]
  have havailable : r.available = r.stack.foldr (fun s n => s.left + n) 0 := by
    rw [Reader.available, h.1, length_flatMap_rest h.2]
  refine ⟨?_, ?_, hpeekAt, fun offset => ?_, fun text => ?_, havailable, ?_, fun count => ?_⟩
  · have hnext : r.next.1 = r.unread.head? := by
      rw [Reader.next]
      split <;> simp_all
    rw [hnext, h.1, head?_dropExhausted h.2]
  · rw [← hpeekAt, Reader.peek, Reader.peekAt, List.head?_eq_getElem?]
  · rw [← hpeekAt, ← havailable, Reader.peekN]
    rfl
  · rw [Reader.startsWith, List.isPrefixOf_iff_prefix, List.prefix_iff_getElem?]
    refine forall_congr' fun offset => forall_congr' fun hlt => ?_
    rw [← hpeekAt, Reader.peekAt, List.getElem?_eq_getElem hlt]
  -- Something is left just if one of the sequences is not exhausted.
  · have hempty : r.stack.any (fun s => s.left != 0) = false ↔ r.unread = [] := by
      rw [h.1, List.flatMap_eq_nil_iff, List.any_eq_false]
      refine forall_congr' fun s => imp_congr_right fun hs => ?_
      rw [bne_iff_ne, Decidable.not_not]
      refine ⟨Sequence.rest_eq_nil, fun hnil => ?_⟩
      rw [← length_rest (h.2 s hs), hnil]
      rfl
    rw [Reader.hasNext]
    cases hany : r.stack.any fun s => s.left != 0 with
    | false => rw [hempty.mp hany]; rfl
    | true =>
      have hne : r.unread ≠ [] := fun hnil => by rw [hempty.mpr hnil] at hany; cases hany
      simp [hne]
  · rw [Reader.hasNextN, havailable, decide_eq_true_iff]

/-! ## Commands on readers and on texts

The step lemma has one case for each command, and the run lemma is an induction on the commands. -/

/-- A command cannot tell a reader from the text it holds. -/
theorem Coherent.on {r : Reader} (h : r.Coherent) (command : Command) :
    (command.on r).2.Coherent ∧
      ((command.on r).1, (command.on r).2.flat) = command.onText r.flat := by
  have hflat : r.flat = r.unread := h.1.symm
  have hkeep : ∀ r' : Reader, r'.Coherent → r'.flat = r'.unread := fun r' h' => h'.1.symm
  cases command with
  | append text name =>
    have hafter := h.append text name
    refine ⟨hafter, ?_⟩
    rw [Command.on, Command.onText, hkeep _ hafter, unread_append, hflat]
  | next =>
    refine ⟨h.next, ?_⟩
    rw [Command.on, Command.onText, hkeep _ h.next, hflat]
    cases hu : r.unread with
    | nil => rw [next_of_unread_nil hu]; rfl
    | cons c t => rw [next_of_unread_cons hu]; rfl
  | peek =>
    refine ⟨h, ?_⟩
    rw [Command.on, Command.onText, hflat, Reader.peek]
  | peekAt offset =>
    refine ⟨h, ?_⟩
    rw [Command.on, Command.onText, hflat, Reader.peekAt]
  | peekN offset =>
    refine ⟨h, ?_⟩
    rw [Command.on, Command.onText, hflat, Reader.peekN, Reader.peekAt]
    by_cases hlt : offset < r.unread.length
    · simp [hlt]
    · simp [hlt, Command.behindEnd, Reader.available]
  | startsWith text =>
    refine ⟨h, ?_⟩
    have hdecide : r.startsWith text = decide (text <+: r.unread) := by
      rw [Reader.startsWith, Bool.eq_iff_iff, List.isPrefixOf_iff_prefix, decide_eq_true_iff]
    rw [Command.on, Command.onText, hflat, hdecide]
  | skip count =>
    refine ⟨h.skip count, ?_⟩
    rw [Command.on, Command.onText, hkeep _ (h.skip count), unread_skip, hflat]
    rcases Nat.le_total count r.unread.length with hle | hle
    · rw [Nat.min_eq_left hle]
    · rw [Nat.min_eq_right hle, List.drop_length, List.drop_eq_nil_of_le hle]
  | available =>
    refine ⟨h, ?_⟩
    rw [Command.on, Command.onText, hflat, Reader.available]
  | hasNext =>
    refine ⟨h, ?_⟩
    rw [Command.on, Command.onText, hflat, Reader.hasNext]
    cases r.unread <;> rfl
  | hasNextN count =>
    refine ⟨h, ?_⟩
    rw [Command.on, Command.onText, hflat, Reader.hasNextN, Reader.available]
  | clear => exact ⟨coherent_empty, rfl⟩

theorem Coherent.run {r : Reader} (h : r.Coherent) (commands : List Command) :
    (Reader.run (fun r c => c.on r) r commands).2.Coherent ∧
      ((Reader.run (fun r c => c.on r) r commands).1,
        (Reader.run (fun r c => c.on r) r commands).2.flat) =
          Reader.run (fun t c => c.onText t) r.flat commands := by
  induction commands generalizing r with
  | nil => exact ⟨h, rfl⟩
  | cons command commands ih =>
    obtain ⟨hafter, hstep⟩ := h.on command
    obtain ⟨hcoherent, hruns⟩ := ih hafter
    refine ⟨hcoherent, ?_⟩
    simp only [Reader.run, ← hstep]
    rw [← hruns]

/-- **A reader is a plain text.** No run of commands on a fresh reader gets another reply than from
the text that the reader holds, which starts out empty. -/
theorem run_eq_onText (commands : List Command) :
    let (replies, r) := run (fun r c => c.on r) .empty commands
    (replies, r.flat) = run (fun t c => c.onText t) [] commands ∧ r.unread = r.flat ∧ r.Walk := by
  obtain ⟨hcoherent, hruns⟩ := coherent_empty.run commands
  exact ⟨hruns, hcoherent.1, hcoherent.walk⟩

/-- A read that starts in one sequence and ends in another, with an exhausted one below. -/
example : run (fun r c => c.on r) .empty [.append ['a'] [], .next, .append ['b', 'c'] [],
      .append ['d'] [], .startsWith ['d', 'b'], .skip 2, .peekAt 0, .next, .next] =
    ([.done, .character (some 'a'), .done, .done, .verdict true, .done, .character (some 'c'),
      .character (some 'c'), .character none], ⟨[⟨[], ['a'], 0, 1⟩], []⟩) := rfl

end Reader

end MarkupTemplate
