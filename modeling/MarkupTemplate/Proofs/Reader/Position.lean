import MarkupTemplate.Proofs.Reader.Queue

/-!
# Where a reader stands

Errors are placed by what the sequences of a reader say about themselves, so that has to stay right
whatever is put in front of a sequence and read meanwhile. Three things are kept by every run of
commands.
* A sequence knows its line: it is the number of line feeds in what was read of it, and one
  (`Reader.Counted`).
* A suspended sequence stays as it is. The sequences below others are the same ones as long as those
  above them hold anything (`Reader.Suspends`).
* The base is the first text that was put in since the reader was clear (`Command.firstQueued`).

Each of the three is shown for reading one character first. Skipping follows by `skip_induction`, as
it is reading again and again, and a run of commands by induction on the commands. Where a suspended
sequence is left alone, the run may have come down to it meanwhile, and then it may be read on: so
the statement is that either it is still suspended, or some beginning of the run has used up all
that was above it.
-/

set_option autoImplicit false

namespace MarkupTemplate

namespace Sequence

/-- The characters that were read. -/
def consumed (s : Sequence) : Text := s.text.take (s.text.length - s.left)

/-- Whether a sequence knows the line of its next character. -/
def Counted (s : Sequence) : Prop := s.line = 1 + s.consumed.count '\n'

/-- What a sequence was put in as. -/
def source (s : Sequence) : Text × Text := (s.name, s.text)

theorem counted_start (name text : Text) : (start name text).Counted := by
  simp [Counted, start, consumed]

theorem Counted.advance {s : Sequence} (h : s.Counted) (hle : s.left ≤ s.text.length) {c : Char}
    {t : Text} (hrest : s.rest = c :: t) : (s.advance c).Counted := by
  have hpos : 0 < s.left := by
    refine Nat.pos_of_ne_zero fun hzero => ?_
    rw [rest_eq_nil hzero] at hrest
    cases hrest
  have hc : s.text[s.text.length - s.left]? = some c := by
    have hfirst := Reader.getElem?_rest s 0
    rw [hrest] at hfirst
    exact hfirst.symm
  have hconsumed : (s.advance c).consumed = s.consumed ++ [c] := by
    have hlength : s.text.length - (s.left - 1) = s.text.length - s.left + 1 := by omega
    simp only [consumed, Sequence.advance, hlength, List.take_add_one, hc, Option.toList_some]
  unfold Counted at h ⊢
  rw [hconsumed, List.count_append]
  by_cases hfeed : c = '\n'
  · simp [Sequence.advance, hfeed, h, Nat.add_assoc]
  · simp [Sequence.advance, hfeed, h]

end Sequence

namespace Reader

variable {r : Reader} {stack above below : List Sequence}

/-! ## Exhausted sequences

Reading takes the exhausted sequences off the top. It never goes below a sequence that holds
something, and never takes the base off. -/

theorem dropExhausted_isSuffix (stack : List Sequence) : dropExhausted stack <:+ stack := by
  fun_induction dropExhausted stack with
  | case1 s t below h ih => exact ih.trans (List.suffix_cons s _)
  | case2 => exact List.suffix_rfl
  | case3 => exact List.suffix_rfl

/-- Sequences below one that holds something are not looked at. -/
theorem dropExhausted_append (h : above.flatMap Sequence.rest ≠ []) :
    dropExhausted (above ++ below) = dropExhausted above ++ below := by
  induction above with
  | nil => exact absurd rfl h
  | cons s above ih =>
    -- An exhausted sequence is taken off, with something above the others left behind it.
    by_cases hs : s.left = 0
    · rw [List.flatMap_cons, Sequence.rest_eq_nil hs, List.nil_append] at h
      cases above with
      | nil => exact absurd rfl h
      | cons t above =>
        rw [List.cons_append, List.cons_append, dropExhausted, if_pos hs, dropExhausted, if_pos hs]
        exact ih h
    · have hkeep : ∀ stack, dropExhausted (s :: stack) = s :: stack := by
        intro stack
        cases stack with
        | nil => rfl
        | cons t stack => rw [dropExhausted, if_neg hs]
      rw [List.cons_append, hkeep, hkeep, List.cons_append]

theorem dropExhausted_ne_nil (h : stack.flatMap Sequence.rest ≠ []) : dropExhausted stack ≠ [] := by
  intro hnil
  rw [← flatMap_dropExhausted, hnil] at h
  exact h rfl

theorem getLast?_dropExhausted (stack : List Sequence) :
    (dropExhausted stack).getLast? = stack.getLast? := by
  fun_induction dropExhausted stack with
  | case1 s t below h ih => rw [ih, List.getLast?_cons_cons]
  | case2 => rfl
  | case3 => rfl

/-! ## Lines

A character that is read counts for the sequence that it came from, and for no other. -/

/-- Whether all sequences of a reader stand inside their texts and know their lines. -/
structure Counted (r : Reader) : Prop where
  coherent : r.Coherent
  lines : ∀ s ∈ r.stack, s.Counted

theorem counted_empty : empty.Counted := ⟨coherent_empty, fun s hs => absurd hs (by simp [empty])⟩

theorem Counted.append (h : r.Counted) (text name : Text) : (r.append text name).Counted := by
  refine ⟨h.coherent.append text name, ?_⟩
  unfold Reader.append
  split
  · exact h.lines
  · exact List.forall_mem_cons.mpr ⟨Sequence.counted_start name text, h.lines⟩

/-- **Reading a character keeps the lines right.** Only the first sequence that is not exhausted
changes, and it is the one that the character comes from. -/
theorem Counted.next (h : r.Counted) : r.next.2.Counted := by
  refine ⟨h.coherent.next, ?_⟩
  have hdrop : ∀ s ∈ dropExhausted r.stack, s.Counted := fun s hs =>
    h.lines s ((dropExhausted_isSuffix r.stack).subset hs)
  cases hu : r.unread with
  | nil =>
    rw [next_of_unread_nil hu]
    exact hdrop
  | cons c t =>
    rw [next_of_unread_cons hu]
    have hflat : (dropExhausted r.stack).flatMap Sequence.rest = c :: t := by
      rw [flatMap_dropExhausted, ← h.coherent.1, hu]
    unfold Reader.advance
    cases hs : dropExhausted r.stack with
    | nil => exact fun _ hmem => absurd hmem List.not_mem_nil
    | cons s below =>
      rw [hs] at hdrop hflat
      obtain ⟨hcounted, hbelow⟩ := List.forall_mem_cons.mp hdrop
      have hle : s.left ≤ s.text.length := by
        refine h.coherent.2 s ((dropExhausted_isSuffix r.stack).subset ?_)
        rw [hs]
        exact List.mem_cons_self
      -- The character comes from the sequence that is on top, which is not exhausted.
      have hpos : 0 < s.left := by
        refine left_pos_of_dropExhausted hs ?_
        rw [← h.coherent.1, hu]
        exact List.cons_ne_nil c t
      refine List.forall_mem_cons.mpr ⟨?_, hbelow⟩
      rw [List.flatMap_cons] at hflat
      cases hrest : s.rest with
      | nil => exact absurd hrest (Sequence.rest_ne_nil hpos hle)
      | cons d rest =>
        rw [hrest] at hflat
        obtain ⟨rfl, _⟩ := List.cons.inj hflat
        exact hcounted.advance hle hrest

theorem skip_induction {P : Reader → Prop} (hnext : ∀ r, P r → P r.next.2) (n : Nat) (h : P r) :
    P (skip n r) := by
  induction n generalizing r with
  | zero => exact h
  | succ n ih =>
    have hr := hnext r h
    rw [skip]
    split
    · next heq => exact ih (by rw [heq] at hr; exact hr)
    · next heq => rw [heq] at hr; exact hr

theorem Counted.skip (h : r.Counted) (n : Nat) : (Reader.skip n r).Counted :=
  skip_induction (fun _ hr => hr.next) n h

/-! ## Suspended sequences

A suspension ends when all that is above the sequences is exhausted, which is when no more is unread
than they hold. -/

/-- Whether a reader has some sequences below others. -/
def Suspends (r : Reader) (below : List Sequence) : Prop :=
  ∃ above, above ≠ [] ∧ r.stack = above ++ below

/-- Whether a reader holds no more than some sequences do. What is above them is exhausted. -/
def IsDownTo (r : Reader) (below : List Sequence) : Prop :=
  r.available ≤ (below.flatMap Sequence.rest).length

theorem IsDownTo.skip (h : r.IsDownTo below) (n : Nat) : (Reader.skip n r).IsDownTo below := by
  unfold IsDownTo available at h ⊢
  rw [unread_skip, List.length_drop]
  omega

/-- Reading a character that is above some sequences leaves them alone. -/
theorem Suspends.next (hr : r.Coherent) (h : r.Suspends below) :
    r.next.2.Suspends below ∨ r.next.2.IsDownTo below := by
  obtain ⟨above, -, hstack⟩ := h
  have hflat : r.unread = above.flatMap Sequence.rest ++ below.flatMap Sequence.rest := by
    rw [hr.1, hstack, List.flatMap_append]
  cases hu : r.unread with
  | nil =>
    right
    rw [next_of_unread_nil hu]
    exact Nat.zero_le _
  | cons c t =>
    rw [next_of_unread_cons hu]
    -- If nothing is left above, the character is the first one of what was suspended.
    by_cases habove : above.flatMap Sequence.rest = []
    · right
      rw [habove, List.nil_append, hu] at hflat
      unfold IsDownTo available
      rw [← hflat]
      exact Nat.le_succ _
    · left
      cases hs : dropExhausted above with
      | nil => exact absurd hs (dropExhausted_ne_nil habove)
      | cons s above' =>
        refine ⟨s.advance c :: above', List.cons_ne_nil _ _, ?_⟩
        simp only [Reader.advance, hstack, dropExhausted_append habove, hs, List.cons_append]

/-- Skipping leaves suspended sequences alone too, or comes down to them. -/
theorem Suspends.skip (hr : r.Coherent) (h : r.Suspends below) (n : Nat) :
    (Reader.skip n r).Suspends below ∨ (Reader.skip n r).IsDownTo below := by
  induction n generalizing r with
  | zero => exact .inl h
  | succ n ih =>
    have hnext := h.next hr
    have hcoherent := hr.next
    rw [Reader.skip]
    split
    · next c r' heq =>
      rw [heq] at hnext hcoherent
      -- Once the reader is down to what was suspended it stays there, however much is skipped.
      rcases hnext with hnext | hdown
      · exact ih hcoherent hnext
      · exact .inr (hdown.skip n)
    · next r' heq =>
      rw [heq] at hnext
      exact hnext

theorem Suspends.append (h : r.Suspends below) (text name : Text) :
    (r.append text name).Suspends below := by
  unfold Reader.append
  split
  · exact h
  · obtain ⟨above, -, hstack⟩ := h
    exact ⟨_ :: above, List.cons_ne_nil _ _, by rw [hstack, List.cons_append]⟩

/-! ## The base

The lowest sequence keeps its name and its text, as reading changes neither, and a text that is put
in becomes the base only where there is none. -/

theorem source_base?_next (r : Reader) :
    r.next.2.base?.map Sequence.source = r.base?.map Sequence.source := by
  cases hu : r.unread with
  | nil =>
    rw [next_of_unread_nil hu, base?, base?, getLast?_dropExhausted]
  | cons c t =>
    rw [next_of_unread_cons hu, base?, base?, ← getLast?_dropExhausted r.stack, Reader.advance]
    cases dropExhausted r.stack with
    | nil => rfl
    | cons s below =>
      cases below with
      | nil => rfl
      | cons s' below => rw [List.getLast?_cons_cons, List.getLast?_cons_cons]

theorem source_base?_skip (n : Nat) (r : Reader) :
    (skip n r).base?.map Sequence.source = r.base?.map Sequence.source :=
  skip_induction (P := fun r' => r'.base?.map Sequence.source = r.base?.map Sequence.source)
    (fun r' h => (source_base?_next r').trans h) n rfl

theorem source_base?_append (r : Reader) (text name : Text) :
    (r.append text name).base?.map Sequence.source =
      (r.base?.map Sequence.source).or (if text = [] then none else some (name, text)) := by
  unfold Reader.append base?
  by_cases htext : text = []
  · rw [if_pos htext, if_pos htext, Option.or_none]
  · rw [if_neg htext, if_neg htext]
    dsimp only
    cases r.stack with
    | nil => rfl
    | cons s below =>
      rw [List.getLast?_cons_cons, List.getLast?_cons]
      rfl

/-- The first text put in since the reader was clear, with its name, given the one before a
command. -/
def Command.firstQueued (first : Option (Text × Text)) : Command → Option (Text × Text)
  | append text name => first.or (if text = [] then none else some (name, text))
  | clear => none
  | _ => first

/-! ## Runs

The three invariants along a run of commands. Clearing the reader ends a suspension, so a run that
clears is left out there; it is not left out for the lines and for the base. -/

/-- What a run of commands leaves. -/
def runOn (r : Reader) (commands : List Command) : Reader :=
  (run (fun r c => Command.on r c) r commands).2

theorem runOn_cons (command : Command) (commands : List Command) :
    r.runOn (command :: commands) = (command.on r).2.runOn commands := rfl

theorem Counted.on (h : r.Counted) (command : Command) : (command.on r).2.Counted := by
  cases command with
  | append text name => exact h.append text name
  | next => exact h.next
  | skip count => exact h.skip count
  | clear => exact counted_empty
  | _ => exact h

theorem Counted.runOn (h : r.Counted) (commands : List Command) : (r.runOn commands).Counted := by
  induction commands generalizing r with
  | nil => exact h
  | cons command commands ih => exact ih (h.on command)

theorem Suspends.on (hr : r.Coherent) (h : r.Suspends below) {command : Command}
    (hclear : command ≠ .clear) :
    (command.on r).2.Suspends below ∨ (command.on r).2.IsDownTo below := by
  cases command with
  | append text name => exact .inl (h.append text name)
  | next => exact h.next hr
  | skip count => exact h.skip hr count
  | clear => exact absurd rfl hclear
  | _ => exact .inl h

/-- **A suspended sequence is not touched** before all that is above it is exhausted. -/
theorem Suspends.runOn (hr : r.Coherent) (h : r.Suspends below) {commands : List Command}
    (hclear : .clear ∉ commands) :
    (r.runOn commands).Suspends below ∨
      ∃ earlier, earlier <+: commands ∧ (r.runOn earlier).IsDownTo below := by
  induction commands generalizing r with
  | nil => exact .inl h
  | cons command commands ih =>
    rw [List.mem_cons, not_or] at hclear
    -- Each command leaves the suspension, or the run is down to it here.
    rcases h.on hr (Ne.symm hclear.1) with hstep | hdown
    · rcases ih (hr.on command).1 hstep hclear.2 with hrun | ⟨earlier, hprefix, hdown⟩
      · exact .inl hrun
      · exact .inr ⟨command :: earlier, (List.prefix_cons_inj command).mpr hprefix, hdown⟩
    · exact .inr ⟨[command], by simp, hdown⟩

theorem source_base?_on (r : Reader) (command : Command) :
    (command.on r).2.base?.map Sequence.source =
      command.firstQueued (r.base?.map Sequence.source) := by
  cases command with
  | append text name => exact source_base?_append r text name
  | next => exact source_base?_next r
  | skip count => exact source_base?_skip count r
  | _ => rfl

/-- **The base is the first text put in**, and stays until the reader is cleared. -/
theorem source_base?_runOn (commands : List Command) : (r.runOn commands).base?.map Sequence.source =
    commands.foldl Command.firstQueued (r.base?.map Sequence.source) := by
  induction commands generalizing r with
  | nil => rfl
  | cons command commands ih => rw [runOn_cons, ih, source_base?_on, List.foldl_cons]

/-- **What every run of commands keeps right** about the sequences of a reader: all know their
lines, the suspended ones are left alone until the run comes down to them, and the base is the first
text that was put in since the reader was clear. -/
theorem positions_runOn (commands : List Command) :
    (∀ s ∈ (empty.runOn commands).stack, s.left ≤ s.text.length ∧ s.Counted) ∧
    (∀ below more, (empty.runOn commands).Suspends below → .clear ∉ more →
      ((empty.runOn commands).runOn more).Suspends below ∨
        ∃ earlier, earlier <+: more ∧ ((empty.runOn commands).runOn earlier).IsDownTo below) ∧
    (empty.runOn commands).base?.map Sequence.source =
      commands.foldl Command.firstQueued none := by
  have hcounted : (empty.runOn commands).Counted := counted_empty.runOn commands
  refine ⟨fun s hs => ⟨hcounted.coherent.2 s hs, hcounted.lines s hs⟩,
    fun below more h hclear => h.runOn hcounted.coherent hclear, source_base?_runOn commands⟩

end Reader

end MarkupTemplate
