import MarkupTemplate.Reader

/-!
# The sequences of a reader

A reader keeps its unread text as a whole, and for each of its sequences how much of it is left. The
two say the same: what is unread is what the sequences have left, the newest first. This is
`Coherent`, and every operation of a reader keeps it, so a fact about the unread text is one about
the sequences, however a text is spread over them.

Reading a character is the only operation with something to show. It takes the first character of
the unread text, and one off the first sequence that is not exhausted; that these are the same
character is `Coherent.next`. Skipping is reading again and again, and putting a text in puts one
more sequence on top.
-/

set_option autoImplicit false

namespace MarkupTemplate

namespace Sequence

theorem rest_start (name text : Text) : (start name text).rest = text := by
  simp [start, rest]

theorem rest_eq_nil {s : Sequence} (h : s.left = 0) : s.rest = [] := by
  simp [rest, h]

theorem rest_advance {s : Sequence} (hpos : 0 < s.left) (hle : s.left ≤ s.text.length) (c : Char) :
    (s.advance c).rest = s.rest.tail := by
  have hlen : s.text.length - (s.left - 1) = s.text.length - s.left + 1 := by omega
  simp only [advance, rest, hlen, List.tail_drop]

theorem rest_ne_nil {s : Sequence} (hpos : 0 < s.left) (hle : s.left ≤ s.text.length) :
    s.rest ≠ [] := by
  intro h
  have := List.drop_eq_nil_iff.mp h
  omega

end Sequence

namespace Reader

/-- Whether what is unread is what the sequences have left. -/
def Coherent (r : Reader) : Prop :=
  r.unread = r.stack.flatMap Sequence.rest ∧ ∀ s ∈ r.stack, s.left ≤ s.text.length

theorem coherent_empty : empty.Coherent := ⟨rfl, fun s hs => absurd hs (by simp [empty])⟩

theorem Coherent.append {r : Reader} (h : r.Coherent) (text name : Text) :
    (r.append text name).Coherent := by
  unfold Reader.append
  split
  · exact h
  · refine ⟨?_, List.forall_mem_cons.mpr ⟨Nat.le_refl _, h.2⟩⟩
    rw [List.flatMap_cons, Sequence.rest_start, ← h.1]

/-! ## Reading on

Exhausted sequences hold nothing, so taking them off changes nothing that can be read. -/

/-- Nothing is lost with the sequences that are exhausted. -/
theorem flatMap_dropExhausted (stack : List Sequence) :
    (dropExhausted stack).flatMap Sequence.rest = stack.flatMap Sequence.rest := by
  fun_induction dropExhausted stack with
  | case1 s t below h ih =>
    rw [ih]
    exact (congrArg (· ++ (t :: below).flatMap Sequence.rest) (Sequence.rest_eq_nil h)).symm
  | case2 => rfl
  | case3 => rfl

theorem mem_of_mem_dropExhausted {stack : List Sequence} {s : Sequence}
    (h : s ∈ dropExhausted stack) : s ∈ stack := by
  fun_induction dropExhausted stack with
  | case1 s' t below hs ih => exact List.mem_cons_of_mem _ (ih h)
  | case2 => exact h
  | case3 => exact h

/-- The first sequence has something left, unless nothing is left at all. -/
theorem left_pos_of_dropExhausted {stack below : List Sequence} {s : Sequence}
    (h : dropExhausted stack = s :: below) (hne : stack.flatMap Sequence.rest ≠ []) :
    0 < s.left := by
  fun_induction dropExhausted stack with
  | case1 s' t below' hs ih =>
    rw [List.flatMap_cons, Sequence.rest_eq_nil hs, List.nil_append] at hne
    exact ih h hne
  | case2 s' t below' hs =>
    obtain ⟨rfl, _⟩ := List.cons.inj h
    exact Nat.pos_of_ne_zero hs
  | case3 stack hstack =>
    subst h
    -- The lowest sequence is kept even where it is exhausted, but then nothing is unread.
    cases below with
    | nil =>
      refine Nat.pos_of_ne_zero fun hs => hne ?_
      rw [List.flatMap_cons, Sequence.rest_eq_nil hs]
      rfl
    | cons t below => exact (hstack s t below rfl).elim

/-- **Reading a character keeps a reader coherent**: it goes off the first sequence that has one. -/
theorem Coherent.next {r : Reader} (h : r.Coherent) : r.next.2.Coherent := by
  have hdrop : ∀ s ∈ dropExhausted r.stack, s.left ≤ s.text.length :=
    fun s hs => h.2 s (mem_of_mem_dropExhausted hs)
  cases hu : r.unread with
  | nil =>
    rw [next_of_unread_nil hu]
    exact ⟨by rw [flatMap_dropExhausted, ← h.1, hu], hdrop⟩
  | cons c t =>
    rw [next_of_unread_cons hu]
    have hflat : (dropExhausted r.stack).flatMap Sequence.rest = c :: t := by
      rw [flatMap_dropExhausted, ← h.1, hu]
    cases hs : dropExhausted r.stack with
    | nil =>
      rw [hs] at hflat
      exact absurd hflat (by simp)
    | cons s below =>
      rw [hs] at hflat hdrop
      obtain ⟨hle, hbelow⟩ := List.forall_mem_cons.mp hdrop
      -- Something is unread, so the sequence on top is not exhausted.
      have hpos : 0 < s.left := by
        refine left_pos_of_dropExhausted hs ?_
        rw [← h.1, hu]
        simp
      simp only [Coherent, advance, hs]
      refine ⟨?_, List.forall_mem_cons.mpr ⟨Nat.le_trans (Nat.sub_le ..) hle, hbelow⟩⟩
      rw [List.flatMap_cons, Sequence.rest_advance hpos hle]
      rw [List.flatMap_cons] at hflat
      cases hr : s.rest with
      | nil => exact absurd hr (Sequence.rest_ne_nil hpos hle)
      | cons d rest =>
        rw [hr] at hflat
        exact (List.cons.inj hflat).2.symm

theorem Coherent.skip {r : Reader} (h : r.Coherent) (n : Nat) : (Reader.skip n r).Coherent := by
  induction n generalizing r with
  | zero => exact h
  | succ n ih =>
    have hnext := h.next
    rw [Reader.skip]
    split
    · next heq => exact ih (by rw [heq] at hnext; exact hnext)
    · next heq => rw [heq] at hnext; exact hnext

theorem unread_skip_of_append {r : Reader} {taken rest : Text} (h : r.unread = taken ++ rest) :
    (Reader.skip (r.available - rest.length) r).unread = rest := by
  have hlen : r.available - rest.length = taken.length := by
    rw [available, h, List.length_append, Nat.add_sub_cancel]
  rw [unread_skip, hlen, h, List.drop_left]

end Reader

end MarkupTemplate
