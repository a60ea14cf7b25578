import MarkupTemplate.Proofs.Comment.Extent
import MarkupTemplate.Proofs.Tag.Encoding
import MarkupTemplate.Proofs.Text.TopLevel

/-!
# Inside of quotes and placeholders

The search for a marker at top level takes a `Scope` along, and this module says what the scope
behind a text tells about the text. No text is left out: quotes may stay open, opening markers may
never be closed, closing markers may have nothing to close, and the markers may be any characters.

A text **ends in quotes** if it has a quote that opens outside of quotes and does not come again. It
**ends in a placeholder** if, among its characters outside of quotes, there is an opening marker
that nothing behind it closes. Neither mentions a scope or a depth. Quotes come first: what stands
in them opens and closes nothing, while quotes inside of a placeholder are quotes all the same.

`Scope.isTop_behind_iff` is the statement that a place is at top level just if the text in front of
it ends in neither of them. It is shown for the quote and for the depth apart (`Scope.behind_eq`).
The depth is a number that stays at zero when there is nothing to close, so that it counts open
placeholders at all is the part that needs an induction (`Markers.foldl_nextDepth_pos_iff`).
-/

set_option autoImplicit false

namespace MarkupTemplate

/-! ## Quotes

The state of the walk over quotes, read off the text. -/

/-- Whether the end of a text is inside of quotes. -/
def EndsInQuotes (t : Text) : Prop :=
  ∃ front q s, t = front ++ q :: s ∧ front.foldl nextQuote none = none ∧ isQuote q = true ∧ q ∉ s

/-- The characters of a text that are neither quotes nor inside of quotes. -/
def outsideQuotes : Option Char → Text → Text
  | _, [] => []
  | quote, c :: t =>
    if quote = none ∧ isQuote c = false then c :: outsideQuotes none t
    else outsideQuotes (nextQuote quote c) t

variable {quote : Option Char} {q c marker : Char} {depth : Nat} {s t : Text} {m : Markers}

/-- A quote is open behind a text if it was open in front and does not come, or if it opens in the
text and does not come again. -/
theorem foldl_nextQuote_eq_some_iff : t.foldl nextQuote quote = some q ↔ (quote = some q ∧ q ∉ t) ∨
    ∃ front s, t = front ++ q :: s ∧ front.foldl nextQuote quote = none ∧ isQuote q = true ∧
      q ∉ s := by
  constructor
  · intro h
    induction t generalizing quote with
    | nil => exact Or.inl ⟨h, List.not_mem_nil⟩
    | cons c t ih =>
      -- The quote was open behind the first character, or it opens later.
      rcases ih h with ⟨hnext, hq⟩ | ⟨front, s, rfl, hfront, hq, hs⟩
      · cases quote with
        | none =>
          cases hc : isQuote c with
          | true =>
            obtain rfl : c = q := by simpa [nextQuote, hc] using hnext
            exact Or.inr ⟨[], t, rfl, rfl, hc, hq⟩
          | false => simp [nextQuote, hc] at hnext
        | some q' =>
          by_cases hc : c = q'
          · simp [nextQuote, hc] at hnext
          · obtain rfl : q' = q := by simpa [nextQuote, hc] using hnext
            exact Or.inl ⟨rfl, List.not_mem_cons_of_ne_of_not_mem (Ne.symm hc) hq⟩
      · exact Or.inr ⟨c :: front, s, rfl, hfront, hq, hs⟩
  · rintro (⟨rfl, hq⟩ | ⟨front, s, rfl, hfront, hq, hs⟩)
    · exact Attributes.foldl_nextQuote_inside hq
    · rw [List.foldl_append, hfront, List.foldl_cons, nextQuote, if_pos hq]
      exact Attributes.foldl_nextQuote_inside hs

/-- The end of a text is inside of quotes just if the walk over quotes has one open there. -/
theorem endsInQuotes_iff : EndsInQuotes t ↔ t.foldl nextQuote none ≠ none := by
  rw [Option.ne_none_iff_exists']
  constructor
  · rintro ⟨front, q, s, h⟩
    exact ⟨q, foldl_nextQuote_eq_some_iff.mpr (Or.inr ⟨front, s, h⟩)⟩
  · rintro ⟨q, hq⟩
    rcases foldl_nextQuote_eq_some_iff.mp hq with ⟨hnone, -⟩ | ⟨front, s, h⟩
    · cases hnone
    · exact ⟨front, q, s, h⟩

/-! ## Placeholders

A placeholder stays open if no beginning of what is behind its marker closes it. -/

namespace Text

variable {opening closing : Char}

/-- Taking what is nested finds no end just if nothing closes. -/
theorem takeNested_eq_none_iff : (takeNested opening closing depth t).2 = none ↔
    ∀ s, s <+: t → ¬ ClosesPairs opening closing depth s := by
  rw [Option.eq_none_iff_forall_ne_some]
  simp only [ne_eq, takeNested_eq_some_iff, not_exists, not_and]
  constructor
  · rintro h s ⟨rest, rfl⟩ hs
    exact h rest s hs rfl
  · rintro h rest s hs rfl
    exact h s (List.prefix_append s rest) hs

theorem takeNested_eq_none_mono {depth' : Nat} (hle : depth ≤ depth')
    (h : (takeNested opening closing depth t).2 = none) :
    (takeNested opening closing depth' t).2 = none := by
  -- A place that is deeper needs more closing markers, so it is left open all the more.
  fun_induction takeNested opening closing depth t generalizing depth' with
  | case1 => rfl
  | case2 depth t ih =>
    rw [takeNested.eq_def]
    simp only [if_pos]
    exact ih (Nat.succ_le_succ hle) h
  | case3 => cases h
  | case4 t depth hc ih =>
    obtain ⟨depth', rfl⟩ := Nat.exists_eq_add_one_of_ne_zero (Nat.ne_zero_of_lt hle)
    rw [takeNested, if_neg hc, if_pos rfl]
    exact ih (Nat.le_of_succ_le_succ hle) h
  | case5 depth c t hc hc' ih =>
    rw [takeNested.eq_def]
    simp only [if_neg hc, if_neg hc']
    exact ih hle h

end Text

namespace Markers

/-- Whether a text, given without its quotes, opens a placeholder that it does not close. -/
def LeavesOpen (m : Markers) (t : Text) : Prop :=
  ∃ front behind, t = front ++ m.argumentOpening :: behind ∧
    ∀ s, s <+: behind → ¬ Text.ClosesPairs m.argumentOpening m.argumentClosing 0 s

/-- Whether the end of a text is inside of a placeholder. -/
def EndsInPlaceholder (m : Markers) (t : Text) : Prop := m.LeavesOpen (outsideQuotes none t)

/-- How many placeholders are open behind a character outside of quotes. -/
def nextDepth (m : Markers) (depth : Nat) (c : Char) : Nat :=
  if c = m.argumentOpening then depth + 1
  else if c = m.argumentClosing then depth - 1
  else depth

theorem not_leavesOpen_nil : ¬ m.LeavesOpen [] := by
  rintro ⟨front, behind, hnil, -⟩
  exact absurd hnil (by simp)

/-- The marker that stays open is the first character, or one of the rest. -/
theorem leavesOpen_cons : m.LeavesOpen (c :: t) ↔
    (c = m.argumentOpening ∧
      (Text.takeNested m.argumentOpening m.argumentClosing 0 t).2 = none) ∨ m.LeavesOpen t := by
  constructor
  · rintro ⟨front, behind, ht, hopen⟩
    cases front with
    | nil =>
      obtain ⟨rfl, rfl⟩ := List.cons.inj ht
      exact Or.inl ⟨rfl, Text.takeNested_eq_none_iff.mpr hopen⟩
    | cons d front => exact Or.inr ⟨front, behind, (List.cons.inj ht).2, hopen⟩
  · rintro (⟨rfl, hopen⟩ | ⟨front, behind, rfl, hopen⟩)
    · exact ⟨[], t, rfl, Text.takeNested_eq_none_iff.mp hopen⟩
    · exact ⟨c :: front, behind, rfl, hopen⟩

/-- Placeholders are open behind a text if the outermost of those in front of it stays open, or if
the text leaves one of its own open. -/
theorem foldl_nextDepth_pos_iff : 0 < t.foldl m.nextDepth depth ↔
    (∃ n, depth = n + 1 ∧ (Text.takeNested m.argumentOpening m.argumentClosing n t).2 = none) ∨
      m.LeavesOpen t := by
  induction t generalizing depth with
  | nil => cases depth <;> simp [not_leavesOpen_nil, Text.takeNested]
  | cons c t ih =>
    rw [List.foldl_cons, ih, leavesOpen_cons, ← or_assoc]
    refine or_congr_left ?_
    -- An opening marker, a closing one, or neither; the depth in front decides the rest.
    by_cases hopening : c = m.argumentOpening
    · rw [nextDepth, if_pos hopening]
      cases depth with
      | zero => simp [hopening]
      | succ n =>
        simp only [Text.takeNested, Nat.add_right_cancel_iff, exists_eq_left', hopening, if_pos,
          true_and, Prod.map_snd, id_eq]
        -- If the new placeholder stays open, so do those around it.
        exact (or_iff_left_of_imp (Text.takeNested_eq_none_mono (Nat.zero_le (n + 1)))).symm
    · by_cases hclosing : c = m.argumentClosing
      · rw [nextDepth, if_neg hopening, if_pos hclosing]
        rcases depth with _ | _ | n
        · simp [hopening]
        · simp [hopening, Text.takeNested, if_pos hclosing]
        · simp [hopening, Text.takeNested, if_pos hclosing]
      · rw [nextDepth, if_neg hopening, if_neg hclosing]
        cases depth <;> simp [hopening, hclosing, Text.takeNested]

end Markers

/-! ## Scopes

A scope is a quote and a depth, and each is a walk of its own. -/

namespace Scope

/-- The scope behind a text. -/
def behind (m : Markers) (s : Scope) (t : Text) : Scope := t.foldl (next m) s

/-- Quotes hide everything but their end, and outside of them only markers count. -/
theorem next_eq (quote : Option Char) (depth : Nat) (c : Char) : next m ⟨quote, depth⟩ c =
    ⟨nextQuote quote c,
      if quote = none ∧ isQuote c = false then m.nextDepth depth c else depth⟩ := by
  cases quote with
  | some q => by_cases hc : c = q <;> simp [next, nextQuote, hc]
  | none =>
    cases hc : isQuote c with
    | true => simp [next, nextQuote, hc]
    | false =>
      simp only [next, nextQuote, Markers.nextDepth, hc]
      grind

/-- Only the characters outside of quotes open and close placeholders. -/
theorem behind_eq (quote : Option Char) (depth : Nat) (t : Text) : behind m ⟨quote, depth⟩ t =
    ⟨t.foldl nextQuote quote, (outsideQuotes quote t).foldl m.nextDepth depth⟩ := by
  induction t generalizing quote depth with
  | nil => rfl
  | cons c t ih =>
    rw [behind, List.foldl_cons, ← behind, next_eq, ih, List.foldl_cons, outsideQuotes]
    by_cases hc : quote = none ∧ isQuote c = false
    · have hnext : nextQuote quote c = none := by simp [nextQuote, hc]
      rw [if_pos hc, if_pos hc, hnext, List.foldl_cons]
    · rw [if_neg hc, if_neg hc]

/-- **A place is at top level just if the text in front of it ends neither in quotes nor in a
placeholder.** -/
theorem isTop_behind_iff : (behind m {} t).isTop m marker = true ↔
    m.isLevel marker = true ∧ ¬ EndsInQuotes t ∧ ¬ m.EndsInPlaceholder t := by
  have hdepth : m.EndsInPlaceholder t ↔ 0 < (outsideQuotes none t).foldl m.nextDepth 0 := by
    rw [Markers.EndsInPlaceholder, Markers.foldl_nextDepth_pos_iff]
    simp
  rw [Markers.isTop_iff, behind_eq, Scope.mk.injEq, endsInQuotes_iff, not_not, hdepth, Nat.not_lt,
    Nat.le_zero]

end Scope

end MarkupTemplate
