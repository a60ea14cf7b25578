import MarkupTemplate.Markers.TopLevel

/-!
# Texts that are crossed

The search for a marker at top level **crosses** a text if it passes over it and has nothing open
behind it. It crosses plain texts, placeholders, whatever markers are in them, and texts put one
after another out of these. So the first marker behind such a text is where the search ends.

Like nesting, crossing is said by what the search does in front of any other text. Inside of a
placeholder the marker is not looked for, so a text there need only open and close nothing
(`Passes`), and a placeholder around it is crossed by the search for any marker.
-/

set_option autoImplicit false

namespace MarkupTemplate

namespace Markers

variable {m : Markers} {marker : Char} {s t : Text}

/-- Whether the search for a marker at top level passes over a text. -/
def Crosses (m : Markers) (marker : Char) (s : Text) : Prop :=
  ∀ t, m.splitTop? marker {} (s ++ t) = (m.splitTop? marker {} t).map (Prod.map (s ++ ·) id)

/-- Texts that are crossed can be put one after another. -/
theorem Crosses.append (h : m.Crosses marker s) (h' : m.Crosses marker t) :
    m.Crosses marker (s ++ t) := by
  intro rest
  rw [List.append_assoc, h, h']
  cases m.splitTop? marker {} rest <;> simp [Prod.map]

/-- Whether a character opens and closes nothing. -/
def isLevel (m : Markers) (c : Char) : Bool :=
  !isQuote c && c != m.argumentOpening && c != m.argumentClosing

theorem next_of_isLevel {c : Char} (h : m.isLevel c = true) (depth : Nat) :
    Scope.next m { depth } c = { depth } := by
  simp only [isLevel, Bool.and_eq_true, Bool.not_eq_true', bne_iff_ne] at h
  simp [Scope.next, h.1.1, h.1.2, h.2]

/-- A character is at top level just if it opens and closes nothing and nothing is open. -/
theorem isTop_iff {scope : Scope} {c : Char} :
    scope.isTop m c = true ↔ m.isLevel c = true ∧ scope = {} := by
  obtain ⟨quote, depth⟩ := scope
  simp only [Scope.isTop, isLevel, Bool.and_eq_true, Option.isNone_iff_eq_none, beq_iff_eq,
    Scope.mk.injEq]
  constructor
  · rintro ⟨⟨⟨⟨hquote, hdepth⟩, hc⟩, hopening⟩, hclosing⟩
    exact ⟨⟨⟨hc, hopening⟩, hclosing⟩, hquote, hdepth⟩
  · rintro ⟨⟨⟨hc, hopening⟩, hclosing⟩, hquote, hdepth⟩
    exact ⟨⟨⟨⟨hquote, hdepth⟩, hc⟩, hopening⟩, hclosing⟩

theorem isTop_of_isLevel {c : Char} (h : m.isLevel c = true) : Scope.isTop m {} c = true :=
  isTop_iff.mpr ⟨h, rfl⟩

/-- At top level, characters are passed over that are not the marker; inside of a placeholder, any
that open and close nothing. -/
theorem splitTop?_of_isLevel (hs : ∀ c ∈ s, m.isLevel c = true) (depth : Nat)
    (hmarker : depth = 0 → marker ∉ s) (t : Text) :
    m.splitTop? marker { depth } (s ++ t) =
      (m.splitTop? marker { depth } t).map (Prod.map (s ++ ·) id) := by
  induction s with
  | nil =>
    rw [List.nil_append]
    cases m.splitTop? marker { depth } t <;> rfl
  | cons c s ih =>
    obtain ⟨hc, hs⟩ := List.forall_mem_cons.mp hs
    -- The marker only cuts at the top, and there it does not stand in `s`.
    have hskip : ¬(c = marker ∧ Scope.isTop m { depth } c = true) := by
      rintro ⟨rfl, htop⟩
      cases depth with
      | zero => exact hmarker rfl List.mem_cons_self
      | succ depth => simp [Scope.isTop] at htop
    rw [List.cons_append, splitTop?, if_neg hskip, next_of_isLevel hc,
      ih hs fun hdepth => List.not_mem_of_not_mem_cons (hmarker hdepth)]
    cases m.splitTop? marker { depth } t <;> rfl

theorem crosses_of_isLevel (hs : ∀ c ∈ s, m.isLevel c = true) (hmarker : marker ∉ s) :
    m.Crosses marker s := splitTop?_of_isLevel hs 0 fun _ => hmarker

/-- The first marker behind a text that is crossed is found. -/
theorem Crosses.splitTop? (h : m.Crosses marker s) (hmarker : m.isLevel marker = true) (t : Text) :
    m.splitTop? marker {} (s ++ marker :: t) = some (s, t) := by
  rw [h, Markers.splitTop?, if_pos ⟨rfl, isTop_of_isLevel hmarker⟩]
  simp

/-! ## Cutting everywhere

What crossing is for one cut, put together for all of them. -/

/-- A text without the marker is in one piece. -/
theorem splitTop_of_notMem (hmarker : marker ∉ s) (scope : Scope) :
    m.splitTop marker scope s = [s] := by
  induction s generalizing scope with
  | nil => rfl
  | cons c s ih =>
    have hskip : ¬(c = marker ∧ scope.isTop m c = true) := fun h =>
      hmarker (h.1 ▸ List.mem_cons_self)
    rw [splitTop, if_neg hskip, ih (List.not_mem_of_not_mem_cons hmarker)]

/-- Characters at top level that are not the marker belong to the first part. -/
theorem splitTop_of_isLevel (hs : ∀ c ∈ s, m.isLevel c = true) (hmarker : marker ∉ s) (t : Text) :
    m.splitTop marker {} (s ++ t) = (m.splitTop marker {} t).modifyHead (s ++ ·) := by
  induction s with
  | nil => cases h : m.splitTop marker {} t <;> simp [h]
  | cons c s ih =>
    obtain ⟨hc, hs⟩ := List.forall_mem_cons.mp hs
    have hskip : ¬(c = marker ∧ Scope.isTop m {} c = true) := fun h =>
      hmarker (h.1 ▸ List.mem_cons_self)
    rw [List.cons_append, splitTop_cons hskip, next_of_isLevel hc 0,
      ih hs (List.not_mem_of_not_mem_cons hmarker), List.modifyHead_modifyHead]
    rfl

/-- **Parts that were put together with a marker are cut apart at it again.** -/
theorem splitTop_joinWith (hmarker : m.isLevel marker = true) {parts : List Text} (hne : parts ≠ [])
    (h : ∀ part ∈ parts, (∀ c ∈ part, m.isLevel c = true) ∧ marker ∉ part) :
    m.splitTop marker {} (Text.joinWith [marker] parts) = parts := by
  induction parts with
  | nil => exact absurd rfl hne
  | cons part parts ih =>
    obtain ⟨⟨hlevel, hpart⟩, hparts⟩ := List.forall_mem_cons.mp h
    -- The last part has no marker behind it, and every other one is cut off at the first that
    -- follows.
    by_cases hlast : parts = []
    · rw [hlast]
      exact splitTop_of_notMem hpart {}
    · rw [Text.joinWith_cons [marker] part hlast, List.append_assoc, splitTop_of_isLevel hlevel hpart,
        List.singleton_append, splitTop_cut (isTop_of_isLevel hmarker), ih hlast hparts,
        List.modifyHead_cons, List.append_nil]

/-! ## Inside of placeholders

At any depth below the top a search only counts markers, so it comes out as deep as it went in. -/

/-- Whether the search passes over a text inside of a placeholder. -/
def Passes (m : Markers) (marker : Char) (s : Text) : Prop :=
  ∀ depth t, m.splitTop? marker { depth := depth + 1 } (s ++ t) =
    (m.splitTop? marker { depth := depth + 1 } t).map (Prod.map (s ++ ·) id)

theorem Passes.append (h : m.Passes marker s) (h' : m.Passes marker t) :
    m.Passes marker (s ++ t) := by
  intro depth rest
  rw [List.append_assoc, h, h']
  cases m.splitTop? marker { depth := depth + 1 } rest <;> simp [Prod.map]

theorem passes_of_isLevel (hs : ∀ c ∈ s, m.isLevel c = true) : m.Passes marker s :=
  fun depth => splitTop?_of_isLevel hs (depth + 1) fun hdepth => absurd hdepth (Nat.succ_ne_zero _)

section

variable (hpair : m.argumentOpening ≠ m.argumentClosing)
  (hquote : isQuote m.argumentOpening = false ∧ isQuote m.argumentClosing = false)

include hpair hquote

/-- Behind a placeholder the search is as deep as it was in front of it. -/
theorem Passes.splitTop?_placeholder (h : m.Passes marker s) (depth : Nat) (t : Text) :
    m.splitTop? marker { depth } (m.placeholder s ++ t) =
      (m.splitTop? marker { depth } t).map (Prod.map (m.placeholder s ++ ·) id) := by
  have hopening : Scope.next m { depth } m.argumentOpening = { depth := depth + 1 } := by
    simp [Scope.next, hquote.1]
  have hclosing : Scope.next m { depth := depth + 1 } m.argumentClosing = { depth } := by
    simp [Scope.next, hquote.2, Ne.symm hpair]
  have hsplit : m.placeholder s ++ t = m.argumentOpening :: (s ++ m.argumentClosing :: t) := by
    simp [placeholder]
  rw [hsplit, splitTop?, if_neg (fun h => by simp [Scope.isTop] at h), hopening, h,
    splitTop?, if_neg (fun h => by simp [Scope.isTop] at h), hclosing]
  cases m.splitTop? marker { depth } t <;> simp [placeholder, Prod.map]

theorem Passes.enclosed (h : m.Passes marker s) : m.Passes marker (m.placeholder s) :=
  fun depth => h.splitTop?_placeholder hpair hquote (depth + 1)

theorem Passes.crosses (h : m.Passes marker s) : m.Crosses marker (m.placeholder s) :=
  h.splitTop?_placeholder hpair hquote 0

theorem crosses_placeholder (hs : ∀ c ∈ s, m.isLevel c = true) :
    m.Crosses marker (m.placeholder s) := (passes_of_isLevel hs).crosses hpair hquote

end

end Markers

end MarkupTemplate
