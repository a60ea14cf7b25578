import MarkupTemplate.Markers

/-!
# Top level

Arrays and conditions are cut at a marker, but only where it stands at top level: outside quotes
and outside placeholders. A `Scope` is what has been left open in front of a character; inside
quotes nothing else opens or closes, and a closing marker without an opening one counts for
nothing.

`joinWith_splitTop` says that cutting everywhere loses nothing but the markers at the cuts.
-/

set_option autoImplicit false

namespace MarkupTemplate

/-- What is open in front of a character: a quote or none, and a number of placeholders. That is all
that has to be known about the text in front of it. -/
structure Scope where
  quote : Option Char := none
  /-- How many placeholders are open. -/
  depth : Nat := 0
deriving DecidableEq

namespace Scope

/-- The scope behind a character. Inside quotes only the same quote counts, and a closing marker at
depth zero leaves the depth at zero. -/
def next (m : Markers) (s : Scope) (c : Char) : Scope :=
  match s.quote with
  | some q => if c = q then { s with quote := none } else s
  | none =>
    if isQuote c then { s with quote := some c }
    else if c = m.argumentOpening then { s with depth := s.depth + 1 }
    else if c = m.argumentClosing then { s with depth := s.depth - 1 }
    else s

/-- Whether a character in this scope stands at top level, and opens or closes nothing itself. So a
marker that is a quote or an argument marker is never cut at. -/
def isTop (m : Markers) (s : Scope) (c : Char) : Bool :=
  s.quote.isNone && s.depth == 0 && !isQuote c && c != m.argumentOpening && c != m.argumentClosing

theorem next_of_isTop {m : Markers} {s : Scope} {c : Char} (h : s.isTop m c = true) :
    s.next m c = s := by
  simp only [isTop, Bool.and_eq_true, Bool.not_eq_eq_eq_not, Bool.not_true, bne_iff_ne, ne_eq,
    Option.isNone_iff_eq_none] at h
  obtain ⟨⟨⟨⟨hq, _⟩, hc⟩, ho⟩, hl⟩ := h
  simp [next, hq, hc, ho, hl]

end Scope

namespace Markers

/-- The text before and after the first `marker` at top level, if there is one. This is the first
cut that `splitTop` makes. -/
def splitTop? (m : Markers) (marker : Char) (s : Scope) : Text → Option (Text × Text)
  | [] => none
  | c :: t =>
    if c = marker ∧ s.isTop m c = true then some ([], t)
    else (splitTop? m marker (s.next m c) t).map fun p => (c :: p.1, p.2)

/-- The parts of a text between the occurrences of `marker` at top level. There is always at least
one, which is all of the text if nothing is cut. -/
def splitTop (m : Markers) (marker : Char) (s : Scope) : Text → List Text
  | [] => [[]]
  | c :: t =>
    if c = marker ∧ s.isTop m c = true then [] :: splitTop m marker s t
    else
      match splitTop m marker (s.next m c) t with
      | [] => [[c]]
      | part :: parts => (c :: part) :: parts

theorem splitTop_ne_nil (m : Markers) (marker : Char) (s : Scope) (t : Text) :
    m.splitTop marker s t ≠ [] := by
  cases t with
  | nil => simp [splitTop]
  | cons c t =>
    simp only [splitTop]
    split
    · simp
    · split <;> simp

theorem splitTop_cut {m : Markers} {marker : Char} {s : Scope} (h : s.isTop m marker = true)
    (t : Text) : m.splitTop marker s (marker :: t) = [] :: m.splitTop marker s t := by
  rw [splitTop, if_pos ⟨rfl, h⟩]

/-- A character that is not cut at is a part of the first part. With `splitTop_cut` this is all that
is needed of the definition. -/
theorem splitTop_cons {m : Markers} {marker c : Char} {s : Scope}
    (h : ¬ (c = marker ∧ s.isTop m c = true)) (t : Text) :
    m.splitTop marker s (c :: t) = (m.splitTop marker (s.next m c) t).modifyHead (c :: ·) := by
  rw [splitTop, if_neg h]
  cases hparts : m.splitTop marker (s.next m c) t with
  | nil => exact absurd hparts (splitTop_ne_nil m marker _ t)
  | cons part parts => rfl

theorem joinWith_splitTop (m : Markers) (marker : Char) (s : Scope) (t : Text) :
    Text.joinWith [marker] (m.splitTop marker s t) = t := by
  induction t generalizing s with
  | nil => rfl
  | cons c t ih =>
    by_cases hcut : c = marker ∧ s.isTop m c = true
    · obtain ⟨rfl, htop⟩ := hcut
      rw [splitTop_cut htop, Text.joinWith_cons [c] [] (splitTop_ne_nil m c s t), ih]
      rfl
    · rw [splitTop_cons hcut, Text.joinWith_modifyHead [marker] c (splitTop_ne_nil m marker _ t), ih]

end Markers

end MarkupTemplate
