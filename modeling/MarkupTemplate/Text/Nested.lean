import MarkupTemplate.Text.Basic

/-!
# Nested markers

A pair of markers, one that opens and one that closes, nests: what belongs to an opening marker
ends at the closing marker that makes their numbers equal. `takeNested` cuts a text there and keeps
all of its characters.
-/

set_option autoImplicit false

namespace MarkupTemplate

namespace Text

/-- What stands in front of the closing marker that belongs to an opening marker already passed, and
what follows that marker; all of the text if it is not there. `depth` counts the pairs open
inside. -/
def takeNested (opening closing : Char) : Nat → Text → Text × Option Text
  | _, [] => ([], none)
  | depth, c :: rest =>
    if c = opening then (takeNested opening closing (depth + 1) rest).map (c :: ·) id
    else if c = closing then
      match depth with
      | 0 => ([], some rest)
      | depth + 1 => (takeNested opening closing depth rest).map (c :: ·) id
    else (takeNested opening closing depth rest).map (c :: ·) id

/-- Nothing is lost but the closing marker at the cut. The two cases in which it is used are
`eq_of_takeNested` and `eq_of_takeNested_none`. -/
theorem takeNested_append (opening closing : Char) (depth : Nat) (t : Text) :
    (takeNested opening closing depth t).1 ++
      ((takeNested opening closing depth t).2.map (closing :: ·)).getD [] = t := by
  fun_induction takeNested opening closing depth t <;> simp_all

theorem eq_of_takeNested {opening closing : Char} {depth : Nat} {t inner rest : Text}
    (h : takeNested opening closing depth t = (inner, some rest)) :
    t = inner ++ closing :: rest := by
  have := takeNested_append opening closing depth t
  simpa [h] using this.symm

theorem eq_of_takeNested_none {opening closing : Char} {depth : Nat} {t inner : Text}
    (h : takeNested opening closing depth t = (inner, none)) : t = inner := by
  have := takeNested_append opening closing depth t
  simpa [h] using this.symm

theorem length_lt_of_takeNested {opening closing : Char} {depth : Nat} {t inner rest : Text}
    (h : takeNested opening closing depth t = (inner, some rest)) : rest.length < t.length := by
  rw [eq_of_takeNested h]
  simp only [List.length_append, List.length_cons]
  omega

end Text

end MarkupTemplate
