import MarkupTemplate.Markers
import MarkupTemplate.Text.Nested

/-!
# Text in pieces

A text with placeholders is a row of plain characters and placeholders. A placeholder reaches to
the closing marker that belongs to its opening marker; the placeholders inside it are part of its
own text and are not pieces themselves.
-/

set_option autoImplicit false

namespace MarkupTemplate

/-- A piece of a text with placeholders. There are characters and no runs of them, so that two rows
of pieces of the same text cannot differ. -/
inductive Piece where
  | plain (c : Char)
  /-- The text between the markers of a placeholder. -/
  | placeholder (raw : Text)
  /-- The text after an opening marker that nothing closes. -/
  | unclosed (raw : Text)
deriving DecidableEq

namespace Markers

/-- The pieces of a text from left to right. An unclosed placeholder is the last one, and holds all
the rest. -/
def pieces (m : Markers) : Text → List Piece
  | [] => []
  | c :: t =>
    if c = m.argumentOpening then
      match _h : Text.takeNested m.argumentOpening m.argumentClosing 0 t with
      | (raw, some rest) => .placeholder raw :: pieces m rest
      | (raw, none) => [.unclosed raw]
    else .plain c :: pieces m t
termination_by t => t.length
decreasing_by
  · exact Nat.lt_succ_of_lt (Text.length_lt_of_takeNested _h)
  · exact Nat.lt_succ_self _

/-- The text that a piece was cut from. -/
def pieceText (m : Markers) : Piece → Text
  | .plain c => [c]
  | .placeholder raw => m.placeholder raw
  | .unclosed raw => m.argumentOpening :: raw

/-- The pieces make up the text: cutting loses nothing, and a closing marker without an opening one
is a plain character. -/
theorem flatten_pieces (m : Markers) (t : Text) : (m.pieces t).flatMap m.pieceText = t := by
  fun_induction pieces m t with
  | case1 => rfl
  | case2 t raw rest h ih =>
    simp [pieceText, placeholder, ih, Text.eq_of_takeNested h]
  | case3 t raw h => simp [pieceText, Text.eq_of_takeNested_none h]
  | case4 c t hc ih => simp [pieceText, ih]

end Markers

end MarkupTemplate
