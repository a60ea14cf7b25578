import MarkupTemplate.Markers.Comment
import MarkupTemplate.Text.Blank

/-!
# The parts of a written tag

Between its markers a tag holds characters, placeholders and comments. The parts are cut out before
anything is looked up: the value of a placeholder, whatever characters it has, cannot end the tag or
open a quote in it. Inside quotes only placeholders count.

The last part says how the tag ends, and there is nothing behind it.
-/

set_option autoImplicit false

namespace MarkupTemplate

/-- A part of a written tag, and the four ways in which a tag can end. -/
inductive TagPart where
  | char (c : Char)
  | placeholder (raw : Text)
  /-- A comment, and the number of its characters. -/
  | comment (length : Nat)
  /-- The marker that ends the tag. -/
  | closing
  | unclosedPlaceholder (raw : Text)
  /-- A comment without an end, given from its comment marker on. -/
  | unclosedComment (text : Text)
  /-- The end of the text, without a marker in front. -/
  | missingClosing
deriving DecidableEq

namespace Markers

/-- The parts of a tag, given from behind its opening marker, with the quote that is open. The
placeholders come first: also inside quotes they are parts of their own. -/
def tagParts (m : Markers) (nested : Bool) (quote : Option Char) : Text → List TagPart
  | [] => [.missingClosing]
  | c :: t =>
    if c = m.argumentOpening then
      match _h : Text.takeNested m.argumentOpening m.argumentClosing 0 t with
      | (raw, some rest) => .placeholder raw :: tagParts m nested quote rest
      | (raw, none) => [.unclosedPlaceholder raw]
    else
      match quote with
      | some q => .char c :: tagParts m nested (if c = q then none else some q) t
      | none =>
        if isQuote c then .char c :: tagParts m nested (some c) t
        else if c = m.tagOpening ∧ t.head? = some m.commentOpening then
          match _h : m.afterComment? nested t with
          | some rest => .comment (t.length + 1 - rest.length) :: tagParts m nested none rest
          | none => [.unclosedComment t]
        else if c = m.tagClosing then [.closing]
        else .char c :: tagParts m nested none t
termination_by t => t.length
decreasing_by
  · exact Nat.lt_succ_of_lt (Text.length_lt_of_takeNested _h)
  · exact Nat.lt_succ_self _
  · exact Nat.lt_succ_self _
  · exact Nat.lt_succ_of_le (isSuffix_of_afterComment? _h).length_le
  · exact Nat.lt_succ_self _

end Markers

end MarkupTemplate
