import MarkupTemplate.Markers
import MarkupTemplate.Text.Nested

/-!
# Comments

A tag marker with a comment marker behind it begins something that is passed over. It is a remark
if two more comment markers follow, and ends with the comment end sign; remarks nest if the
settings say so. Anything else, such as a document type, is a declaration and ends at the tag
marker that makes the numbers of opening and closing ones equal.

The functions take the text behind the tag marker.
-/

set_option autoImplicit false

namespace MarkupTemplate

namespace Markers

/-- Whether a comment, given from its comment marker on, is a remark. Two characters are looked at,
and what follows them does not matter. -/
def isRemark (m : Markers) (t : Text) : Bool :=
  t[1]? == some m.commentClosing && t[2]? == some m.commentClosing

/-- What follows a remark, given from behind its start sign on. `depth` counts the remarks open
inside it. A sign is passed over as a whole, so no character belongs to two of them. -/
def afterRemark? (m : Markers) (nested : Bool) : Nat → Text → Option Text
  | _, [] => none
  | depth, c :: t =>
    if nested ∧ m.commentStart.isPrefixOf (c :: t) = true then
      -- The sign has four characters, and `c` was one of them.
      afterRemark? m nested (depth + 1) (t.drop 3)
    else if m.commentEnd.isPrefixOf (c :: t) = true then
      match depth with
      | 0 => some (t.drop 2)
      | depth + 1 => afterRemark? m nested depth (t.drop 2)
    else afterRemark? m nested depth t
termination_by _ t => t.length

/-- What follows a comment, given from its comment marker on. A declaration nests in any case: it
holds tags, and each of these has its own closing marker. -/
def afterComment? (m : Markers) (nested : Bool) (t : Text) : Option Text :=
  if m.isRemark t then m.afterRemark? nested 0 (t.drop 3)
  else (Text.takeNested m.tagOpening m.tagClosing 0 (t.drop 1)).2

/-- What follows a remark is an end of it. -/
theorem isSuffix_of_afterRemark? {m : Markers} {nested : Bool} {depth : Nat} {t rest : Text}
    (h : m.afterRemark? nested depth t = some rest) : rest <:+ t := by
  fun_induction afterRemark? m nested depth t with
  | case1 => simp at h
  | case2 depth c t hs ih =>
    exact (ih h).trans ((List.drop_suffix 3 t).trans (List.suffix_cons c t))
  | case3 c t hs he =>
    obtain rfl := Option.some.inj h
    exact (List.drop_suffix 2 t).trans (List.suffix_cons c t)
  | case4 c t hs he depth ih =>
    exact (ih h).trans ((List.drop_suffix 2 t).trans (List.suffix_cons c t))
  | case5 depth c t hs he ih => exact (ih h).trans (List.suffix_cons c t)

/-- What follows a comment is an end of it. -/
theorem isSuffix_of_afterComment? {m : Markers} {nested : Bool} {t rest : Text}
    (h : m.afterComment? nested t = some rest) : rest <:+ t := by
  unfold afterComment? at h
  split at h
  · exact (isSuffix_of_afterRemark? h).trans (List.drop_suffix 3 t)
  · obtain ⟨inner, hi⟩ : ∃ inner, Text.takeNested m.tagOpening m.tagClosing 0 (t.drop 1) =
        (inner, some rest) := ⟨_, Prod.ext rfl h⟩
    have := Text.eq_of_takeNested hi
    exact List.IsSuffix.trans ⟨inner ++ [m.tagClosing], by simp [this]⟩ (List.drop_suffix 1 t)

end Markers

end MarkupTemplate
