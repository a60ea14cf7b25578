import MarkupTemplate.Proofs.Body.Capture

/-!
# Where a body is cut in two

The body of a conditional is cut at the tag between its branches. Inside of another conditional
there may be such a tag too, and it belongs to that one. So a text is **uncut** if the search for
the tag passes over it, at every depth from some least one on: at depth zero, if the text has no
such tag of its own, and at depth one and more, whatever tags stand in it.

This is the form in which programs that are written in macros need it: they are put together from
parts, and so are the texts that are level or uncut. What the search does with a text that is not
put together like this is told in `Proofs/Body/Division`.

The four kinds of tags are told by what the patterns make of them with any text behind them, which
is how a part can be looked at without what follows it.
-/

set_option autoImplicit false

namespace MarkupTemplate

namespace TagPattern

/-- Whether a tag, given from behind its opening marker, is none of the pattern. -/
structure Ignores (p : TagPattern) (m : Markers) (s : Text) : Prop where
  notMem : m.tagOpening ∉ s
  closing : ∀ t, p.afterClosing? m (s ++ t) = none
  opening : ∀ t, p.opening? m (s ++ t) = none

/-- Whether a tag, given from behind its opening marker, has to be closed later. -/
structure Opens (p : TagPattern) (m : Markers) (s : Text) : Prop where
  notMem : m.tagOpening ∉ s
  closing : ∀ t, p.afterClosing? m (s ++ t) = none
  opening : ∀ t, p.opening? m (s ++ t) = some (false, t)

/-- Whether a tag, given from behind its opening marker, closes an earlier one. -/
structure Closes (p : TagPattern) (m : Markers) (s : Text) : Prop where
  notMem : m.tagOpening ∉ s
  closing : ∀ t, p.afterClosing? m (s ++ t) = some t

/-- Whether a tag, given from behind its opening marker, stands between the branches of one of the
pattern. -/
structure Divides (p separator : TagPattern) (m : Markers) (s : Text) : Prop where
  notMem : m.tagOpening ∉ s
  closing : ∀ t, p.afterClosing? m (s ++ t) = none
  opening : ∀ t, separator.opening? m (s ++ t) = some (true, t)

variable {p separator : TagPattern} {m : Markers} {s opening closing body : Text}

/-- A tag that is none of the pattern opens no body. -/
theorem Ignores.opensBody (h : p.Ignores m s) (t : Text) : p.opensBody m (s ++ t) = false := by
  rw [TagPattern.opensBody, h.opening]

/-- A tag that has to be closed later opens a body. -/
theorem Opens.opensBody (h : p.Opens m s) (t : Text) : p.opensBody m (s ++ t) = true := by
  rw [TagPattern.opensBody, h.opening]
  rfl

/-! ## Capturing

What the kinds of tags are for the capturing of a body, where a tag between branches is like any
other text. -/

/-- A tag that is none of the pattern is passed over. -/
theorem Ignores.level (h : p.Ignores m s) : p.Level m (m.tagOpening :: s) :=
  level_of_not_opensBody h.notMem h.closing h.opensBody

/-- So is a tag of the pattern, together with its body and its closing tag. -/
theorem Opens.level (h : p.Opens m opening) (hbody : p.Level m body) (hc : p.Closes m closing) :
    p.Level m (m.tagOpening :: opening ++ body ++ m.tagOpening :: closing) :=
  hbody.nested h.notMem hc.notMem h.closing h.opensBody hc.closing

/-- The body in front of a closing tag is what is captured. -/
theorem Level.takeBody (h : p.Level m body) (hc : p.Closes m closing) (t : Text) :
    p.takeBody m 0 (body ++ m.tagOpening :: closing ++ t) = some (body, t) := by
  rw [List.append_assoc, h, List.cons_append, takeBody_end (hc.closing t)]
  simp

/-! ## Cutting

The same steps for the search. At depth zero it stops at a tag between branches, so a text with one
is uncut from depth one on only, and that is where a conditional in a branch leaves it. -/

/-- Whether the search for the tag between the branches passes over a text. The least depth is part
of it, as being inside of another conditional is all that a tag between branches needs to be passed
over. -/
def Uncut (p separator : TagPattern) (m : Markers) (least : Nat) (s : Text) : Prop :=
  ∀ depth, least ≤ depth → ∀ t, p.splitBranches? separator m depth (s ++ t) =
    (p.splitBranches? separator m depth t).map (Prod.map (s ++ ·) id)

theorem uncut_nil (least : Nat) : p.Uncut separator m least [] := by
  intro depth _ t
  rw [List.nil_append]
  cases p.splitBranches? separator m depth t <;> rfl

/-- Texts that are passed over one by one are passed over together. -/
theorem Uncut.append {least : Nat} {s' : Text} (h : p.Uncut separator m least s)
    (h' : p.Uncut separator m least s') : p.Uncut separator m least (s ++ s') := by
  intro depth hdepth t
  rw [List.append_assoc, h depth hdepth, h' depth hdepth, map_map_append]

/-- Deeper inside, nothing is cut that was not cut before. -/
theorem Uncut.mono {least least' : Nat} (h : p.Uncut separator m least s) (hle : least ≤ least') :
    p.Uncut separator m least' s :=
  fun depth hdepth t => h depth (Nat.le_trans hle hdepth) t

theorem uncut_of_notMem {least : Nat} (h : m.tagOpening ∉ s) : p.Uncut separator m least s := by
  intro depth hdepth t
  induction s with
  | nil => exact uncut_nil least depth hdepth t
  | cons c s ih =>
    have hc : c ≠ m.tagOpening := fun heq => h (heq ▸ List.mem_cons_self)
    have hs : m.tagOpening ∉ s := fun hs => h (List.mem_cons_of_mem _ hs)
    rw [List.cons_append, splitBranches?, if_neg hc, ih hs]
    exact map_map_append [c] s _

/-- A tag that is neither of the conditional nor between branches. -/
theorem Ignores.uncut (least : Nat) (h : p.Ignores m s) (hs : separator.Ignores m s) :
    p.Uncut separator m least (m.tagOpening :: s) := by
  intro depth hdepth t
  rw [List.cons_append, splitBranches?, if_pos rfl, h.closing, hs.opening, h.opensBody]
  simp only [Option.isSome_none, Bool.false_eq_true, if_false]
  rw [uncut_of_notMem h.notMem depth hdepth t]
  exact map_map_append [m.tagOpening] s _

/-- The tag between the branches of a conditional that is open. -/
theorem Divides.uncut (h : p.Divides separator m s) :
    p.Uncut separator m 1 (m.tagOpening :: s) := by
  intro depth hdepth t
  rw [List.cons_append, splitBranches?, if_pos rfl, h.closing, h.opening]
  simp only [Option.isSome_none, Bool.false_eq_true, if_false]
  rw [if_neg (by omega), uncut_of_notMem h.notMem depth hdepth t]
  exact map_map_append [m.tagOpening] s _

theorem Opens.uncut {least : Nat} (h : p.Opens m opening) (hs : separator.Ignores m opening)
    (hbody : p.Uncut separator m 1 body) (hc : p.Closes m closing) :
    p.Uncut separator m least (m.tagOpening :: opening ++ body ++ m.tagOpening :: closing) := by
  intro depth _ t
  simp only [List.cons_append, List.append_assoc]
  rw [splitBranches?, if_pos rfl, h.closing, hs.opening, h.opensBody]
  simp only [Option.isSome_none, Bool.false_eq_true, if_false, if_true]
  -- The opening tag leads one deeper, the body is passed over there, and the closing tag leads
  -- back.
  rw [uncut_of_notMem h.notMem (depth + 1) (Nat.zero_le _), hbody (depth + 1) (by omega),
    splitBranches?, if_pos rfl, hc.closing]
  simp only [Option.isSome_some, if_true, Nat.add_sub_cancel]
  rw [uncut_of_notMem hc.notMem depth (Nat.zero_le _)]
  cases p.splitBranches? separator m depth t <;> simp [Prod.map]

theorem Uncut.splitBranches?_eq_none (h : p.Uncut separator m 0 body) :
    p.splitBranches? separator m 0 body = none := by
  have := h 0 (Nat.le_refl _) []
  rw [List.append_nil] at this
  rw [this]
  rfl

/-- A body is cut at the first tag between branches that is its own. -/
theorem Uncut.splitBranches?_eq_some (h : p.Uncut separator m 0 body)
    (hs : p.Divides separator m s) (t : Text) :
    p.splitBranches? separator m 0 (body ++ m.tagOpening :: s ++ t) = some (body, t) := by
  rw [List.append_assoc, h 0 (Nat.le_refl _), List.cons_append, splitBranches?, if_pos rfl,
    hs.closing, hs.opening]
  simp

end TagPattern

end MarkupTemplate
