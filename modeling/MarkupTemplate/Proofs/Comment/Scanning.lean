import MarkupTemplate.Proofs.Comment.Extent
import MarkupTemplate.Proofs.Twin.Queueing

/-!
# Comments in literal text

To the scanner a comment in literal text is as good as nothing: scanning goes on behind it as if it
had not been written, with the text of both sides in one piece. The comment may begin in one
sequence of the reader and end in another. A sign that begins a comment where none ends is an error,
whatever follows it.

One turn is enough for all of this. It leaves the machine as it was but for the reader, and from
there on two runs on the same unread text are alike (`endAlike_scan`). What the text behind the
comment does, macros, random choices and hosts among it, is never looked at.
-/

set_option autoImplicit false

namespace MarkupTemplate

namespace Engine

variable (machine : Machine) {fuel : Nat} {pending t rest : Text}

theorem turn_of_commentOpening
    (hargument : machine.parser.settings.markers.tagOpening ≠
      machine.parser.settings.markers.argumentOpening)
    (hr : machine.parser.reader.unread = machine.parser.settings.markers.tagOpening ::
      machine.parser.settings.markers.commentOpening :: t) :
    turn fuel pending machine = (skipComment >>= fun _ => pure (.text pending)) (machine.withReader
      ⟨Reader.advance machine.parser.settings.markers.tagOpening machine.parser.reader.stack,
        machine.parser.settings.markers.commentOpening :: t⟩) := by
  rw [turn, bind_of_ok (markers_eq _), bind_of_ok (next_eq hr)]
  dsimp only
  rw [if_neg hargument, if_pos rfl]
  have hunread : unread (machine.withReader
      ⟨Reader.advance machine.parser.settings.markers.tagOpening machine.parser.reader.stack,
        machine.parser.settings.markers.commentOpening :: t⟩) =
      .ok (machine.parser.settings.markers.commentOpening :: t) _ := rfl
  rw [bind_of_ok hunread, List.head?_cons]
  exact congrFun (if_pos rfl) _

/-- Skipping a comment moves the reader behind it and does nothing else. -/
theorem skipComment_eq_ok
    (h : machine.parser.settings.markers.afterComment? machine.parser.settings.nestedComments
      machine.parser.reader.unread = some rest) :
    ∃ r, r.unread = rest ∧ skipComment machine = .ok () (machine.withReader r) := by
  have hunread : unread machine = .ok machine.parser.reader.unread machine := rfl
  obtain ⟨taken, htaken⟩ := Markers.isSuffix_of_afterComment? h
  refine ⟨_, Reader.unread_skip_of_append htaken.symm, ?_⟩
  rw [skipComment, bind_of_ok (parser_eq _), bind_of_ok hunread, h]
  rfl

/-- A comment that does not end is an error, wherever the reader is left. -/
theorem skipComment_eq_error
    (h : machine.parser.settings.markers.afterComment? machine.parser.settings.nestedComments
      machine.parser.reader.unread = none) :
    ∃ r, skipComment machine = .error (.failure { fault := .unclosedComment })
      (machine.withReader r) := by
  have hunread : unread machine = .ok machine.parser.reader.unread machine := rfl
  rw [skipComment, bind_of_ok (parser_eq _), bind_of_ok hunread, h]
  dsimp only
  rw [failUnclosedComment, bind_of_ok (markers_eq _)]
  split
  · exact ⟨_, rfl⟩
  · exact ⟨_, rfl⟩

/-- A turn skips a comment and leaves the text in front of it as it is. -/
theorem exists_turn_of_comment
    (hargument : machine.parser.settings.markers.tagOpening ≠
      machine.parser.settings.markers.argumentOpening)
    (hr : machine.parser.reader.unread = machine.parser.settings.markers.tagOpening ::
      machine.parser.settings.markers.commentOpening :: t)
    (hafter : machine.parser.settings.markers.afterComment? machine.parser.settings.nestedComments
      (machine.parser.settings.markers.commentOpening :: t) = some rest) :
    ∃ r, r.unread = rest ∧ turn fuel pending machine = .ok (.text pending) (machine.withReader r) := by
  obtain ⟨r, hrest, hskip⟩ := skipComment_eq_ok (machine.withReader
    ⟨Reader.advance machine.parser.settings.markers.tagOpening machine.parser.reader.stack,
      machine.parser.settings.markers.commentOpening :: t⟩) hafter
  refine ⟨r, hrest, ?_⟩
  rw [turn_of_commentOpening machine hargument hr]
  exact bind_of_ok hskip

/-- A turn fails at a comment that does not end. -/
theorem exists_turn_of_unclosedComment
    (hargument : machine.parser.settings.markers.tagOpening ≠
      machine.parser.settings.markers.argumentOpening)
    (hr : machine.parser.reader.unread = machine.parser.settings.markers.tagOpening ::
      machine.parser.settings.markers.commentOpening :: t)
    (hafter : machine.parser.settings.markers.afterComment? machine.parser.settings.nestedComments
      (machine.parser.settings.markers.commentOpening :: t) = none) :
    ∃ r, turn fuel pending machine = .error (.failure { fault := .unclosedComment })
      (machine.withReader r) := by
  obtain ⟨r, hskip⟩ := skipComment_eq_error (machine.withReader
    ⟨Reader.advance machine.parser.settings.markers.tagOpening machine.parser.reader.stack,
      machine.parser.settings.markers.commentOpening :: t⟩) hafter
  refine ⟨r, ?_⟩
  rw [turn_of_commentOpening machine hargument hr]
  exact bind_of_error hskip

/-- **Comments are invisible in literal text**, and a comment without an end is an error. The turn
that a comment takes is the one unit of fuel more. The two runs start with the same draws, whatever
those are, and so they make the same random choices in what follows the comment. -/
theorem scan_comment (fuel : Nat) (pending : Text) (machine : Machine)
    (hargument : machine.parser.settings.markers.tagOpening ≠
      machine.parser.settings.markers.argumentOpening)
    (hclosing : machine.parser.settings.markers.tagClosing ≠
      machine.parser.settings.markers.commentClosing) :
    (∀ c rest r r', machine.parser.settings.markers.IsComment
        machine.parser.settings.nestedComments c →
      r.unread = c ++ rest → r'.unread = rest →
      EndAlike (scan (fuel + 1) pending (machine.withReader r))
        (scan fuel pending (machine.withReader r'))) ∧
    ∀ r, [machine.parser.settings.markers.tagOpening,
        machine.parser.settings.markers.commentOpening] <+: r.unread →
      (∀ c, c <+: r.unread → ¬ machine.parser.settings.markers.IsComment
        machine.parser.settings.nestedComments c) →
      ∃ r', scan (fuel + 1) pending (machine.withReader r) =
        .error (.failure { fault := .unclosedComment }) (machine.withReader r') := by
  constructor
  · intro c rest r r' hc hr hr'
    obtain ⟨t, ht⟩ : ∃ t, c ++ rest = machine.parser.settings.markers.tagOpening ::
        machine.parser.settings.markers.commentOpening :: t := by
      cases hc with
      | remark _ => exact ⟨_, rfl⟩
      | declaration _ _ => exact ⟨_, rfl⟩
    -- The comment ends in front of the rest, however the two are put together.
    have hafter := (Markers.afterComment?_eq_some_iff hclosing).mpr ⟨c, hc, ht.symm⟩
    obtain ⟨behind, hbehind, hturn⟩ := exists_turn_of_comment (machine.withReader r) hargument
      (hr.trans ht) hafter
    rw [scan_succ, bind_of_ok hturn]
    exact endAlike_scan fuel pending (hr'.trans hbehind.symm)
  · intro r hstart hno
    obtain ⟨t, ht⟩ := hstart
    have hafter : machine.parser.settings.markers.afterComment?
        machine.parser.settings.nestedComments
        (machine.parser.settings.markers.commentOpening :: t) = none := by
      rw [Option.eq_none_iff_forall_ne_some]
      intro rest hrest
      obtain ⟨c, hc, hcut⟩ := (Markers.afterComment?_eq_some_iff hclosing).mp hrest
      refine hno c ?_ hc
      rw [← ht]
      exact ⟨rest, hcut.symm⟩
    obtain ⟨behind, hturn⟩ := exists_turn_of_unclosedComment (machine.withReader r) hargument
      ht.symm hafter
    exact ⟨behind, by rw [scan_succ, bind_of_error hturn]; rfl⟩

/-- A remark in another one, begun in one sequence and ended in the next, and one that does not
end. -/
theorem scan_comment_nestedRemark :
    ({} : Markers).tagOpening ≠ ({} : Markers).argumentOpening ∧
    ({} : Markers).tagClosing ≠ ({} : Markers).commentClosing ∧
    EndAlike
      (scan (59 + 1) ['a'] (({} : Machine).withReader
        ((Reader.ofText [] "<!---->-->b".toList).append "<!--".toList [])))
      (scan 59 ['a'] (({} : Machine).withReader (Reader.ofText [] "b".toList))) ∧
    ∃ r, scan (59 + 1) ['a'] (({} : Machine).withReader (Reader.ofText [] "<!-- b".toList)) =
      .error (.failure { fault := .unclosedComment }) (({} : Machine).withReader r) := by
  have hargument : ({} : Markers).tagOpening ≠ ({} : Markers).argumentOpening := by decide
  have hclosing : ({} : Markers).tagClosing ≠ ({} : Markers).commentClosing := by decide
  have hscan := scan_comment 59 ['a'] {} hargument hclosing
  have hcomment : ({} : Markers).IsComment true "<!--<!---->-->".toList :=
    .remark (.opening (.closing .last))
  refine ⟨hargument, hclosing, hscan.1 _ "b".toList _ _ hcomment (by decide) (by decide),
    hscan.2 _ (by decide) fun c hc hcomment => ?_⟩
  obtain ⟨rest, hrest⟩ := hc
  have hafter : ({} : Markers).afterComment? true "!-- b".toList = some rest :=
    (Markers.afterComment?_eq_some_iff hclosing).mpr ⟨c, hcomment, hrest.symm⟩
  simp [Markers.afterComment?, Markers.isRemark, Markers.afterRemark?, Markers.commentStart,
    Markers.commentEnd] at hafter

end Engine

end MarkupTemplate
