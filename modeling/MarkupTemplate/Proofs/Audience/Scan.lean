import MarkupTemplate.Proofs.Audience.Builtin
import MarkupTemplate.Proofs.Audience.Tree

/-!
# Scanning in front of an audience

Scanning is oblivious: it moves the reader, resolves, runs macros and lets the tree grow, and all
of these are. A macro of the host may have other template text read in between. That is scanned with
less fuel, so `oblivious_scan` is by induction on the fuel, with texts that are read apart inside of
texts that are read apart.
-/

set_option autoImplicit false

namespace MarkupTemplate

namespace Engine

/-! ## Moving the reader

The audience has no reader, and the reader no audience. -/

theorem oblivious_skip (count : Nat) : Oblivious (skip count) :=
  oblivious_modifyParser fun _ _ => rfl

theorem oblivious_skipTo (rest : Text) : Oblivious (skipTo rest) :=
  oblivious_modifyParser fun _ _ => rfl

theorem oblivious_skipAll : Oblivious skipAll := oblivious_modifyParser fun _ _ => rfl

theorem oblivious_unread : Oblivious unread :=
  oblivious_parser_bind (fun _ _ => rfl) fun _ => oblivious_pure _

theorem oblivious_next : Oblivious next := ⟨fun _ _ => rfl, id⟩

/-! ## Pieces of a template

Placeholders, comments, tags and bodies, each read from the unread text. -/

theorem oblivious_readPlaceholder : Oblivious readPlaceholder := by
  refine oblivious_markers.bind fun m => oblivious_unread.bind fun t => ?_
  split
  · exact (oblivious_skipTo _).bind fun _ => oblivious_pure _
  · exact oblivious_skipAll.bind fun _ => oblivious_fail _

theorem oblivious_failUnclosedComment (text : Text) : Oblivious (failUnclosedComment text) := by
  refine oblivious_markers.bind fun m => ?_
  dsimp only
  split
  · exact (oblivious_skip _).bind fun _ => oblivious_fail _
  · exact oblivious_skipAll.bind fun _ => oblivious_fail _

theorem oblivious_skipComment : Oblivious skipComment := by
  refine oblivious_parser_bind (fun _ _ => rfl) fun p => oblivious_unread.bind fun text => ?_
  split
  · exact oblivious_skipTo _
  · exact oblivious_failUnclosedComment _

/-- The parts of a tag, by induction on the parts. -/
theorem oblivious_joinParts (fuel : Nat) (raw : Text) (parts : List TagPart) :
    Oblivious (joinParts fuel raw parts) := by
  induction parts generalizing raw with
  | nil => exact oblivious_pure _
  | cons part parts ih =>
    cases part with
    | char c => exact (oblivious_skip _).bind fun _ => ih _
    | placeholder name =>
      exact (oblivious_skip _).bind fun _ => (oblivious_placeholder fuel name).bind fun _ =>
        (oblivious_expand fuel _).bind fun _ => ih _
    | comment length => exact (oblivious_skip _).bind fun _ => ih _
    | closing => exact (oblivious_skip _).bind fun _ => oblivious_pure _
    | unclosedPlaceholder name => exact oblivious_skipAll.bind fun _ => oblivious_fail _
    | unclosedComment text =>
      exact (oblivious_skip _).bind fun _ => (oblivious_failUnclosedComment text).bind fun _ =>
        oblivious_pure _
    | missingClosing => exact oblivious_skipAll.bind fun _ => oblivious_fail _

theorem oblivious_readTagText (fuel : Nat) : Oblivious (readTagText fuel) :=
  oblivious_parser_bind (fun _ _ => rfl) fun _ => oblivious_unread.bind fun _ =>
    oblivious_joinParts fuel _ _

theorem oblivious_readBody (name : Text) (isMacro : Bool) : Oblivious (readBody name isMacro) := by
  refine oblivious_isStrict.bind fun strict => oblivious_markers.bind fun m =>
    oblivious_unread.bind fun t => ?_
  split
  · exact (oblivious_skipTo _).bind fun _ => oblivious_pure _
  · exact oblivious_skipAll.bind fun _ => oblivious_fail _

theorem oblivious_withBody (t : Tag) (isMacro : Bool) : Oblivious (withBody t isMacro) := by
  unfold withBody
  split
  · exact oblivious_pure _
  · exact (oblivious_readBody _ _).bind fun _ => oblivious_pure _

/-! ## Tags

A tag makes a node, calls a definition, or runs a macro. For a macro of the host, `fragment` is how
its body is read apart, and that it is oblivious is a hypothesis up to `oblivious_scan`. -/

theorem oblivious_appendTemplate (d : Definition) (t : Tag) : Oblivious (appendTemplate d t) :=
  oblivious_markers.bind fun _ => oblivious_append _ _

/-- The host is told of a node like an element, by a notice of its creation. -/
theorem oblivious_makeNode (maker : TagMaker) (t : Tag) : Oblivious (makeNode maker t) := by
  cases maker with
  | element kind container => exact oblivious_pure _
  | host h =>
    unfold makeNode
    dsimp only
    split
    · exact oblivious_fail _
    · split
      · exact (oblivious_note rfl).bind fun _ => oblivious_pure _
      · exact oblivious_pure _

theorem oblivious_readRegular (fuel : Nat) (raw : Text) : Oblivious (readRegular fuel raw) := by
  refine oblivious_markers.bind fun m => (oblivious_ofOutcome _).bind fun t =>
    oblivious_get_bind (fun _ _ => rfl) fun machine => ?_
  split
  · exact (oblivious_makeNode _ t).bind fun n => oblivious_openNode fuel n
  · exact (oblivious_withBody t false).bind fun t => oblivious_appendTemplate _ t
  · exact (oblivious_failIfStrict _).bind fun _ => oblivious_openNode fuel _

section

variable {fragment : Text → Text → Engine Document}
  (hfragment : ∀ text name, Oblivious (fragment text name))

include hfragment

/-- A macro of the host is oblivious if what it has read apart is. -/
theorem oblivious_runHostMacro (h : HostMacro) (t : Tag) :
    Oblivious (runHostMacro fragment h t) := by
  unfold runHostMacro
  split
  · exact oblivious_fail _
  · refine oblivious_parentName.bind fun _ => (oblivious_note rfl).bind fun _ => ?_
    split
    · exact oblivious_append _ _
    · exact (hfragment _ _).bind fun _ => oblivious_note rfl
    · exact oblivious_failIfStrict _
    · exact oblivious_append _ _

theorem oblivious_readMacro (fuel : Nat) (raw : Text) :
    Oblivious (readMacro fuel fragment raw) := by
  refine oblivious_markers.bind fun m => (oblivious_ofOutcome _).bind fun t =>
    (oblivious_withBody t true).bind fun t => oblivious_get_bind (fun _ _ => rfl) fun machine => ?_
  split
  · exact oblivious_runBuiltin fuel t _
  · exact oblivious_runHostMacro hfragment _ t
  · exact oblivious_appendTemplate _ t
  · exact oblivious_failIfStrict _

/-- A tag by what is between its markers. -/
theorem oblivious_readTag (fuel : Nat) (raw : Text) : Oblivious (readTag fuel fragment raw) := by
  refine oblivious_markers.bind fun m => ?_
  dsimp only
  split
  · exact oblivious_fail _
  · split
    · exact oblivious_closeParent _
    · split
      · exact oblivious_readMacro hfragment fuel _
      · exact oblivious_readRegular fuel _

end

/-! ## Templates

One turn of the scanner, and the turns one after another. -/

theorem oblivious_checkClosed : Oblivious checkClosed := by
  refine oblivious_parentName.bind fun name => ?_
  cases name with
  | some name => exact oblivious_fail _
  | none => exact oblivious_pure _

/-- A turn looks at markers, the unread text and the open tags. -/
theorem oblivious_turn (fuel : Nat) (pending : Text) : Oblivious (turn fuel pending) := by
  refine oblivious_markers.bind fun m => oblivious_next.bind fun c => ?_
  -- The four turns: the end, a placeholder, a tag or comment, and a plain character.
  cases c with
  | none =>
    exact (oblivious_addText _).bind fun _ => oblivious_checkClosed.bind fun _ => oblivious_pure _
  | some c =>
    dsimp only
    split
    · exact oblivious_readPlaceholder.bind fun raw => (oblivious_placeholder fuel raw).bind fun _ =>
        (oblivious_append _ _).bind fun _ => oblivious_pure _
    · split
      · refine oblivious_unread.bind fun t => ?_
        split
        · exact oblivious_skipComment.bind fun _ => oblivious_pure _
        · exact (oblivious_addText _).bind fun _ => (oblivious_readTagText fuel).bind fun _ =>
            oblivious_pure _
      · exact oblivious_pure _

/-- **Scanning is oblivious.** A text that is read apart in the midst of it is scanned with one unit
of fuel less, so the induction hypothesis covers it. -/
theorem oblivious_scan (fuel : Nat) (pending : Text) : Oblivious (scan fuel pending) := by
  induction fuel generalizing pending with
  | zero => exact oblivious_throw _
  | succ fuel ih =>
    rw [scan_succ]
    refine (oblivious_turn fuel pending).bind fun done => ?_
    -- A fragment that a tag asks for is read by the same scanner with less fuel.
    cases done with
    | finished => exact oblivious_pure _
    | text pending => exact ih pending
    | tag raw =>
      exact (oblivious_readTag (oblivious_apart (ih [])) fuel raw).bind fun _ => ih []

end Engine

end MarkupTemplate
