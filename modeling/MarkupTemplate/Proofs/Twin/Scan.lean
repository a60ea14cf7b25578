import MarkupTemplate.Proofs.Engine.Turn
import MarkupTemplate.Proofs.Twin.Builtin
import MarkupTemplate.Proofs.Twin.Tree

/-!
# Reading templates on twins

Scanning goes on a twin as on the machine, turn by turn and tag by tag. This needs nothing for twins
that differ in how their text is queued. On a lax twin a captured body may end elsewhere and a
conditional may divide its body at another tag, because strict names are compared letter by letter
and lenient ones are not. `CaseFree` is that this makes no difference at a tag, and it is asked of
the tags that the strict run meets, no others.
-/

set_option autoImplicit false

namespace MarkupTemplate

namespace Engine

variable {lax : Bool}

/-! ## Moving the reader

All that the scanner asks of a reader is its unread text, and all that it does is to move over a
number of characters or put a text in front. So a twin stays a twin. -/

theorem mirrors_skip (count : Nat) : Mirrors lax (skip count) (skip count) := by
  refine mirrors_modifyParser fun p r hr => ⟨Reader.skip count r, ?_, rfl⟩
  rw [Reader.unread_skip, Reader.unread_skip, hr]

/-- A rest is told by its length, which is the same number of characters to move over on both
sides. -/
theorem mirrors_skipTo (rest : Text) : Mirrors lax (skipTo rest) (skipTo rest) := by
  refine mirrors_modifyParser fun p r hr =>
    ⟨Reader.skip (p.reader.available - rest.length) r, ?_, ?_⟩
  · rw [Reader.unread_skip, Reader.unread_skip, hr]
  · have havailable : r.available = p.reader.available := by
      rw [Reader.available, Reader.available, hr]
    rw [← havailable]
    rfl

theorem mirrors_skipAll : Mirrors lax skipAll skipAll := by
  refine mirrors_modifyParser fun p r _ => ⟨r.finish, ?_, rfl⟩
  rw [Reader.unread_finish, Reader.unread_finish]

theorem mirrors_unread : Mirrors lax unread unread := by
  refine mirrors_parser_bind fun p r hr => ?_
  show Mirrors lax (pure p.reader.unread) (pure r.unread)
  rw [hr]
  exact mirrors_pure _

/-- What is read next and what is left depends on the unread text only. The sequences that it is
taken from may be different ones. -/
theorem next_congr {r r' : Reader} (h : r.unread = r'.unread) :
    r.next.1 = r'.next.1 ∧ r.next.2.unread = r'.next.2.unread := by
  cases h' : r'.unread with
  | nil =>
    rw [Reader.next_of_unread_nil h', Reader.next_of_unread_nil (h.trans h')]
    exact ⟨rfl, rfl⟩
  | cons c t =>
    rw [Reader.next_of_unread_cons h', Reader.next_of_unread_cons (h.trans h')]
    exact ⟨rfl, rfl⟩

theorem mirrors_next : Mirrors lax next next := by
  intro machine r hr
  have hnext : ∀ machine : Machine, next machine = .ok machine.parser.reader.next.1
      (machine.withReader machine.parser.reader.next.2) := fun _ => rfl
  obtain ⟨hfirst, hleft⟩ := next_congr hr
  rw [hnext, hnext]
  refine ⟨r.next.2, hleft, ?_⟩
  rw [← hfirst]
  rfl

/-! ## Pieces of a template

Where a piece ends is found in the unread text, which is the same; whatever is resolved in it has
been treated in the modules on values. -/

theorem mirrors_readPlaceholder : Mirrors lax readPlaceholder readPlaceholder := by
  refine mirrors_markers.bind fun m => mirrors_unread.bind fun t => ?_
  split
  · exact (mirrors_skipTo _).bind fun _ => mirrors_pure _
  · exact mirrors_skipAll.bind fun _ => mirrors_fail _

theorem mirrors_failUnclosedComment (text : Text) :
    Mirrors lax (failUnclosedComment text) (failUnclosedComment text) := by
  refine mirrors_markers.bind fun m => ?_
  dsimp only
  split
  · exact (mirrors_skip _).bind fun _ => mirrors_fail _
  · exact mirrors_skipAll.bind fun _ => mirrors_fail _

theorem mirrors_skipComment : Mirrors lax skipComment skipComment := by
  refine mirrors_parser_bind fun p r _ => mirrors_unread.bind fun text => ?_
  dsimp only [Parser.twin]
  split
  · exact mirrors_skipTo _
  · exact mirrors_failUnclosedComment _

variable {fuel fuel' : Nat} (hle : fuel ≤ fuel')

section

include hle

/-- The parts of a tag, by induction on the parts. They have been cut before, on a text that is the
same on both sides, so only the placeholders are of interest. -/
theorem mirrors_joinParts (raw : Text) (parts : List TagPart) :
    Mirrors lax (joinParts fuel raw parts) (joinParts fuel' raw parts) := by
  -- The parts are the same on both sides, as the text and the markers are.
  induction parts generalizing raw with
  | nil => exact mirrors_pure _
  | cons part parts ih =>
    cases part with
    | char c => exact (mirrors_skip _).bind fun _ => ih _
    | placeholder name =>
      exact (mirrors_skip _).bind fun _ => (mirrors_placeholder hle name).bind fun _ =>
        (mirrors_expand hle _).bind fun _ => ih _
    | comment length => exact (mirrors_skip _).bind fun _ => ih _
    | closing => exact (mirrors_skip _).bind fun _ => mirrors_pure _
    | unclosedPlaceholder name => exact mirrors_skipAll.bind fun _ => mirrors_fail _
    | unclosedComment text =>
      exact (mirrors_skip _).bind fun _ => (mirrors_failUnclosedComment text).bind fun _ =>
        mirrors_pure _
    | missingClosing => exact mirrors_skipAll.bind fun _ => mirrors_fail _

theorem mirrors_readTagText : Mirrors lax (readTagText fuel) (readTagText fuel') :=
  mirrors_parser_bind fun _ _ _ => mirrors_unread.bind fun _ => mirrors_joinParts hle _ _

end

theorem mirrors_checkClosed : Mirrors lax checkClosed checkClosed := by
  refine mirrors_parentName.bind fun name => ?_
  cases name with
  | some name => exact mirrors_fail _
  | none => exact mirrors_pure _

/-! ## Turns

A turn is what the scanner does up to the next tag, and `CaseFree` plays no part in it: no name of a
tag is looked at. -/

include hle in
/-- Up to the next tag nothing depends on the strictness but whether an anomaly is passed over. -/
theorem mirrors_turn (pending : Text) : Mirrors lax (turn fuel pending) (turn fuel' pending) := by
  refine mirrors_markers.bind fun m => mirrors_next.bind fun c => ?_
  cases c with
  | none =>
    exact (mirrors_addText _).bind fun _ => mirrors_checkClosed.bind fun _ => mirrors_pure _
  | some c =>
    dsimp only
    split
    · exact mirrors_readPlaceholder.bind fun raw => (mirrors_placeholder hle raw).bind fun _ =>
        (mirrors_append _ _).bind fun _ => mirrors_pure _
    · split
      · refine mirrors_unread.bind fun t => ?_
        split
        · exact mirrors_skipComment.bind fun _ => mirrors_pure _
        · exact (mirrors_addText _).bind fun _ => (mirrors_readTagText hle).bind fun _ =>
            mirrors_pure _
      · exact mirrors_pure _

/-! ## Bodies

A body ends at the closing tag of its name, and whether a tag has that name depends on the
strictness. `SameBody` is that the two searches find the same end, and it is asked on a lax twin
only. -/

/-- Whether letter case makes no difference to where the body behind a tag ends: searching as the
machine does and searching without letter case come to the same, be it that neither finds an end. -/
def SameBody (machine : Machine) (name : Text) (isMacro : Bool) : Prop :=
  TagPattern.takeBody ⟨name, isMacro, machine.parser.settings.strict⟩
      machine.parser.settings.markers 0 machine.parser.reader.unread =
    TagPattern.takeBody ⟨name, isMacro, false⟩
      machine.parser.settings.markers 0 machine.parser.reader.unread

/-- Goes to the end of a body that has been found, or fails. It is reading a body without the search
for its end, and mirrors itself. -/
def takeFound (name : Text) (isMacro : Bool) (found : Option (Text × Text)) : Engine Text :=
  match found with
  | some (body, rest) => do
    skipTo rest
    return body
  | none => do
    skipAll
    fail (if isMacro then .unclosedMacro name else .unclosedTag name)

theorem readBody_found (name : Text) (isMacro : Bool) (machine : Machine) :
    readBody name isMacro machine = takeFound name isMacro
      (TagPattern.takeBody ⟨name, isMacro, machine.parser.settings.strict⟩
        machine.parser.settings.markers 0 machine.parser.reader.unread) machine := rfl

theorem mirrors_takeFound (name : Text) (isMacro : Bool) (found : Option (Text × Text)) :
    Mirrors lax (takeFound name isMacro found) (takeFound name isMacro found) := by
  unfold takeFound
  split
  · exact (mirrors_skipTo _).bind fun _ => mirrors_pure _
  · exact mirrors_skipAll.bind fun _ => mirrors_fail _

section

variable {machine : Machine}

/-- A body is the same on both sides if its end is. -/
theorem mirrorsAt_readBody {name : Text} {isMacro : Bool}
    (h : lax = true → SameBody machine name isMacro) :
    MirrorsAt lax machine (readBody name isMacro) (readBody name isMacro) := by
  intro r hr
  -- The lax side compares names without letter case, which by hypothesis makes no difference here.
  have hfound : TagPattern.takeBody ⟨name, isMacro, machine.parser.settings.strict && !lax⟩
      machine.parser.settings.markers 0 machine.parser.reader.unread =
      TagPattern.takeBody ⟨name, isMacro, machine.parser.settings.strict⟩
        machine.parser.settings.markers 0 machine.parser.reader.unread := by
    cases lax with
    | false => rw [Bool.not_false, Bool.and_true]
    | true => rw [Bool.not_true, Bool.and_false]; exact (h rfl).symm
  rw [readBody_found, readBody_found]
  dsimp only [Machine.twin, Parser.twin]
  rw [hr, hfound]
  exact mirrors_takeFound _ _ _ machine r hr

theorem mirrorsAt_withBody {t : Tag} {isMacro : Bool}
    (h : lax = true → t.closed = false → SameBody machine t.name isMacro) :
    MirrorsAt lax machine (withBody t isMacro) (withBody t isMacro) := by
  unfold withBody
  cases hclosed : t.closed with
  | true => exact mirrors_pure t machine
  | false =>
    exact (mirrorsAt_readBody fun hlax => h hlax hclosed).bind fun _ machine' _ =>
      mirrors_pure _ machine'

end

/-! ## Tags

A tag may capture a body, and a conditional then divides it. Both are known beforehand from the
machine at the tag, by `captured?` and `divided?`, so that a hypothesis about a tag can be stated
without running it. -/

theorem mirrors_appendTemplate (d : Definition) (t : Tag) :
    Mirrors lax (appendTemplate d t) (appendTemplate d t) :=
  mirrors_markers.bind fun _ => mirrors_append _ _

/-- The host makes the same node on both sides, and is told the same. -/
theorem mirrors_makeNode (maker : TagMaker) (t : Tag) :
    Mirrors lax (makeNode maker t) (makeNode maker t) := by
  cases maker with
  | element kind container => exact mirrors_pure _
  | host h =>
    unfold makeNode
    dsimp only
    split
    · exact mirrors_fail _
    · split
      · exact (mirrors_note _).bind fun _ => mirrors_pure _
      · exact mirrors_pure _

/-- The name of a tag that captures the text behind it as its body, and whether it is a macro.
Macros capture a body in any case, regular tags only where a definition stands for them. -/
def captured? (machine : Machine) (raw : Text) : Option (Text × Bool) :=
  match machine.parser.settings.markers.tagText raw with
  | .macroTag s =>
    match Tag.parse machine.parser.settings.markers s with
    | .ok t => if t.closed then none else some (t.name, true)
    | .error _ => none
  | .regular s =>
    match Tag.parse machine.parser.settings.markers s with
    | .ok t =>
      match machine.registry.tagMaker? t.name with
      | some (.template _) => if t.closed then none else some (t.name, false)
      | _ => none
    | .error _ => none
  | _ => none

/-- The tag of a conditional with its body, and the machine behind it. That is the machine that
divides the body. -/
def divided? (machine : Machine) (raw : Text) : Option (Tag × Machine) :=
  match macroAt? machine raw with
  | some (t, behind) =>
    match behind.registry.macroMaker? t.name with
    | some (.native (.builtin b)) => if b.divides then some (t, behind) else none
    | _ => none
  | none => none

/-- Whether letter case makes no difference to what a tag does: neither to where the body ends that
it captures nor, if it is a conditional, to how it divides that. It is decidable, so a template can
be checked for it. -/
def CaseFree (machine : Machine) (raw : Text) : Prop :=
  (∀ capture ∈ captured? machine raw, SameBody machine capture.1 capture.2) ∧
    ∀ conditional ∈ divided? machine raw, SameBranches conditional.2 conditional.1

section

variable {machine : Machine} {raw : Text}

/-- A macro tag with its body. The tag is read from the same text, so it asks for the same body. -/
theorem mirrorsAt_macroWithBody {s : Text} (h : lax = true → CaseFree machine raw)
    (htext : machine.parser.settings.markers.tagText raw = .macroTag s) :
    MirrorsAt lax machine (macroWithBody s) (macroWithBody s) := by
  refine (mirrors_markers machine).bind fun m _ hm => ?_
  obtain ⟨rfl, rfl⟩ := EStateM.Result.ok.inj hm
  refine (mirrors_ofOutcome _ machine).bind fun t machine' houtcome => ?_
  obtain ⟨hparse, rfl⟩ := ofOutcome_eq_ok_iff.mp houtcome
  refine mirrorsAt_withBody fun hlax hopen => ?_
  refine (h hlax).1 (t.name, true) ?_
  simp [captured?, htext, hparse, hopen]

/-- A macro of the host does the same on a twin, if what it has read apart is. This is asked of the
one machine on which the macro starts to read, so the caller can tell which one it is. -/
theorem mirrorsAt_runHostMacro {fragment fragment' : Text → Text → Engine Document} {h : HostMacro}
    {t : Tag}
    (hfragment : ∀ asking, h = ⟨none, .fragment⟩ →
      (parentName >>= fun parent => note (.macroRun t parent)) machine = .ok () asking →
      MirrorsAt lax asking (fragment t.bodyText "fragment".toList)
        (fragment' t.bodyText "fragment".toList)) :
    MirrorsAt lax machine (runHostMacro fragment h t) (runHostMacro fragment' h t) := by
  obtain ⟨refusal, effect⟩ := h
  unfold runHostMacro
  cases refusal with
  | some message => exact mirrors_fail _ machine
  | none =>
    refine (mirrors_parentName machine).bind fun parent m hparent =>
      (mirrors_note _ m).bind fun _ asking hnote => ?_
    -- Only a host that asks for a fragment reads anything by itself.
    cases effect with
    | body => exact mirrors_append _ _ asking
    | fragment =>
      exact (hfragment asking rfl (by rw [bind_of_ok hparent, hnote])).bind
        fun _ asked _ => mirrors_note _ asked
    | failure message => exact mirrors_failIfStrict _ asking
    | append text title => exact mirrors_append _ _ asking

variable {fragment fragment' : Text → Text → Engine Document}
  (h : lax = true → CaseFree machine raw)
  (hfragment : ∀ text asking, asked? machine raw = some (text, asking) →
    MirrorsAt lax asking (fragment text "fragment".toList) (fragment' text "fragment".toList))

include hle h

/-- A regular tag by what is registered for it: a node, a definition with its body, or an unknown
name. -/
theorem mirrorsAt_runTag {s : Text} {t : Tag}
    (htext : machine.parser.settings.markers.tagText raw = .regular s)
    (hparse : Tag.parse machine.parser.settings.markers s = .ok t) :
    MirrorsAt lax machine (runTag fuel t (machine.registry.tagMaker? t.name))
      (runTag fuel' t (machine.registry.tagMaker? t.name)) := by
  cases hmaker : machine.registry.tagMaker? t.name with
  | none => exact ((mirrors_failIfStrict _).bind fun _ => mirrors_openNode hle _) machine
  | some provider =>
    cases provider with
    | native maker => exact (mirrors_makeNode maker t).bind (mirrors_openNode hle) machine
    | template d =>
      refine (mirrorsAt_withBody fun hlax hopen => ?_).bind fun t machine' _ =>
        mirrors_appendTemplate d t machine'
      refine (h hlax).1 (t.name, false) ?_
      simp [captured?, htext, hparse, hmaker, hopen]

theorem mirrorsAt_readRegular {s : Text}
    (htext : machine.parser.settings.markers.tagText raw = .regular s) :
    MirrorsAt lax machine (readRegular fuel s) (readRegular fuel' s) := by
  refine (mirrors_markers machine).bind fun m _ hm => ?_
  obtain ⟨rfl, rfl⟩ := EStateM.Result.ok.inj hm
  refine (mirrors_ofOutcome _ machine).bind fun t machine' houtcome => ?_
  obtain ⟨hparse, rfl⟩ := ofOutcome_eq_ok_iff.mp houtcome
  exact fun r hr => mirrorsAt_runTag hle h htext hparse r hr

include hfragment

/-- A macro tag by what is registered for it. For a built-in macro the hypothesis is about its
branches, and for one of the host about what it reads apart. -/
theorem mirrorsAt_readMacro {s : Text}
    (htext : machine.parser.settings.markers.tagText raw = .macroTag s) :
    MirrorsAt lax machine (readMacro fuel fragment s) (readMacro fuel' fragment' s) := by
  rw [readMacro_eq, readMacro_eq]
  refine (mirrorsAt_macroWithBody h htext).bind fun t behind htag => ?_
  have hat : macroAt? machine raw = some (t, behind) := by rw [macroAt?, htext]; simp [htag]
  -- The macro was found under one name on both sides, so it is the same one.
  have hrun : MirrorsAt lax behind
      (runMacro fuel fragment t (behind.registry.macroMaker? t.name))
      (runMacro fuel' fragment' t (behind.registry.macroMaker? t.name)) := by
    cases hmaker : behind.registry.macroMaker? t.name with
    | none => exact mirrors_failIfStrict _ behind
    | some provider =>
      cases provider with
      | template d => exact mirrors_appendTemplate d t behind
      | native maker =>
        cases maker with
        | builtin b =>
          refine mirrorsAt_runBuiltin hle t b fun hlax hdivides => (h hlax).2 (t, behind) ?_
          simp [divided?, hat, hmaker, hdivides]
        | host host =>
          refine mirrorsAt_runHostMacro fun asking hhost hnote => hfragment _ asking ?_
          subst hhost
          simp [asked?, hat, hmaker, hnote]
  exact fun r hr => hrun r hr

/-- **A tag does the same on a twin**, on a lax one if letter case makes no difference to it. -/
theorem mirrorsAt_readTag :
    MirrorsAt lax machine (readTag fuel fragment raw) (readTag fuel' fragment' raw) := by
  rw [readTag_eq, readTag_eq]
  refine (mirrors_markers machine).bind fun m _ hm => ?_
  obtain ⟨rfl, rfl⟩ := EStateM.Result.ok.inj hm
  cases htext : machine.parser.settings.markers.tagText raw with
  | blank => exact mirrors_fail _ machine
  | closing name => exact mirrors_closeParent name machine
  | macroTag s => exact mirrorsAt_readMacro hle h hfragment htext
  | regular s => exact mirrorsAt_readRegular hle h htext

end

/-! ## Templates

What is read apart is a scan of its own, on a fresh reader and without tags. It is mirrored if the
scan is, and the parse around it goes on with the reader it had. -/

/-- Reading a text apart. Behind it the reader is the one from before on each side, whatever has
become of the fresh ones. -/
theorem mirrorsAt_apart {machine : Machine} {read read' : Engine Unit} {text name : Text}
    (h : MirrorsAt lax (machine.apart text name) read read') :
    MirrorsAt lax machine (apart read text name) (apart read' text name) := by
  intro r hr
  have hread := h.locating (Reader.ofText name text) rfl
  rw [apart_eq, apart_eq]
  cases hx : locating read (machine.apart text name) with
  | ok _ inside =>
    rw [hx] at hread
    obtain ⟨r', hr', hy⟩ := hread
    refine ⟨r, hr, ?_⟩
    have hy' : locating read' ((machine.twin lax r).apart text name) =
      .ok () (inside.twin lax r') := hy
    rw [hy']
    rfl
  | error stop inside =>
    rw [hx] at hread
    cases stop with
    | exhausted => trivial
    | overflow =>
      obtain ⟨r', hr', hy⟩ := hread
      have hy' : locating read' ((machine.twin lax r).apart text name) =
        .error .overflow (inside.twin lax r') := hy
      refine ⟨r, hr, ?_⟩
      rw [hy']
      rfl
    | failure e =>
      intro hlax
      obtain ⟨e', r', he, hr', hy⟩ := hread hlax
      have hy' : locating read' ((machine.twin lax r).apart text name) =
        .error (.failure e') (inside.twin lax r') := hy
      refine ⟨e', r, he, hr, ?_⟩
      rw [hy']
      rfl

include hle

/-- **Scanning goes the same way on a twin**, on a lax one if letter case makes no difference to the
tags that the strict run comes upon. The induction is on the fuel; the tags ahead of a run are those
of its first turn and those of the rest, and what a macro has read apart is a run of its own among
them. -/
theorem mirrorsAt_scan {pending : Text} {machine : Machine}
    (h : lax = true → ∀ tag ∈ tagsAhead fuel pending machine, CaseFree tag.1 tag.2) :
    MirrorsAt lax machine (scan fuel pending) (scan fuel' pending) := by
  -- The fuels go down together, and each tag ahead of a later turn is ahead of this one.
  induction fuel generalizing fuel' pending machine with
  | zero => exact mirrors_exhausted machine
  | succ fuel ih =>
    obtain ⟨more, rfl⟩ : ∃ more, fuel' = more + 1 := ⟨fuel' - 1, by omega⟩
    have hle' := Nat.le_of_succ_le_succ hle
    rw [scan_succ, scan_succ]
    refine (mirrors_turn hle' pending machine).bind fun done machine' hturn => ?_
    cases done with
    | finished => exact mirrors_pure _ machine'
    | text pending' =>
      refine ih hle' fun hlax tag htag => h hlax tag ?_
      rw [tagsAhead_of_text hturn]
      exact htag
    | tag raw =>
      have hhere : lax = true → CaseFree machine' raw :=
        fun hlax => h hlax _ (mem_tagsAhead_self hturn)
      have hfragment : ∀ text asking, asked? machine' raw = some (text, asking) →
          MirrorsAt lax asking (apart (scan fuel []) text "fragment".toList)
            (apart (scan more []) text "fragment".toList) := by
        intro text asking hasked
        refine mirrorsAt_apart (ih hle' fun hlax tag htag => h hlax tag ?_)
        exact mem_tagsAhead_of_asked hturn hasked htag
      refine (mirrorsAt_readTag hle' hhere hfragment).bind fun _ behind hread => ?_
      exact ih hle' fun hlax tag htag => h hlax tag (mem_tagsAhead_of_readTag hturn hread htag)

omit hle in
/-- Notifying the listeners and putting the template in front of the unread text. -/
theorem mirrors_startParse (template name : Text) :
    Mirrors lax (startParse template name) (startParse template name) :=
  (mirrors_notify _ _).bind fun _ => mirrors_append _ _

omit hle in
theorem mirrors_finishParse : Mirrors lax finishParse finishParse := by
  refine mirrors_parser_bind fun p r _ => ?_
  refine Mirrors.bind (mirrors_modifyParser_apart ?_ ?_) fun _ =>
    (mirrors_notify _ _).bind fun _ => mirrors_pure _
  · exact fun _ _ => rfl
  · exact fun _ => rfl

/-- **A parse gives the same document on a twin**, on a lax one if letter case makes no difference
to the tags that the strict parse comes upon. Behind it the two readers are equal, as there is
nothing left to read. -/
theorem mirrorsAt_parse {template name : Text} {machine : Machine}
    (h : lax = true → ∀ tag ∈ tagsOf fuel template name machine, CaseFree tag.1 tag.2) :
    MirrorsAt lax machine (parse fuel template name) (parse fuel' template name) := by
  have hread : MirrorsAt lax machine (readDocument fuel template name)
      (readDocument fuel' template name) := by
    rw [readDocument_eq, readDocument_eq]
    refine (mirrors_startParse _ _ machine).bind fun _ start hstart => ?_
    -- The tags of a parse are those of its scan, from the machine behind the notifications.
    have hscan : MirrorsAt lax start (scan fuel []) (scan fuel' []) := by
      refine mirrorsAt_scan hle fun hlax tag htag => h hlax tag ?_
      rw [tagsOf, hstart]
      exact htag
    exact hscan.locating.bind fun _ machine' _ => mirrors_finishParse machine'
  intro r hr
  have hanswer := hread r hr
  rw [parse_eq, parse_eq]
  cases hx : readDocument fuel template name machine with
  | ok document m =>
    rw [hx] at hanswer
    obtain ⟨r', hr', hy⟩ := hanswer
    rw [hy]
    exact ⟨.empty, rfl, rfl⟩
  | error stop m =>
    rw [hx] at hanswer
    cases stop with
    | exhausted => trivial
    | overflow =>
      obtain ⟨r', hr', hy⟩ := hanswer
      rw [hy]
      exact ⟨.empty, rfl, rfl⟩
    | failure e =>
      intro hlax
      obtain ⟨e', r', he, hr', hy⟩ := hanswer hlax
      rw [hy]
      exact ⟨e', .empty, he, rfl, rfl⟩

end Engine

end MarkupTemplate
