import MarkupTemplate.Proofs.Body.Reading
import MarkupTemplate.Proofs.Definition.Filling
import MarkupTemplate.Proofs.Engine.Reading
import MarkupTemplate.Proofs.Tag.Parts
import MarkupTemplate.Proofs.Twin.Queueing

/-!
# Calling a definition

A tag or a macro that a template has defined is called by a tag of its name. `Calls` is that a
machine stands in front of such a tag: the tag is read, its placeholders being resolved, its body is
captured if it is not closed, and the name means a definition. Then it is all the same whether the
call is scanned or the text of the definition, with the values of the call filled in, stands in its
place (`scan_call`). Where that text came from is forgotten, so it may be cut short by what follows
the call, or go on with it, and may hold calls itself, also of the same name.

Calling a definition queues its expansion, and queued text is scanned as if it stood there
(`endAlike_scan`). What is left to say here is that the turn of the call does nothing else. What the
expansion does then, random choices and hosts among it, is the same in both runs, as they come to
machines that differ in their readers only.
-/

set_option autoImplicit false

namespace MarkupTemplate

/-! ## Calls

A call is described by what the scanner finds in front of it, so the tag may be written in any way
that is read as one: with placeholders, with attributes in quotes, or by another definition. -/

/-- Whether two machines differ in nothing that a template sees but the reader. -/
def SameButReader (m m' : Machine) : Prop := m'.parser = (m.withReader m'.parser.reader).parser

instance : MovingFrame SameButReader where
  refl _ := rfl
  trans := by
    intro m m' m'' h h'
    unfold SameButReader at *
    rw [h', Machine.withReader, Machine.withReader, h]
    rfl
  notices _ _ := rfl
  registry _ _ := rfl
  reader _ _ := rfl

/-- What the text of a tag is about if it is a macro, or else if it is a regular tag. -/
def TagText.named : Bool → Text → TagText
  | true, raw => .macroTag raw
  | false, raw => .regular raw

/-- Whether a name means a definition, as a macro or as a regular tag. -/
def Registry.Defines (r : Registry) (isMacro : Bool) (name : Text) (d : Definition) : Prop :=
  match isMacro with
  | true => r.macroMaker? name = some (.template d)
  | false => r.tagMaker? name = some (.template d)

/-- Whether a text begins with a tag without placeholders and comments, given the text between its
markers and what follows the tag. -/
structure Markers.WritesTag (m : Markers) (text raw after : Text) : Prop where
  text_eq : text = m.tagOpening :: (raw ++ m.tagClosing :: after)
  plain : ∀ nested, m.tagParts nested none (raw ++ m.tagClosing :: after) =
    raw.map .char ++ [.closing]
  noComment : (raw ++ m.tagClosing :: after).head? ≠ some m.commentOpening

/-- The body of a tag and what is left behind it, given what follows the tag: a tag that closes
itself has none, and any other tag the one that capturing finds. -/
def Tag.HasBody (t : Tag) (p : TagPattern) (m : Markers) (after : Text) (body : Option Text)
    (rest : Text) : Prop :=
  match t.closed with
  | true => body = none ∧ rest = after
  | false => ∃ b, body = some b ∧ p.takeBody m 0 after = some (b, rest)

/-- A tag that was only parsed has no body yet. -/
theorem Tag.body_of_parse {m : Markers} {raw : Text} {t : Tag} (h : Tag.parse m raw = .ok t) :
    t.body = none := by
  unfold Tag.parse at h
  dsimp only at h
  split at h
  · cases h
  · cases hattributes : Attributes.parse (cutName (content m raw).1).1
        (cutName (content m raw).1).2 m.attributeSeparator with
    | error f =>
      rw [hattributes] at h
      cases h
    | ok attributes =>
      rw [hattributes] at h
      obtain rfl := Except.ok.inj h
      rfl

namespace Engine

/-- Whether a machine stands in front of a call of a definition, given the tag with its body and the
machine behind it. -/
def Calls (fuel : Nat) (machine : Machine) (isMacro : Bool) (d : Definition) (t : Tag)
    (behind : Machine) : Prop :=
  ∃ raw s opened inside, turn fuel [] machine = .ok (.tag raw) inside ∧
    inside.parser.settings.markers.tagText raw = .named isMacro s ∧
    Tag.parse inside.parser.settings.markers s = .ok opened ∧
    inside.registry.Defines isMacro opened.name d ∧
    withBody opened isMacro inside = .ok t behind

variable {fuel : Nat} {machine behind : Machine} {isMacro : Bool} {d : Definition} {t : Tag}

/-- Reading a tag without text in front of it does what a moving frame allows for. -/
theorem rel_of_turn_tag {R : Machine → Machine → Prop} [MovingFrame R] {raw : Text}
    {inside : Machine} (h : turn fuel [] machine = .ok (.tag raw) inside) : R machine inside := by
  obtain ⟨m, _, hm, h⟩ := bind_eq_ok_iff.mp h
  obtain ⟨rfl, rfl⟩ := EStateM.Result.ok.inj hm
  obtain ⟨c, opened, hnext, h⟩ := bind_eq_ok_iff.mp h
  refine Frame.trans (within_next.of_ok hnext) ?_
  -- Only the turn of a tag ends with one.
  cases c with
  | none =>
    obtain ⟨_, _, -, h⟩ := bind_eq_ok_iff.mp h
    obtain ⟨_, _, -, h⟩ := bind_eq_ok_iff.mp h
    cases h
  | some c =>
    dsimp only at h
    split at h
    · obtain ⟨_, _, -, h⟩ := bind_eq_ok_iff.mp h
      obtain ⟨_, _, -, h⟩ := bind_eq_ok_iff.mp h
      obtain ⟨_, _, -, h⟩ := bind_eq_ok_iff.mp h
      cases h
    · split at h
      · obtain ⟨_, _, hunread, h⟩ := bind_eq_ok_iff.mp h
        obtain ⟨rfl, rfl⟩ := EStateM.Result.ok.inj hunread
        split at h
        · obtain ⟨_, _, -, h⟩ := bind_eq_ok_iff.mp h
          cases h
        · rw [List.reverse_nil, bind_of_ok (addText_nil opened)] at h
          obtain ⟨text, m', htext, h⟩ := bind_eq_ok_iff.mp h
          obtain ⟨-, rfl⟩ := EStateM.Result.ok.inj h
          exact within_readTagText.of_ok htext
      · cases h

/-- Taking a body moves the reader, and gives the same tag with the body. -/
theorem eq_of_withBody {opened : Tag} {inside : Machine}
    (h : withBody opened isMacro inside = .ok t behind) :
    t.name = opened.name ∧ behind = inside.withReader behind.parser.reader := by
  unfold withBody at h
  split at h
  · obtain ⟨rfl, rfl⟩ := EStateM.Result.ok.inj h
    exact ⟨rfl, rfl⟩
  · obtain ⟨body, m, hbody, h⟩ := bind_eq_ok_iff.mp h
    obtain ⟨rfl, rfl⟩ := EStateM.Result.ok.inj h
    obtain ⟨rest, -, rfl⟩ := readBody_eq_ok_iff.mp hbody
    exact ⟨rfl, rfl⟩

/-- Up to the end of the call nothing has changed in the parser but the reader. -/
theorem Calls.sameButReader (h : Calls fuel machine isMacro d t behind) :
    SameButReader machine behind := by
  obtain ⟨raw, s, opened, inside, hturn, -, -, -, hbody⟩ := h
  exact Frame.trans (rel_of_turn_tag hturn) ((within_withBody _ _).of_ok hbody)

/-- A call appends the expansion of its definition. -/
theorem Calls.scan_eq (h : Calls fuel machine isMacro d t behind) :
    scan (fuel + 1) [] machine = scan fuel [] (behind.withReader (behind.parser.reader.append
      (d.expand behind.parser.settings.markers t.attributes t.body)
      (behind.parser.settings.markers.tagOpening :: d.name))) := by
  obtain ⟨raw, s, opened, inside, hturn, hraw, hparse, hdefines, hbody⟩ := h
  obtain ⟨hname, hbehind⟩ := eq_of_withBody hbody
  have hopened : (ofOutcome (Tag.parse inside.parser.settings.markers s) : Engine Tag) inside =
      .ok opened inside := ofOutcome_eq_ok_iff.mpr ⟨hparse, rfl⟩
  have hread : ∀ fragment, readTag fuel fragment raw inside = appendTemplate d t behind := by
    intro fragment
    rw [readTag_eq, bind_of_ok (markers_eq _), hraw]
    -- A macro has its body taken off before it is looked up, a tag behind that.
    cases isMacro with
    | true =>
      have htag : macroWithBody s inside = .ok t behind := by
        rw [macroWithBody, bind_of_ok (markers_eq _), bind_of_ok hopened]
        exact hbody
      have hmaker : behind.registry.macroMaker? t.name = some (.template d) := by
        rw [hname, hbehind]
        exact hdefines
      have hget : (get : Engine Machine) behind = .ok behind behind := rfl
      show readMacro fuel fragment s inside = _
      rw [readMacro_eq, bind_of_ok htag, bind_of_ok hget, hmaker]
      rfl
    | false =>
      have hmaker : inside.registry.tagMaker? opened.name = some (.template d) := hdefines
      have hget : (get : Engine Machine) inside = .ok inside inside := rfl
      show readRegular fuel s inside = _
      rw [readRegular_eq, bind_of_ok (markers_eq _), bind_of_ok hopened, bind_of_ok hget, hmaker]
      exact bind_of_ok hbody
  have happend : appendTemplate d t behind = .ok () (behind.withReader
      (behind.parser.reader.append (d.expand behind.parser.settings.markers t.attributes t.body)
        (behind.parser.settings.markers.tagOpening :: d.name))) := rfl
  have hgoOn : goOn fuel (.tag raw) = readTag fuel (apart (scan fuel [])) raw >>= fun _ =>
      scan fuel [] := rfl
  rw [scan_succ, bind_of_ok hturn, hgoOn, bind_of_ok ((hread _).trans happend)]

/-- So a call is as good as the expansion. -/
theorem Calls.endAlike (h : Calls fuel machine isMacro d t behind) {r : Reader}
    (hr : r.unread = d.expand behind.parser.settings.markers t.attributes t.body ++
      behind.parser.reader.unread) :
    EndAlike (scan (fuel + 1) [] machine) (scan fuel [] (behind.withReader r)) := by
  rw [h.scan_eq]
  refine endAlike_scan fuel [] ?_
  rw [hr, Machine.withReader_reader, Reader.unread_append]

/-! ## Calls without placeholders

A tag whose text has no placeholders is read without resolving anything, so the machine behind the
call is known: it is the one in front of it with the reader moved. -/

/-- A tag takes its body from the reader, or none if it closes itself. -/
theorem exists_withBody (machine : Machine) {opened : Tag} (hnone : opened.body = none)
    {after rest : Text} {body : Option Text} (hr : machine.parser.reader.unread = after)
    (hbody : opened.HasBody (bodyPattern opened.name isMacro machine)
      machine.parser.settings.markers after body rest) :
    ∃ r, r.unread = rest ∧
      withBody opened isMacro machine = .ok { opened with body } (machine.withReader r) := by
  obtain ⟨name, raw, attributes, closed, parental, body'⟩ := opened
  obtain rfl : body' = none := hnone
  cases closed with
  | true =>
    obtain ⟨rfl, rfl⟩ := hbody
    exact ⟨machine.parser.reader, hr, rfl⟩
  | false =>
    obtain ⟨b, rfl, htake⟩ := hbody
    have hread := readBody_eq name isMacro machine
    rw [hr, htake] at hread
    obtain ⟨taken, rfl⟩ : rest <:+ after := by
      obtain ⟨closing, htext, -⟩ := TagPattern.takeBody_eq_some_iff.mp htake
      exact ⟨b ++ machine.parser.settings.markers.tagOpening :: closing, by simp [htext]⟩
    exact ⟨_, Reader.unread_skip_of_append hr, bind_of_ok hread⟩

/-- A call whose tag has neither placeholders nor comments only moves the reader. -/
theorem exists_calls (machine : Machine)
    (hargument : machine.parser.settings.markers.tagOpening ≠
      machine.parser.settings.markers.argumentOpening)
    {raw s after rest : Text} {opened : Tag} {body : Option Text}
    (hwrites : machine.parser.settings.markers.WritesTag machine.parser.reader.unread raw after)
    (hraw : machine.parser.settings.markers.tagText raw = .named isMacro s)
    (hparse : Tag.parse machine.parser.settings.markers s = .ok opened)
    (hdefines : machine.registry.Defines isMacro opened.name d)
    (hbody : opened.HasBody (bodyPattern opened.name isMacro machine)
      machine.parser.settings.markers after body rest) (fuel : Nat) :
    ∃ r, r.unread = rest ∧
      Calls fuel machine isMacro d { opened with body } (machine.withReader r) := by
  obtain ⟨r, hr, hturn⟩ := exists_turn_of_chars hargument hwrites.text_eq hwrites.noComment
    hwrites.plain
  obtain ⟨r', hr', hwith⟩ := exists_withBody (machine.withReader r)
    (Tag.body_of_parse hparse) hr hbody
  exact ⟨r', hr', raw, s, opened, machine.withReader r, hturn fuel, hraw, hparse, hdefines, hwith⟩

/-- **A call of a definition is as good as its text with the values of the call filled in.** The
first part is about the filled in text: there is exactly one. The second is about the tag as it is
read; what its placeholders stand for is in its attributes, and the machine behind it shows what
resolving them has done. The third is about a tag as it is written. The turn that the call takes is
the one unit of fuel more.

In the last two parts both runs go on with the same machine but for the reader, so with the same
draws, whatever those are: a random choice in the text, or in what follows it, falls out the same
way in both. -/
theorem scan_call (fuel : Nat) (machine : Machine) (isMacro : Bool) (d : Definition)
    (hdistinct : d.Distinct) :
    (∀ attributes body, ∃ filled, ∀ s, machine.parser.settings.markers.Fills
      (d.Gives attributes body) d.template s ↔ s = filled) ∧
    (∀ t behind, Calls fuel machine isMacro d t behind →
      SameButReader machine behind ∧
      ∀ filled r, machine.parser.settings.markers.Fills (d.Gives t.attributes t.body) d.template
          filled →
        r.unread = filled ++ behind.parser.reader.unread →
        EndAlike (scan (fuel + 1) [] machine) (scan fuel [] (behind.withReader r))) ∧
    (machine.parser.settings.markers.tagOpening ≠
        machine.parser.settings.markers.argumentOpening →
      ∀ r raw s after opened body rest,
        machine.parser.settings.markers.WritesTag r.unread raw after →
        machine.parser.settings.markers.tagText raw = .named isMacro s →
        Tag.parse machine.parser.settings.markers s = .ok opened →
        machine.registry.Defines isMacro opened.name d →
        opened.HasBody (bodyPattern opened.name isMacro machine) machine.parser.settings.markers
          after body rest →
        ∀ filled r', machine.parser.settings.markers.Fills (d.Gives opened.attributes body)
            d.template filled →
          r'.unread = filled ++ rest →
          EndAlike (scan (fuel + 1) [] (machine.withReader r))
            (scan fuel [] (machine.withReader r'))) := by
  refine ⟨fun attributes body => ⟨_, d.fills_iff hdistinct _ attributes body⟩, ?_, ?_⟩
  · intro t behind hcalls
    have hsame := hcalls.sameButReader
    refine ⟨hsame, fun filled r hfilled hr => hcalls.endAlike ?_⟩
    have hmarkers : behind.parser.settings.markers = machine.parser.settings.markers := by
      rw [hsame]
      rfl
    rw [hmarkers, ← (d.fills_iff hdistinct _ _ _ filled).mp hfilled]
    exact hr
  · intro hargument r raw s after opened body rest hwrites hraw hparse hdefines hbody filled r'
      hfilled hr'
    -- The call that is written there is one that is read.
    obtain ⟨behind, hbehind, hcalls⟩ := exists_calls (machine.withReader r) hargument
      hwrites hraw hparse hdefines hbody fuel
    refine hcalls.endAlike ?_
    rw [hr', (d.fills_iff hdistinct _ _ _ filled).mp hfilled, Machine.withReader_withReader,
      Machine.withReader_reader, hbehind]
    rfl

/-- A macro that frames its body. -/
def frameDefinition : Definition :=
  ⟨"frame".toList, ["side".toList, "text".toList], "\x7bSIDE\x7d\x7btext\x7d\x7bside\x7d".toList⟩

/-- A machine in which a macro is defined. -/
def definingMachine (d : Definition) : Machine :=
  { registry := Registry.standard.registerMacro d.name (.template d) }

/-- The default markers read a macro tag of plain characters as it is. -/
theorem writesTag_default (raw : Text) {after : Text} (hraw : raw.all ({} : Markers).isPlain = true)
    (hhead : raw.head? = some ':') :
    ({} : Markers).WritesTag ('<' :: (raw ++ '>' :: after)) raw after where
  text_eq := rfl
  plain nested := by
    rw [Markers.tagParts_append _ hraw]
    simp [Markers.tagParts, isQuote]
  noComment := by
    cases raw with
    | nil => cases hhead
    | cons c raw =>
      obtain rfl := Option.some.inj hhead
      simp

/-- A body that looks like a parameter of the macro it is given to. -/
theorem scan_call_frame : frameDefinition.Distinct ∧
    EndAlike
      (scan (59 + 1) [] ((definingMachine frameDefinition).withReader
        (Reader.ofText [] "<:Frame +>\x7bside\x7d</:Frame>!".toList)))
      (scan 59 [] ((definingMachine frameDefinition).withReader
        (Reader.ofText [] "+\x7bside\x7d+!".toList))) := by
  have hdistinct : frameDefinition.Distinct := by
    unfold Definition.Distinct
    decide
  have hwrites : ({} : Markers).WritesTag "<:Frame +>\x7bside\x7d</:Frame>!".toList
      ":Frame +".toList "\x7bside\x7d</:Frame>!".toList :=
    writesTag_default ":Frame +".toList (by decide) rfl
  -- All placeholders are replaced at once, so the one in the body is not looked at again.
  have hfills : ({} : Markers).Fills
      (frameDefinition.Gives (.positional ["+".toList]) (some "\x7bside\x7d".toList))
      frameDefinition.template "+\x7bside\x7d+".toList := by
    refine (frameDefinition.fills_iff hdistinct _ _ _ _).mpr ?_
    simp [Definition.expand, frameDefinition, Definition.valuesFrom, Attributes.getOr?,
      Markers.substitute, Markers.substituteM, Markers.candidate?, Text.splitFirst?,
      Attributes.find?, Text.eqIgnoringCase]
  let opened : Tag :=
    ⟨"Frame".toList, ":Frame +".toList, .positional ["+".toList], false, true, none⟩
  have hscan := (scan_call 59 (definingMachine frameDefinition) true frameDefinition hdistinct).2.2
    (by decide) (Reader.ofText [] "<:Frame +>\x7bside\x7d</:Frame>!".toList) ":Frame +".toList
    ":Frame +".toList "\x7bside\x7d</:Frame>!".toList opened (some "\x7bside\x7d".toList)
    "!".toList hwrites rfl rfl rfl ⟨_, rfl, rfl⟩ _
    (Reader.ofText [] "+\x7bside\x7d+!".toList) hfills rfl
  exact ⟨hdistinct, hscan⟩

/-- The text of the document that a run has come to. -/
def endText : EStateM.Result Stop Machine Unit → Option Text
  | .ok _ machine => some machine.parser.text
  | .error _ _ => none

/-- Runs that end alike come to the same text. -/
theorem EndAlike.endText_eq {outcome outcome' : EStateM.Result Stop Machine Unit}
    (h : EndAlike outcome outcome') : endText outcome = endText outcome' := by
  cases h with
  | ok h =>
    obtain ⟨r, -, rfl⟩ := h
    rfl
  | failure => rfl
  | exhausted => rfl
  | overflow => rfl

/-- A macro whose parameter has an argument marker in its name. -/
def markedDefinition : Definition :=
  ⟨"m".toList, ["a\x7db".toList], "\x7ba\x7db\x7d".toList⟩

/-- A parameter with a marker in its name is not replaced: what seems to be its placeholder is a
shorter one to the scanner too. So names with markers have to be left out of `Markers.Fills`. -/
theorem not_endAlike_marked : markedDefinition.Distinct ∧
    markedDefinition.template = ({} : Markers).placeholder "a\x7db".toList ∧
    markedDefinition.Gives (.positional ["X".toList]) none "a\x7db".toList "X".toList ∧
    (∃ r, r.unread = [] ∧
      Calls 59 ((definingMachine markedDefinition).withReader (Reader.ofText [] "<:m X/>".toList))
        true markedDefinition
        ⟨"m".toList, ":m X/".toList, .positional ["X".toList], true, false, none⟩
        ((definingMachine markedDefinition).withReader r)) ∧
    ¬ EndAlike
      (scan (59 + 1) [] ((definingMachine markedDefinition).withReader
        (Reader.ofText [] "<:m X/>".toList)))
      (scan 59 [] ((definingMachine markedDefinition).withReader
        (Reader.ofText [] "X".toList))) := by
  have hwrites : ({} : Markers).WritesTag "<:m X/>".toList ":m X/".toList [] :=
    writesTag_default ":m X/".toList (by decide) rfl
  have hdistinct : markedDefinition.Distinct := by
    unfold Definition.Distinct
    decide
  let called : Tag := ⟨"m".toList, ":m X/".toList, .positional ["X".toList], true, false, none⟩
  have hraw : ({} : Markers).tagText ":m X/".toList = .named true ":m X/".toList := rfl
  have hparse : Tag.parse {} ":m X/".toList = .ok called := rfl
  have hdefines : (definingMachine markedDefinition).registry.Defines true called.name
      markedDefinition := rfl
  have hbody : called.HasBody (bodyPattern called.name true (definingMachine markedDefinition)) {}
      [] none [] := ⟨rfl, rfl⟩
  have hcalls := exists_calls ((definingMachine markedDefinition).withReader
    (Reader.ofText [] "<:m X/>".toList)) (by decide) hwrites hraw hparse hdefines hbody 59
  refine ⟨hdistinct, rfl, ⟨0, _, rfl, by decide, rfl⟩, hcalls, fun halike => ?_⟩
  obtain ⟨r, hr, hcalls⟩ := hcalls
  have hexpand : markedDefinition.expand {} (.positional ["X".toList]) none =
      "\x7ba\x7db\x7d".toList := by
    simp [Definition.expand, markedDefinition, Definition.valuesFrom, Attributes.getOr?,
      Markers.substitute, Markers.substituteM, Markers.candidate?, Text.splitFirst?,
      Attributes.find?, Text.eqIgnoringCase]
  have hunread : (Reader.ofText [] "\x7ba\x7db\x7d".toList).unread =
      markedDefinition.expand {} (.positional ["X".toList]) none ++ r.unread := by
    rw [hexpand, hr]
    rfl
  have htexts : endText (scan 59 [] ((definingMachine markedDefinition).withReader
      (Reader.ofText [] "X".toList))) =
      endText (scan 59 [] ((definingMachine markedDefinition).withReader
        (Reader.ofText [] "\x7ba\x7db\x7d".toList))) :=
    halike.endText_eq.symm.trans (hcalls.endAlike hunread).endText_eq
  exact absurd htexts (by decide +kernel)

end Engine

end MarkupTemplate
