import MarkupTemplate.Proofs.Control.Meaning
import MarkupTemplate.Proofs.Forest.Growing
import MarkupTemplate.Proofs.Twin.Leniency

/-!
# Control templates in elements

Between the tags of an element text does not go into the document but to the element. It is given
the runs one after another, and each takes the place of the one before (`collects_element`). So
where the document has all of the text of a control term, the element has its last run alone, with
the blanks around it trimmed (`parse_enclosed`). That is all of the text just if no macro cuts it:
`a` in front of a conditional is lost to the text of the conditional (`not_parse_enclosed`).

Nothing about macros has to be done again for this. An element is another sink for the same flow of
text (`Proofs/Control/Carrying`), and all that is new are the two tags around it.
-/

set_option autoImplicit false

namespace MarkupTemplate

open Control

namespace Engine

/-! ## Elements with a text -/

/-- An element without attributes. -/
def textElement (text : Option Text) : Node :=
  .ofTag "element".toList [] false { kind := "element".toList, text }

/-- A template between the tags of an element. -/
def enclosed (s : Text) : Text :=
  (TagToken.tag "element".toList [] false).text ++ s ++ (TagToken.closing "element".toList).text

/-- The machine in the midst of an element that was given some runs of text: of all of them it shows
the last one. -/
def elementSink (machine : Machine) (runs : List Text) : Machine :=
  { machine with parser := { machine.parser with
      parents := [textElement (runs.getLast?.map Text.trim)] } }

/-- The machine behind an element. -/
def withElement (machine : Machine) (text : Option Text) : Machine :=
  { machine with parser := { machine.parser with parents := [], roots := [textElement text] } }

variable {machine : Machine} {s rest : Text}

/-- The run that an element takes is its text, whatever that was before. -/
theorem collects_element (hstd : machine.Standard) : Collects (elementSink machine) where
  markers _ := hstd.markers
  registry _ := hstd.registry
  operators _ := hstd.operators
  takes runs run r hblank := by
    have hne : Text.trim run ≠ [] := fun hnil => by
      rw [Text.trim_eq_nil_iff.mp hnil] at hblank
      cases hblank
    have hparents : ((elementSink machine runs).withReader r).parser.parents =
        [textElement (runs.getLast?.map Text.trim)] := rfl
    -- The element keeps the last text only, whatever it had before.
    have hgive : ∀ text, giveText (textElement text) [] run
        ((elementSink machine runs).withReader r) = .ok ()
          { (elementSink machine runs).withReader r with
            parser := { ((elementSink machine runs).withReader r).parser with
              parents := [textElement (some (Text.trim run))] } } := by
      intro text
      rw [giveText, if_pos hne]
      rfl
    have hlast : (runs ++ [run]).getLast?.map Text.trim = some (Text.trim run) := by simp
    rw [addText, bind_of_ok (parser_eq _), hparents]
    dsimp only
    rw [hgive, elementSink, elementSink, hlast]
    rfl

/-! ## The tags of an element

Both tags are written without placeholders and read back by the general statement on written
tags. -/

/-- The two tags are written in the usual way. -/
theorem isWritten_element : (TagToken.tag "element".toList [] false).IsWritten ∧
    (TagToken.closing "element".toList).IsWritten := by
  decide +kernel

theorem exists_proceeds_written {t : TagToken} (ht : t.IsWritten) (pending : Text)
    (machine machine' machine'' : Machine) (hm : machine.parser.settings.markers = {})
    (hm' : machine'.parser.settings.markers = {})
    (hr : machine.parser.reader.unread = t.text ++ rest)
    (hadd : ∀ r, addText pending.reverse (machine.withReader r) = .ok () (machine'.withReader r))
    (htag : ∀ fuel fragment r, readTag (fuel + 1) fragment t.raw (machine'.withReader r) =
      .ok () (machine''.withReader r)) :
    ∃ r, r.unread = rest ∧ Proceeds pending machine [] (machine''.withReader r) := by
  have hsplit : t.text ++ rest = '<' :: (t.raw ++ '>' :: rest) := by simp [TagToken.text]
  rw [hsplit] at hr
  obtain ⟨r, hrest, htext⟩ := readTagText_eq
    (machine'.withReader ⟨Reader.advance '<' machine.parser.reader.stack, t.raw ++ '>' :: rest⟩) rfl
    (fun nested => by
      rw [Machine.withReader_settings, hm']
      exact tagParts_raw ht nested rest)
  rw [Machine.withReader_withReader] at htext
  exact ⟨r, hrest, proceeds_tag hm hr (head?_raw_ne ht _) (hadd _) (fun fuel => htext (fuel + 1))
    fun fuel fragment => htag fuel fragment r⟩

/-- The opening tag leaves an open element without a text. -/
theorem readTag_opening (hstd : machine.Standard) (fuel : Nat)
    (fragment : Text → Text → Engine Document) (r : Reader) :
    readTag (fuel + 1) fragment (TagToken.tag "element".toList [] false).raw
        (machine.withReader r) = .ok () ((elementSink machine []).withReader r) := by
  have hname : (machine.withReader r).registry.element? "element".toList =
      some ("element".toList, true) := by
    have hregistry : (machine.withReader r).registry = .standard := hstd.registry
    rw [hregistry]
    decide +kernel
  have hm : (machine.withReader r).parser.settings.markers = {} := hstd.markers
  rw [readTag_tag hm isWritten_element.1 hname, openNode]
  have hshape : Shaping.shape (Shaping.applyTag (fuel + 1)) (textElement none)
      (machine.withReader r) = .ok (textElement none) (machine.withReader r) :=
    Shaping.shape_of_ok rfl
  have hparents : (machine.withReader r).parser.parents = [] := hstd.parents
  refine (bind_of_ok hshape).trans ?_
  show EStateM.Result.ok () { machine.withReader r with parser :=
    { (machine.withReader r).parser with
      parents := textElement none :: (machine.withReader r).parser.parents } } = _
  rw [hparents]
  rfl

/-- Where no tag is open a node becomes a root. -/
theorem attach_root (hnone : machine.parser.parents = []) (n : Node) :
    attach n machine = .ok () { machine with
      parser := { machine.parser with roots := machine.parser.roots ++ [n] } } := by
  rw [attach, bind_of_ok (parser_eq _), hnone]
  rfl

/-- The closing tag makes the open element a root, with the text that it has by then. -/
theorem readTag_closing_element (hm : machine.Idle) (runs : List Text) (fuel : Nat)
    (fragment : Text → Text → Engine Document) (r : Reader) :
    readTag (fuel + 1) fragment (TagToken.closing "element".toList).raw
        ((elementSink machine runs).withReader r) =
      .ok () ((withElement machine (runs.getLast?.map Text.trim)).withReader r) := by
  have hmarkers : ((elementSink machine runs).withReader r).parser.settings.markers = {} :=
    hm.standard.markers
  have hroots : machine.parser.roots = [] := (congrArg Parser.roots hm.atRest).symm
  have hcloses : ∀ strict text,
      closes strict (textElement text).tag.name "element".toList = true := by
    intro strict text
    show closes strict "element".toList "element".toList = true
    cases strict <;> decide +kernel
  have hparents : ((elementSink machine runs).withReader r).parser.parents =
      [textElement (runs.getLast?.map Text.trim)] := rfl
  have hfinish : ∀ text behind, finish (textElement text) behind = .ok () behind := fun _ _ => rfl
  rw [readTag_closing hmarkers isWritten_element.2, closeParent, bind_of_ok (parser_eq _),
    hparents]
  dsimp only
  rw [bind_of_ok (isStrict_eq _), if_pos (hcloses _ _), bind_of_ok (modifyParser_eq _ _),
    bind_of_ok (hfinish _ _), attach_root rfl, withElement]
  show EStateM.Result.ok () { machine with parser := { machine.parser with
    reader := r, parents := [], roots := machine.parser.roots ++ [_] } } = _
  rw [hroots]
  rfl

/-! ## Whole templates

The opening tag, what is between the tags and the closing tag, one after another. -/

/-- What is scanned in an element is scanned up to the end of the element. -/
theorem exists_scan_enclosed {change : Flow → Flow} (hm : machine.Idle)
    (hcarries : Carries (elementSink machine) s change) {reader : Reader}
    (hr : reader.unread = enclosed s) : ∃ r, r.unread = [] ∧
      Proceeds [] (machine.withReader reader) []
        ((withElement machine ((change {}).flush.runs.getLast?.map Text.trim)).withReader r) := by
  have hsplit : enclosed s = (TagToken.tag "element".toList [] false).text ++
      (s ++ ((TagToken.closing "element".toList).text ++ [])) := by
    rw [enclosed, List.append_assoc, List.append_nil]
  rw [hsplit] at hr
  have hsink := collects_element hm.standard
  obtain ⟨r₁, hr₁, hopening⟩ := exists_proceeds_written isWritten_element.1 []
    (machine.withReader reader) machine (elementSink machine []) hm.standard.markers
    hm.standard.markers hr (fun _ => addText_nil _) (readTag_opening hm.standard)
  obtain ⟨hink, r₂, hr₂, hbody⟩ := hcarries {} r₁ _ Flow.inked_empty hr₁
  obtain ⟨r₃, hr₃, hclosing⟩ := exists_proceeds_written isWritten_element.2 _ _ _ _
    (hsink.markers_withReader _ _) (hsink.markers _) hr₂ (hsink.addText_current hink)
    (readTag_closing_element hm (change {}).flush.runs)
  exact ⟨r₃, hr₃, (hopening.trans hbody).trans hclosing⟩

/-- An element has the last run of the text between its tags. -/
theorem parse_enclosed_of_carries {change : Flow → Flow} (hm : machine.Idle)
    (hcarries : Carries (elementSink machine) s change) (title : Text) :
    ∃ least, ∀ fuel, least ≤ fuel → parse fuel (enclosed s) title machine =
      .ok ⟨[textElement ((change {}).flush.runs.getLast?.map Text.trim)], []⟩ machine := by
  have htext : machine.parser.text = [] := (congrArg Parser.text hm.atRest).symm
  obtain ⟨r, hr, cost, hscan⟩ := exists_scan_enclosed hm hcarries
    (unread_append_of_atRest hm.atRest (enclosed s) title)
  generalize (change {}).flush.runs.getLast?.map Text.trim = text at hscan
  have hstd : (withElement machine text).Standard :=
    ⟨hm.standard.markers, hm.standard.registry, hm.standard.operators, rfl⟩
  obtain ⟨r', hend⟩ := scan_end hstd (p := ⟨[], r, machine.parser.text⟩) hr fun _ => rfl
  have hnone : (⟨[], r, machine.parser.text⟩ : Place).content = [] := by
    rw [Place.content, htext]
    rfl
  rw [hnone] at hend
  refine ⟨cost + 1, fun fuel hle => ?_⟩
  obtain ⟨more, rfl⟩ : ∃ more, fuel = more + cost + 1 := ⟨fuel - cost - 1, by omega⟩
  exact parse_of_scan_atRest hm.atRest hm.listeners ((hscan more).trans (hend more))

/-- **An element has the last run of the text of a control term**, and a document has all of it. The
last part says when that is the same: just if the text comes in one run. A macro with an empty text
in front of it and behind it cuts nothing. -/
theorem parse_enclosed {t : Term} (h : t.Scoped []) (ha : t.AvoidsCounts []) (hm : machine.Idle)
    (title : Text) :
    (∃ least, ∀ fuel, least ≤ fuel →
      parse fuel t.template title machine = .ok ⟨[], t.meaning⟩ machine ∧
      parse fuel (enclosed t.template) title machine =
        .ok ⟨[textElement (t.runs.getLast?.map Text.trim)], []⟩ machine) ∧
    t.runs.flatten = t.meaning ∧
    (t.runs.getLast?.map Text.trim =
        (if t.meaning = [] then none else some (Text.trim t.meaning)) ↔ t.runs.length ≤ 1) := by
  have hcarries := carries_write (collects_element hm.standard) fit_none h ha
  obtain ⟨least, hdocument⟩ := parse_of_reads hm (reads_write hm.standard fit_none h ha) title
  obtain ⟨least', helement⟩ := parse_enclosed_of_carries hm hcarries title
  have hruns : ∀ run ∈ t.runs, Text.isBlankText run = false :=
    (hcarries {} ⟨[], t.template ++ []⟩ [] Flow.inked_empty rfl).1.flush.runs
  refine ⟨⟨max least least', fun fuel hle => ⟨hdocument fuel (by omega), helement fuel (by omega)⟩⟩,
    t.flatten_runs, ?_⟩
  rw [← t.flatten_runs]
  exact getLast?_trim_eq_iff hruns

/-- Conditionals that choose one text between them. -/
def choosingTerm : Term :=
  .append (.conditional false (.text "never".toList)) <|
    .choice true (.append (.text " a".toList) (.text " b ".toList)) (.text "no".toList)

/-- A term whose macros leave one run of text, which the element has in full. -/
theorem parse_enclosed_choosingTerm :
    (∃ least, ∀ fuel, least ≤ fuel → parse fuel
      ("<element><:if test=false>never</:if>".toList ++
        "<:if test=true> a b <:if:else/>no</:if></element>".toList) defaultTitle {} =
      .ok ⟨[textElement (some "a b".toList)], []⟩ {}) ∧ choosingTerm.runs.length ≤ 1 := by
  obtain ⟨⟨least, hparse⟩, _, hall⟩ :=
    parse_enclosed (t := choosingTerm) (by decide) (by decide) idle_default defaultTitle
  have htemplate : enclosed choosingTerm.template =
      "<element><:if test=false>never</:if>".toList ++
        "<:if test=true> a b <:if:else/>no</:if></element>".toList := by decide +kernel
  have hlast : choosingTerm.runs.getLast?.map Text.trim = some "a b".toList := by decide +kernel
  rw [htemplate, hlast] at hparse
  exact ⟨⟨least, fun fuel hle => (hparse fuel hle).2⟩, hall.mp (by decide +kernel)⟩

/-- A text in front of a conditional, which is enough to come in as two runs. -/
def cutTerm : Term := .append (.text ['a']) (.conditional true (.text ['b']))

/-- The text in front of the conditional is in the document, but not in the element. -/
theorem not_parse_enclosed :
    cutTerm.Scoped [] ∧ cutTerm.AvoidsCounts [] ∧
    (∃ least, ∀ fuel, least ≤ fuel →
      parse fuel "a<:if test=true>b</:if>".toList defaultTitle {} = .ok ⟨[], "ab".toList⟩ {} ∧
      parse fuel "<element>a<:if test=true>b</:if></element>".toList defaultTitle {} =
        .ok ⟨[textElement (some ['b'])], []⟩ {}) ∧
    ∀ fuel n e text machine,
      parse fuel "<element>a<:if test=true>b</:if></element>".toList defaultTitle {} =
        .ok ⟨[n], text⟩ machine → n.widget = some (.element e) → e.text = some ['b'] := by
  have hscoped : cutTerm.Scoped [] := by decide
  have havoids : cutTerm.AvoidsCounts [] := by decide
  have hstd := idle_default.standard
  have htemplate : cutTerm.template = "a<:if test=true>b</:if>".toList := by decide +kernel
  have henclosed : enclosed (cutTerm.write fun _ => none) =
      "<element>a<:if test=true>b</:if></element>".toList := by decide +kernel
  have hlast : cutTerm.runs.getLast?.map Text.trim = some ['b'] := by decide +kernel
  obtain ⟨least, hdocument⟩ := parse_of_reads idle_default
    (reads_write hstd fit_none hscoped havoids) defaultTitle
  obtain ⟨least', helement⟩ := parse_enclosed_of_carries idle_default
    (carries_write (collects_element hstd) fit_none hscoped havoids) defaultTitle
  rw [show cutTerm.write (fun _ => none) = _ from htemplate] at hdocument
  rw [henclosed, show ((cutTerm.flow fun _ => none) {}).flush.runs.getLast?.map Text.trim = _
    from hlast] at helement
  refine ⟨hscoped, havoids, ⟨max least least', fun fuel hle => ?_⟩,
    fun fuel n e text machine h hwidget => ?_⟩
  · exact ⟨hdocument fuel (by omega), helement fuel (by omega)⟩
  -- The outcome does not depend on the fuel, so it is the one that is known.
  · have hmore := parse_of_le (Nat.le_max_left fuel least') h
    rw [helement _ (Nat.le_max_right fuel least')] at hmore
    have hnodes := congrArg Parsed.nodes (EStateM.Result.ok.inj hmore).1
    have hnode : textElement (some ['b']) = n := (List.cons.inj hnodes).1
    rw [← hnode] at hwidget
    cases hwidget
    rfl

end Engine

end MarkupTemplate
