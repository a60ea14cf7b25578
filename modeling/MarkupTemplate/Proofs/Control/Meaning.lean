import MarkupTemplate.Proofs.Control.Carrying

/-!
# Control templates mean what they say

`parse_template` is the main result: the template of a control term is parsed into a document that
has no nodes and whose text is the meaning of the term, in strict and in lenient mode, and the
machine is left as it was.

The document takes all runs of text and puts them one behind the other (`collects_document`). So how
a macro cuts the text makes no difference to it, and what counts of the flow of a term is that all
of it together is the meaning of the term (`reads_write`).

The fuel that is needed is found and not assumed: every statement about reading says what it costs,
and the costs are added up on the way to `parse_of_reads`. Which amount it is in the end is of no
interest, as any larger one will do.
-/

set_option autoImplicit false

namespace MarkupTemplate

open Control

/-- Whether a machine reads templates in the usual way, has no parse under way and no listeners. -/
structure Machine.Idle (machine : Machine) : Prop where
  standard : machine.Standard
  atRest : machine.parser.atRest = machine.parser
  listeners : ∀ phase, machine.parser.listeners phase = []

namespace Engine

/-- Whether reading a text, wherever it stands, puts another one into the document. -/
def Reads (machine : Machine) (s d : Text) : Prop :=
  ∀ p rest, p.reader.unread = s ++ rest → p.Inked →
    ∃ p', Leads machine p p' ∧ p'.reader.unread = rest ∧ p'.Inked ∧ p'.content = p.content ++ d

variable {machine : Machine} {s d : Text}

/-! ## The document

The text of a document is what it had before and all runs since, and that is a sink. -/

/-- The document puts the runs it takes one behind the other. -/
theorem collects_document (hstd : machine.Standard) (text : Text) :
    Collects fun runs => machine.reading machine.parser.reader (text ++ runs.flatten) where
  markers _ := hstd.markers
  registry _ := hstd.registry
  operators _ := hstd.operators
  takes runs run r hblank := by
    have hparents : (machine.reading r (text ++ runs.flatten)).parser.parents = [] := hstd.parents
    have htext : text ++ (runs ++ [run]).flatten = (text ++ runs.flatten) ++ run := by simp
    rw [Machine.reading_withReader, Machine.reading_withReader, addText, bind_of_ok (parser_eq _),
      hparents, htext]
    simp only [hblank]
    rfl

/-- The text at hand at a place is not blank just if it is not at the start of a flow. -/
theorem Place.inked_iff {p : Place} : p.Inked ↔ (⟨[], p.pending.reverse⟩ : Flow).Inked := by
  have hreverse : Text.isBlankText p.pending.reverse = Text.isBlankText p.pending :=
    List.all_reverse
  constructor
  · intro h
    refine ⟨by simp, fun hall => ?_⟩
    rw [h (hreverse ▸ hall)]
    rfl
  · intro h hall
    exact List.reverse_eq_nil_iff.mp (h.current (hreverse ▸ hall))

/-- What changes the flow of text by some more text puts that into the document. -/
theorem Carries.reads {change : Flow → Flow} (hcarries : ∀ text, Carries
      (fun runs => machine.reading machine.parser.reader (text ++ runs.flatten)) s change)
    (hcontent : ∀ f, (change f).content = f.content ++ d) : Reads machine s d := by
  intro p rest hr hink
  obtain ⟨hink', r, hunread, hproceeds⟩ :=
    hcarries p.text ⟨[], p.pending.reverse⟩ p.reader rest (Place.inked_iff.mp hink) hr
  have hmore := hcontent ⟨[], p.pending.reverse⟩
  generalize change ⟨[], p.pending.reverse⟩ = f at hink' hproceeds hmore
  have hlead : Proceeds p.pending (machine.reading p.reader p.text) f.current.reverse
      (machine.reading r (p.text ++ f.runs.flatten)) := by
    simpa using hproceeds
  refine ⟨⟨f.current.reverse, r, p.text ++ f.runs.flatten⟩, hlead, hunread, ?_, ?_⟩
  · refine Place.inked_iff.mpr ⟨by simp, fun hall => ?_⟩
    rw [List.reverse_reverse] at hall ⊢
    exact hink'.current hall
  · simpa [Place.content, Flow.content] using hmore

/-- Text without markup is read as it is, if it is not blank. -/
theorem reads_text (hm : machine.parser.settings.markers = {}) (hblank : Text.isBlankText s = false)
    (htag : '<' ∉ s) (hbrace : '{' ∉ s) : Reads machine s s := by
  intro p rest hr _
  obtain ⟨r, hrest, hproceeds⟩ := exists_proceeds_text (machine.reading p.reader p.text) hm htag
    hbrace p.pending hr
  refine ⟨⟨s.reverse ++ p.pending, r, p.text⟩, hproceeds, hrest, fun hall => ?_,
    by simp [Place.content]⟩
  have hreverse : Text.isBlankText s.reverse = Text.isBlankText s := List.all_reverse
  rw [Text.isBlankText, List.all_append, Bool.and_eq_true] at hall
  -- The text at hand is not blank, as it ends in this one.
  rw [← hreverse, Text.isBlankText, hall.1] at hblank
  exact absurd hblank (by simp)

/-! ## Macros -/

theorem Reads.macroTag {name setting key value body : Text} {b : BuiltinMacro}
    (hread : Reads machine s d) (hstd : machine.Standard) (hn : name ∈ names)
    (h : IsSetting setting key value)
    (hbody : TagPattern.Level ⟨name, true, machine.parser.settings.strict⟩ {} body)
    (hmaker : Registry.standard.macroMaker? name = some (.native (.builtin b)))
    (hrun : ∀ fuel r text,
      Appends (runBuiltin (fuel + 1) b ((macroOf name setting key value).bodied body))
        (machine.reading r text) name s) :
    Reads machine (macroTag name setting body) d := by
  intro p rest hr hink
  obtain ⟨r, hunread, hlead⟩ := leads_macroTag hstd hn h hbody hmaker hrun hr hink
  obtain ⟨p', hlead', hr', hink', hcontent⟩ := hread ⟨[], r, p.content⟩ rest hunread (fun _ => rfl)
  refine ⟨p', hlead.trans hlead', hr', hink', ?_⟩
  rw [hcontent]
  simp [Place.content]

theorem Reads.forEach {name : Text} {values : List Text} {body : Text} (hstd : machine.Standard)
    (hk : isKey name = true) (hv : ∀ value ∈ values, Text.IsWord value)
    (hbody : TagPattern.Level ⟨"each".toList, true, machine.parser.settings.strict⟩ {} body)
    (hread : Reads machine (Repetition.unrolled {}
      ((macroOf "each".toList (valuesSetting name values) name
        (Text.joinWith [';'] values)).bodied body)
      (values.map fun value => [(name, value)])) d) :
    Reads machine (Control.macroTag "each".toList (valuesSetting name values) body) d :=
  hread.macroTag hstd (by decide) (isSetting_values hk hv) hbody (b := .parallelLoop) (by rfl)
    fun _ r text => runParallelLoop_appends (hstd.reading r text).markers hv rfl

/-- **The template of a term is read as the meaning of the term.** -/
theorem reads_write {given : Values} {vars counts : List Text} {t : Term} (hstd : machine.Standard)
    (hfit : given.Fit vars counts) (h : t.Scoped vars) (ha : t.AvoidsCounts counts) :
    Reads machine (t.write given) (t.denote given) :=
  Carries.reads (fun text => carries_write (collects_document hstd text) hfit h ha)
    (t.content_flow given)

/-! ## Whole templates -/

/-- At the end of a template the text at hand goes into the document. -/
theorem scan_end (hstd : machine.Standard) {p : Place} (hr : p.reader.unread = [])
    (hink : p.Inked) : ∃ r, ∀ fuel, scan (fuel + 1) p.pending (machine.reading p.reader p.text) =
      .ok () (machine.reading r p.content) := by
  refine ⟨p.reader.next.2, fun fuel => ?_⟩
  have hend : (machine.reading p.reader p.text).parser.reader.unread = [] := hr
  have hclosed : checkClosed (machine.reading p.reader.next.2 p.content) =
      .ok () (machine.reading p.reader.next.2 p.content) := by
    have hname : parentName (machine.reading p.reader.next.2 p.content) =
        .ok (machine.parser.parents.head?.map fun n => n.tag.name)
          (machine.reading p.reader.next.2 p.content) := rfl
    rw [checkClosed, bind_of_ok hname, hstd.parents]
    rfl
  rw [scan, bind_of_ok (markers_eq _), bind_of_ok (next_end hend)]
  simp only
  rw [Machine.reading_withReader, Machine.reading_reader,
    bind_of_ok (addText_eq hstd.parents p hink)]
  exact hclosed

/-- Where no tag is open and nobody listens, a template that could be scanned is a document, and the
machine is left as it was found at rest. This is where finishing a parse is dealt with: there is
nothing to close, nobody to tell, and the reader is empty. -/
theorem parse_of_scan (hm : machine.Idle) {r : Reader} {title : Text} {fuel : Nat}
    (hscan : scan fuel [] (machine.reading (machine.parser.reader.append s title)
      machine.parser.text) = .ok () (machine.reading r d)) :
    parse fuel s title machine = .ok ⟨[], d⟩ machine := by
  have hroots : machine.parser.roots = [] := (congrArg Parser.roots hm.atRest).symm
  rw [← hroots]
  exact parse_of_scan_atRest hm.atRest hm.listeners hscan

/-- A text that is read to its end is the text that was scanned. -/
theorem exists_scan_of_reads (hm : machine.Idle) (hread : Reads machine s d) {reader : Reader}
    (hr : reader.unread = s) : ∃ cost r, ∀ fuel,
      scan (fuel + cost + 1) [] (machine.reading reader machine.parser.text) =
        .ok () (machine.reading r d) := by
  have htext : machine.parser.text = [] := (congrArg Parser.text hm.atRest).symm
  obtain ⟨p, ⟨cost, hlead⟩, hrest, hink, hcontent⟩ :=
    hread ⟨[], reader, machine.parser.text⟩ [] (by rw [List.append_nil, hr]) (fun _ => rfl)
  obtain ⟨r, hend⟩ := scan_end hm.standard hrest hink
  have hcontent' : p.content = d := by
    rw [hcontent, Place.content, htext]
    rfl
  -- What the places take is used up in between, and the end takes one more.
  exact ⟨cost, r, fun fuel => by rw [hlead fuel, hend fuel, hcontent']⟩

/-- A template that is read to its end is the text of a document. -/
theorem parse_of_reads (hm : machine.Idle) (hread : Reads machine s d) (title : Text) :
    ∃ least, ∀ fuel, least ≤ fuel → parse fuel s title machine = .ok ⟨[], d⟩ machine := by
  obtain ⟨cost, r, hscan⟩ := exists_scan_of_reads hm hread
    (unread_append_of_atRest hm.atRest s title)
  refine ⟨cost + 1, fun fuel hle => ?_⟩
  obtain ⟨more, rfl⟩ : ∃ more, fuel = more + cost + 1 := ⟨fuel - cost - 1, by omega⟩
  exact parse_of_scan hm (hscan more)

/-- **The template of a control term is parsed into the meaning of the term**, with every amount of
fuel from some least one on. The term may be of any depth, and the machine in either mode. -/
theorem parse_template {t : Term} (h : t.Scoped []) (ha : t.AvoidsCounts []) (hm : machine.Idle)
    (title : Text) : ∃ least, ∀ fuel, least ≤ fuel →
      parse fuel t.template title machine = .ok ⟨[], t.meaning⟩ machine :=
  parse_of_reads hm (reads_write hm.standard fit_none h ha) title

/-- The default machine reads templates in the usual way and is at rest. -/
theorem idle_default : ({} : Machine).Idle :=
  ⟨⟨rfl, rfl, rfl, rfl⟩, rfl, fun phase => by cases phase <;> rfl⟩

/-- Macros in others of their own name. -/
def nestedTerm : Term :=
  .forEach "x".toList ["1".toList, "b".toList] <|
    .append (.text "[".toList) <| .append
      (.forEach "y".toList ["c".toList, "d".toList] <|
        .choice true
          (.append (.use "x".toList) (.choice false .empty (.use "y".toList)))
          (.text "no".toList)) <|
      .append (.repeated 2 (.repeated 2 (.conditional true (.use "x".toList)))) <|
        .append (.conditional false (.text "never".toList)) (.text "]".toList)

/-- The template of `nestedTerm`. -/
def nestedTemplate : Text :=
  "<:each x=\"1;b\">[<:each y=\"c;d\"><:if test=true>\x7bx\x7d".toList ++
    "<:if test=false><:if:else/>\x7by\x7d</:if><:if:else/>no</:if></:each>".toList ++
    "<:loop times=2><:loop times=2><:if test=true>\x7bx\x7d</:if></:loop></:loop>".toList ++
    "<:if test=false>never</:if>]</:each>".toList

/-- Loops over values in each other, with choices in them, and counted loops in each other. -/
theorem parse_nestedTemplate : ∃ least, ∀ fuel, least ≤ fuel →
    parse fuel nestedTemplate defaultTitle {} = .ok ⟨[], "[1c1d1111][bcbdbbbb]".toList⟩ {} := by
  have hparse := parse_template (t := nestedTerm) (by decide) (by decide) idle_default defaultTitle
  have htemplate : nestedTerm.template = nestedTemplate := by decide +kernel
  have hmeaning : nestedTerm.meaning = "[1c1d1111][bcbdbbbb]".toList := by decide
  rw [htemplate, hmeaning] at hparse
  exact hparse

/-! ## Variables named like a count

Why `AvoidsCounts` is asked for. A loop replaces its count first, so a variable of that name never
gets its value. -/

/-- The name of the count of a loop over values. -/
def eachCount : Text := countName "each".toList

/-- A loop over a variable that has the name of the loop's own count. -/
def countTerm : Term := .forEach eachCount ["a".toList] (.use eachCount)

theorem unrolled_countTerm (loop : Tag) (hname : loop.name = "each".toList)
    (hbody : loop.bodyText = ({} : Markers).placeholder eachCount)
    (bindings : Repetition.Bindings) :
    Repetition.unrolled {} loop [bindings] = "0".toList := by
  have hreplace : replacement loop bindings 0 eachCount = some "0".toList := by
    refine if_pos ?_
    rw [hname]
    exact Text.eqIgnoringCase_self eachCount
  have hsubst := Markers.substitute_placeholder (m := {}) (replacement loop bindings 0)
    (by decide) (by decide : '{' ∉ eachCount) (by decide) []
  rw [List.append_nil, Markers.substitute_nil, List.append_nil, hreplace] at hsubst
  rw [Repetition.unrolled, List.zipIdx_singleton, List.flatMap_singleton, iteration_eq, hbody]
  exact hsubst

/-- A loop over a variable of the name of its own count does not mean what it says. -/
theorem not_parse_template : countTerm.Scoped [] ∧
    (∃ least, ∀ fuel, least ≤ fuel →
      parse fuel countTerm.template defaultTitle {} = .ok ⟨[], "0".toList⟩ {}) ∧
    ¬ ∃ least, ∀ fuel, least ≤ fuel →
      parse fuel countTerm.template defaultTitle {} = .ok ⟨[], countTerm.meaning⟩ {} := by
  have hread : Reads {} countTerm.template "0".toList := by
    refine Reads.forEach idle_default.standard (by decide) (by decide)
      (TagPattern.level_of_notMem (by decide)) ?_
    rw [List.map_singleton, unrolled_countTerm _ rfl rfl]
    exact reads_text rfl (by decide) (by decide) (by decide)
  obtain ⟨least, hparse⟩ := parse_of_reads idle_default hread defaultTitle
  refine ⟨by decide, ⟨least, hparse⟩, fun ⟨least', hparse'⟩ => ?_⟩
  have hzero := hparse (max least least') (Nat.le_max_left _ _)
  have hvalue := hparse' (max least least') (Nat.le_max_right _ _)
  rw [hzero] at hvalue
  injection hvalue with hdocument
  exact absurd (congrArg Parsed.text hdocument) (by decide)

end Engine

end MarkupTemplate
