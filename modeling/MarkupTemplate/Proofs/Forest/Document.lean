import MarkupTemplate.Proofs.Forest.Growing

/-!
# Documents of elements

A document of elements is parsed exactly if its tags are those of a forest, and then into that
forest. `parse_document` says so without the stack that the scanner keeps, and says where and how
the parse fails otherwise.

The scanner has been followed tag by tag before (`Proofs/Forest/Growing`), and what it does was
found to be growing a forest, which has a characterisation of its own (`Proofs/Forest/Nesting`).
Here the two are put together, and the beginning and the end of a parse are added.

Elements can refuse something: leaves refuse children, and an attribute of the host that reads its
value refuses other values (`not_parse_document`).
-/

set_option autoImplicit false

namespace MarkupTemplate

namespace Engine

variable {machine : Machine}

/-- Whether a parse gives a forest and no text, and does nothing else than to note things. -/
def ParsesTo (machine : Machine) (fuel : Nat) (template title : Text) (forest : List Outline) :
    Prop :=
  ∃ (document : Document) (notices : List Notice),
    parse fuel template title machine = .ok document { machine with notices } ∧
      Node.outlines document.nodes = forest ∧ document.text = []

/-- Whether a parse fails with a fault, and leaves nothing but what it noted. -/
def FailsWith (machine : Machine) (fuel : Nat) (template title : Text) (f : Fault) : Prop :=
  ∃ (e : Error) (notices : List Notice),
    parse fuel template title machine = .error (.failure e) { machine with notices } ∧ e.fault = f

section

variable {fuel : Nat} {template title : Text} {forest forest' : List Outline} {f f' : Fault}

theorem ParsesTo.eq (h : ParsesTo machine fuel template title forest)
    (h' : ParsesTo machine fuel template title forest') : forest = forest' := by
  obtain ⟨document, notices, hrun, hforest, _⟩ := h
  obtain ⟨document', notices', hrun', hforest', _⟩ := h'
  rw [hrun] at hrun'
  rw [← hforest, ← hforest', (EStateM.Result.ok.inj hrun').1]

theorem FailsWith.eq (h : FailsWith machine fuel template title f)
    (h' : FailsWith machine fuel template title f') : f = f' := by
  obtain ⟨e, notices, hrun, hfault⟩ := h
  obtain ⟨e', notices', hrun', hfault'⟩ := h'
  rw [hrun] at hrun'
  rw [← hfault, ← hfault', Stop.failure.inj (EStateM.Result.error.inj hrun').1]

/-- A parse that gives a forest does not fail. -/
theorem ParsesTo.not_failsWith (h : ParsesTo machine fuel template title forest) :
    ¬FailsWith machine fuel template title f := by
  rintro ⟨e, notices', hrun', _⟩
  obtain ⟨document, notices, hrun, _⟩ := h
  rw [hrun] at hrun'
  cases hrun'

end

/-- Whether a parse has the outcome that is expected. -/
def ParsesAs (machine : Machine) (fuel : Nat) (template title : Text) :
    Except Fault (List Outline) → Prop
  | .ok forest => ParsesTo machine fuel template title forest
  | .error f => FailsWith machine fuel template title f

/-- The outcome of a parse is that of its scan. -/
theorem parsesAs_of_ends (hmachine : machine.ForElements) {fuel : Nat} {template title : Text}
    {expected : Except Fault (List Outline)}
    (h : Ends machine expected
      (scan fuel [] (machine.withReader (machine.parser.reader.append template title)))) :
    ParsesAs machine fuel template title expected := by
  generalize hresult :
    scan fuel [] (machine.withReader (machine.parser.reader.append template title)) = result at h
  -- Behind the parse the parser has nothing of the document left.
  have hrest : ∀ r' parents roots notices,
      ({ machine.growing r' parents roots notices with
        parser := (machine.growing r' parents roots notices).parser.atRest } : Machine) =
      { machine with notices } := by
    intro r' parents roots notices
    show ({ machine with notices, parser := machine.parser.atRest } : Machine) = _
    rw [hmachine.atRest]
  cases h with
  | @ok r' roots notices =>
    have htext : machine.parser.text = [] := by rw [← hmachine.atRest]; rfl
    refine ⟨⟨roots, machine.parser.text⟩, notices, ?_, rfl, htext⟩
    rw [parse_of_scan_ok (hmachine.listeners .before) hresult (hmachine.listeners .after), hrest]
    rfl
  | @error r' parents roots notices e f he =>
    refine ⟨e.locate r', notices, ?_, (Error.fault_locate e r').trans he⟩
    rw [parse_of_scan_error (hmachine.listeners .before) hresult, hrest]
    rfl

/-- What is unread at the start of a parse is the template. -/
theorem unread_of_atRest (hmachine : machine.ForElements) (template title : Text) :
    (machine.parser.reader.append template title).unread = template :=
  unread_append_of_atRest hmachine.atRest template title

/-- The outcome of a parse is that of growing a forest. -/
theorem exists_parse (hmachine : machine.ForElements) {tokens : List TagToken}
    (htokens : ∀ t ∈ tokens, t.IsElement machine.registry) : ∃ enough, ∀ fuel, enough ≤ fuel →
      ∀ title, match Standing.grow machine.registry.isLeaf tokens with
        | .ok forest => ParsesTo machine fuel (tokens.flatMap TagToken.text) title forest
        | .error f => FailsWith machine fuel (tokens.flatMap TagToken.text) title f := by
  obtain ⟨enough, hscan⟩ := exists_scan hmachine htokens
  refine ⟨enough, fun fuel hfuel title => ?_⟩
  have hends := hscan fuel hfuel _ [] [] machine.notices {}
    (unread_of_atRest hmachine _ title) ⟨rfl, rfl, by simp⟩
  rw [Machine.growing_of_atRest _ hmachine.atRest] at hends
  exact parsesAs_of_ends hmachine hends

/-- **A document of elements is parsed exactly if its tags are those of a forest**, and then into
that forest. Otherwise the parse fails where a forest does not go on with the tags. -/
theorem parse_document (hmachine : machine.ForElements) {tokens : List TagToken}
    (htokens : ∀ t ∈ tokens, t.IsElement machine.registry) : ∃ enough, ∀ fuel, enough ≤ fuel →
      ∀ title,
        (∀ forest, ParsesTo machine fuel (tokens.flatMap TagToken.text) title forest ↔
          Outline.SoundAll machine.registry.isLeaf forest ∧ Outline.tokensAll forest = tokens) ∧
        (∀ f, FailsWith machine fuel (tokens.flatMap TagToken.text) title f ↔
          ∃ s rest, s.Sound machine.registry.isLeaf ∧ tokens = s.tokens ++ rest ∧
            Standing.Offends machine.registry.isLeaf s rest f) ∧
        ((∃ forest, ParsesTo machine fuel (tokens.flatMap TagToken.text) title forest) ∨
          ∃ f, FailsWith machine fuel (tokens.flatMap TagToken.text) title f) := by
  obtain ⟨enough, hparse⟩ := exists_parse hmachine htokens
  refine ⟨enough, fun fuel hfuel title => ?_⟩
  have hgrow := hparse fuel hfuel title
  simp only [← Standing.grow_eq_ok_iff, ← Standing.grow_eq_error_iff]
  -- What the tokens grow into is known, and a parse has one outcome.
  cases hforest : Standing.grow machine.registry.isLeaf tokens with
  | ok forest =>
    rw [hforest] at hgrow
    refine ⟨fun forest' => ⟨fun h => ?_, fun h => ?_⟩, fun f => ⟨fun h => ?_, fun h => ?_⟩,
      Or.inl ⟨forest, hgrow⟩⟩
    · rw [hgrow.eq h]
    · rw [← Except.ok.inj h]
      exact hgrow
    · exact absurd h hgrow.not_failsWith
    · cases h
  | error f =>
    rw [hforest] at hgrow
    refine ⟨fun forest => ⟨fun h => ?_, fun h => ?_⟩, fun f' => ⟨fun h => ?_, fun h => ?_⟩,
      Or.inr ⟨f, hgrow⟩⟩
    · exact absurd hgrow h.not_failsWith
    · cases h
    · rw [hgrow.eq h]
    · rw [← Except.error.inj h]
      exact hgrow

/-- A parser whose templates can have labels, which have no children. -/
def labelMachine : Machine :=
  { registry := Registry.standard.registerTag "label".toList (.native (.element none false)) }

theorem forElements_labelMachine : labelMachine.ForElements :=
  ⟨rfl, rfl, rfl, fun phase => by cases phase <;> rfl⟩

/-- An element with a label, both with markers in their attributes. -/
def labelled : Outline :=
  .mk "element".toList [("at".toList, "1 > 0/".toList), ("id".toList, "a=b".toList)] false
    [.mk "label".toList [("text".toList, "</element>".toList)] true []]

/-- The document is the one element, markers in its attributes and all. -/
theorem parse_document_labelled : ∃ enough, ∀ fuel, enough ≤ fuel →
    ParsesTo labelMachine fuel
      "<element at=\"1 > 0/\" id=\"a=b\"><label text=\"</element>\"/></element>".toList
      defaultTitle [labelled] := by
  have hwritten : ∀ t ∈ labelled.tokens, t.IsWritten := by decide +kernel
  have hknown : ∀ t ∈ labelled.tokens, t.isKnown labelMachine.registry = true := by decide +kernel
  have hleaf : labelMachine.registry.isLeaf "element".toList = false := by decide +kernel
  -- The quoted markers are parts of values, so the tokens are those of one element with one child.
  have hsound : Outline.SoundAll labelMachine.registry.isLeaf [labelled] := by
    refine ⟨⟨fun hno => ?_, ⟨fun _ => rfl, trivial⟩, trivial⟩, trivial⟩
    rw [hleaf] at hno
    simp at hno
  have hattributes : labelMachine.registry.attributes = Registry.standard.attributes := rfl
  have htext : labelled.tokens.flatMap TagToken.text =
      "<element at=\"1 > 0/\" id=\"a=b\"><label text=\"</element>\"/></element>".toList := by
    decide +kernel
  obtain ⟨enough, hparse⟩ := parse_document forElements_labelMachine fun t ht =>
    TagToken.isElement_of_isKnown hattributes (hwritten t ht) (hknown t ht)
  rw [htext] at hparse
  refine ⟨enough, fun fuel hfuel => ((hparse fuel hfuel defaultTitle).1 [labelled]).mpr ⟨?_, ?_⟩⟩
  · exact hsound
  · exact List.append_nil _

/-! ## Elements that refuse something -/

/-- A label in a label, which no label takes. -/
def labelInLabel : Outline :=
  .mk "label".toList [] false [.mk "label".toList [] true []]

/-- A parser of a host that reads the sizes of elements as numbers. -/
def sizeMachine : Machine :=
  { registry := Registry.standard.registerAttribute "element".toList "size".toList
      (.native (.host { kind := "element".toList, name := "size".toList, form := some .int })) }

/-- An element with a size that is no number. -/
def sized : Outline := .mk "element".toList [("size".toList, "x".toList)] true []

/-- The size of an element is attended to by the host. -/
theorem attributeMaker?_size :
    sizeMachine.registry.attributeMaker? (some "element".toList) "size".toList =
      some (.native (.host
        { kind := "element".toList, name := "size".toList, form := some .int })) := by
  -- The lineage is found by a recursion that does not compute.
  have hwalk : walkKinds {} [] ["element".toList] = ["element".toList] := by
    simp [walkKinds, Dictionary.get?, Dictionary.lookup]
  have hlower : Text.lower "element".toList = "element".toList := by decide +kernel
  have hlineage : sizeMachine.registry.lineage "element".toList =
      ["element".toList, universalKind] := by
    show lineage {} (Text.lower "element".toList) = _
    rw [hlower, lineage, hwalk]
    rfl
  show (sizeMachine.registry.lineage "element".toList).findSome? _ = _
  rw [hlineage]
  rfl

theorem exists_shape_sized (r : Reader) : ∃ notices,
    Shaping.shape (Shaping.applyTag 9) (.ofTag "element".toList [("size".toList, "x".toList)] true
      { kind := "element".toList }) (sizeMachine.withReader r) =
      .error (.failure { fault := .invalidNumber "x".toList })
        { sizeMachine.withReader r with notices } := by
  let n := Node.ofTag "element".toList [("size".toList, "x".toList)] true
    { kind := "element".toList }
  let noted : List Notice :=
    [.attribute "size".toList "element".toList "element".toList "x".toList]
  -- The attribute is handed to the host, which refuses its value.
  have happly : Shaping.apply 9 "size".toList "x".toList (n, sizeMachine.withReader r) =
      .error (.failure { fault := .invalidNumber "x".toList })
        (n, { sizeMachine.withReader r with notices := noted }) := by
    have hmaker : (sizeMachine.withReader r).registry.attributeMaker? (n.widget.map Widget.kind)
        "size".toList = _ := attributeMaker?_size
    rw [Shaping.apply_eq, hmaker]
    rfl
  have htag : Shaping.applyTag 9 (n, sizeMachine.withReader r) =
      .error (.failure { fault := .invalidNumber "x".toList })
        (n, { sizeMachine.withReader r with notices := noted }) := by
    show EStateM.bind (Shaping.apply 9 "size".toList "x".toList) (fun _ => pure ())
      (n, sizeMachine.withReader r) = _
    rw [EStateM.bind, happly]
  exact ⟨noted, Shaping.shape_of_error htag⟩

/-- So the whole parse fails, although its tags are those of a forest. -/
theorem failsWith_sized (title : Text) : FailsWith sizeMachine 10
    (sized.tokens.flatMap TagToken.text) title (.invalidNumber "x".toList) := by
  let r := sizeMachine.parser.reader.append (sized.tokens.flatMap TagToken.text) title
  have hwritten : (TagToken.tag "element".toList [("size".toList, "x".toList)] true).IsWritten := by
    decide +kernel
  have hname : sizeMachine.registry.element? "element".toList = some ("element".toList, true) := by
    decide +kernel
  have hunread : (sizeMachine.withReader r).parser.reader.unread =
      (TagToken.tag "element".toList [("size".toList, "x".toList)] true).text ++ [] :=
    Reader.unread_append ..
  obtain ⟨r', _, hturn⟩ := exists_turn rfl hwritten hunread
  obtain ⟨notices, hshape⟩ := exists_shape_sized r'
  have hmarkers : (sizeMachine.withReader r').parser.settings.markers = {} := rfl
  have hread := readTag_tag hmarkers hwritten hname 9 (apart (scan 9 []))
  -- The first turn reads the tag, and the node it opens is not shaped.
  have hscan : scan (9 + 1) [] (sizeMachine.withReader r) =
      .error (.failure { fault := .invalidNumber "x".toList })
        { sizeMachine.withReader r' with notices } := by
    rw [scan_succ, bind_of_ok (hturn 9), goOn]
    refine bind_of_error (hread.trans ?_)
    rw [openNode]
    exact bind_of_error hshape
  refine ⟨_, notices, parse_of_scan_error rfl hscan, Error.fault_locate _ _⟩

/-- The tags of a forest are not enough: a label refuses its child, and the host a value. -/
theorem not_parse_document :
    ((∀ t ∈ labelInLabel.tokens, t.IsWritten ∧ t.isKnown labelMachine.registry = true) ∧
      labelInLabel.tokens.flatMap TagToken.text = "<label><label/></label>".toList ∧
      ∃ enough, ∀ fuel, enough ≤ fuel → ∀ title, FailsWith labelMachine fuel
        "<label><label/></label>".toList title (.notAParent "label".toList)) ∧
    (∀ t ∈ sized.tokens, t.IsWritten ∧ t.isKnown sizeMachine.registry = true) ∧
      sized.tokens.flatMap TagToken.text = "<element size=\"x\"/>".toList ∧
      ∀ title, FailsWith sizeMachine 10 "<element size=\"x\"/>".toList title
        (.invalidNumber "x".toList) := by
  have hlabels : ∀ t ∈ labelInLabel.tokens,
      t.IsWritten ∧ t.isKnown labelMachine.registry = true := by decide +kernel
  have htext : labelInLabel.tokens.flatMap TagToken.text = "<label><label/></label>".toList := by
    decide +kernel
  have hsize : sized.tokens.flatMap TagToken.text = "<element size=\"x\"/>".toList := by
    decide +kernel
  refine ⟨⟨hlabels, htext, ?_⟩, by decide +kernel, hsize, ?_⟩
  · have hattributes : labelMachine.registry.attributes = Registry.standard.attributes := rfl
    have hleaf : labelMachine.registry.isLeaf "label".toList = true := by decide +kernel
    have hsound : Standing.Sound labelMachine.registry.isLeaf
        ⟨[.mk "label".toList [] false []], []⟩ :=
      ⟨by simp [Standing.SoundOpen, Outline.SoundAll], trivial⟩
    -- The inner label closes while the outer one, which is a leaf, is open.
    have hgrow : Standing.grow labelMachine.registry.isLeaf labelInLabel.tokens =
        .error (.notAParent "label".toList) :=
      Standing.grow_eq_error_iff.mpr ⟨_, _, hsound, rfl, .closedInLeaf hleaf⟩
    obtain ⟨enough, hparse⟩ := exists_parse forElements_labelMachine fun t ht =>
      TagToken.isElement_of_isKnown hattributes (hlabels t ht).1 (hlabels t ht).2
    rw [hgrow, htext] at hparse
    exact ⟨enough, hparse⟩
  · intro title
    rw [← hsize]
    exact failsWith_sized title

end Engine

end MarkupTemplate
