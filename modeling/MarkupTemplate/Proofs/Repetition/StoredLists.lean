import MarkupTemplate.Builtin.Argument
import MarkupTemplate.Proofs.Control.Running
import MarkupTemplate.Proofs.Resolution.Decisions

/-!
# Lists that are stored as text

The text of a list has a semicolon between the items, and arrays are cut at the separator that the
markers name. So a list that an action returned, and that was stored in an argument, is the same
array again if the separator is the semicolon (`array_display`). With any other separator nothing
cuts the text, and it is a single element (`length_of_array_display`); only a list of one item, or
of none, is still what it was.

A loop over an action never sees the text, so it goes over the items whatever the separator is
(`loops_storedList`).

Items that have a meaning of their own in an array, such as ranges and calls, are left out by
`IsPlainElement`. They do not come back from their text with the semicolon either, so nothing about
separators can be learned from them.
-/

set_option autoImplicit false

namespace MarkupTemplate

/-! ## The text of a list

The items in their order with a semicolon between two of them. -/

theorem Value.displayAll_text (texts : List Text) : displayAll (texts.map .text) = texts := by
  induction texts with
  | nil => rfl
  | cons t texts ih => rw [List.map_cons, displayAll, ih, display]

theorem Value.display_list_text (texts : List Text) :
    (Value.list (texts.map .text)).display = Text.joinWith [';'] texts := by
  rw [display, displayAll_text]

/-- The semicolon makes no difference if it is the separator, or if nothing is separated. -/
theorem Value.display_list_eq_joinWith {texts : List Text} {c : Char}
    (h : c = ';' ∨ texts.length ≤ 1) :
    (Value.list (texts.map .text)).display = Text.joinWith [c] texts := by
  rw [display_list_text]
  rcases h with rfl | hlength
  · rfl
  · match texts, hlength with
    | [], _ => rfl
    | [t], _ => rfl

/-- Whether the separator of arrays is no blank, no quote and no other marker. -/
def Markers.hasFreeSeparator (m : Markers) : Bool :=
  !isBlank m.arraySeparator && !isQuote m.arraySeparator &&
    !([m.tagOpening, m.tagClosing, m.closedMark, m.commentOpening, m.commentClosing, m.macroMark,
      m.argumentOpening, m.argumentClosing, m.equationMark, m.conditionMark, m.ternaryMark,
      m.rangeOpening, m.rangeSeparator, m.rangeClosing, m.idSeparator, m.actionMark, m.lineMark,
      m.preferenceMark, m.attributeSeparator].contains m.arraySeparator)

namespace Engine

variable {machine machine' between : Machine} {m : Markers} {texts elements : List Text}
  {fuel : Nat}

/-- With a semicolon for the separator the text of a list is read as its items, and without one if
there is at most one item. -/
theorem array_display (hm : machine.parser.settings.markers = m)
    (hseparator : m.isLevel m.arraySeparator = true) (hplain : ∀ t ∈ texts, m.IsPlainElement t)
    (h : m.arraySeparator = ';' ∨ texts.length ≤ 1) (fuel : Nat) :
    array (fuel + 1) (Value.list (texts.map .text)).display machine = .ok texts machine := by
  subst hm
  rw [Value.display_list_eq_joinWith h]
  exact array_joinWith_separator hseparator hplain fuel

/-- **With another separator, two and more items become one element.** -/
theorem length_of_array_display (hm : machine.parser.settings.markers = m)
    (hplain : ∀ t ∈ texts, m.IsPlainElement t) (hsemicolon : m.arraySeparator ≠ ';')
    (hlength : 2 ≤ texts.length)
    (h : array fuel (Value.list (texts.map .text)).display machine = .ok elements machine') :
    elements.length = 1 := by
  subst hm
  rw [Value.display_list_text] at h
  have hne : ∀ t ∈ texts, t ≠ [] ∧ Text.trim t = t := fun t ht =>
    ⟨(hplain t ht).ne_nil, (hplain t ht).trim_eq⟩
  have htrim := Text.trim_joinWith [';'] hne
  have hseparator : machine.parser.settings.markers.arraySeparator ∉ Text.joinWith [';'] texts := by
    intro hmem
    rcases Text.mem_joinWith hmem with hmem | ⟨t, ht, hmem⟩
    · exact hsemicolon (List.mem_singleton.mp hmem)
    · exact (hplain t ht).separator hmem
  -- The text begins as the first item does, and ends as the last one does.
  obtain ⟨hunmarked, hink⟩ : isMarked machine.parser.settings.markers
      (Text.joinWith [';'] texts) = false ∧ Text.isBlankText (Text.joinWith [';'] texts) = false := by
    cases texts with
    | nil => simp at hlength
    | cons t texts =>
      have ht := hplain t List.mem_cons_self
      refine ⟨?_, Text.isBlankText_of_trim_eq (Text.joinWith_ne_nil [';'] ht.ne_nil texts) htrim⟩
      rw [isMarked, Text.head?_joinWith [';'] ht.ne_nil]
      exact ht.unmarked
  have hclosing : (Text.joinWith [';'] texts).getLast? ≠
      some machine.parser.settings.markers.rangeClosing := by
    rcases List.eq_nil_or_concat texts with rfl | ⟨texts, t, rfl⟩
    · simp at hlength
    · rw [List.concat_eq_append] at hplain ⊢
      have ht := hplain t (List.mem_append_right texts (List.mem_singleton_self t))
      rw [Text.getLast?_joinWith [';'] texts ht.ne_nil]
      exact ht.closing
  -- Nothing in the text separates, and neither of its ends makes more of it than a text.
  rw [array_of_separator_notMem hink hseparator, htrim,
    arrayElement_of_unmarked htrim hunmarked hclosing] at h
  obtain ⟨t, between, -, hpure⟩ := bind_eq_ok_iff.mp h
  obtain ⟨rfl, -⟩ := EStateM.Result.ok.inj hpure
  rfl

/-! ## Storing and looping

An evaluation puts the text of a value in an argument. A loop that names the argument finds the text
there; one that names the action finds the value. -/

/-- Whether an evaluation calls an action without an argument, and stores what it returns under a
name that a placeholder can refer to. -/
structure Stores (m : Markers) (evaluation : Tag) (action key : Text) : Prop where
  calls : evaluation.attributes.getOr? "action".toList 0 = some action
  argument : evaluation.attributes.getOr? "argument".toList 1 = none
  body : evaluation.body = none
  stores : evaluation.attributes.getOr? "key".toList 2 = some key
  isName : m.isName key = true
  trim_eq : Text.trim key = key
  level : ∀ c ∈ key, m.isLevel c = true

/-- The machine with another value of an argument. -/
def withArgument (machine : Machine) (name value : Text) : Machine :=
  { machine with parser :=
    { machine.parser with environment := machine.parser.environment.setArgument name value } }

variable {evaluation each : Tag} {action called key item value : Text}

/-- An evaluation stores the text of what the action returns, and does nothing else than the call
does. -/
theorem runEvaluation_of_stores {v : Value} (h : Stores m evaluation called key)
    (hinvoke : invoke called none machine = .ok v between) (fuel : Nat) :
    runEvaluation fuel evaluation machine = .ok () (withArgument between key v.display) := by
  have hargument : evaluationArgument fuel evaluation machine = .ok none machine := by
    rw [evaluationArgument, h.argument, h.body]
    rfl
  rw [runEvaluation, h.calls]
  dsimp only
  rw [bind_of_ok hargument, bind_of_ok hinvoke, h.stores]
  rfl

/-- A placeholder with the name of an argument is resolved to its value, if nothing in that is. -/
theorem expand_placeholder_of_argument? (hm : machine.parser.settings.markers = m)
    (hpair : m.argumentOpening ≠ m.argumentClosing) (h : Stores m evaluation called key)
    (hvalue : machine.parser.environment.argument? key = some value)
    (hopening : m.argumentOpening ∉ value) (fuel : Nat) :
    expand (fuel + 2) (m.placeholder key) machine = .ok value machine := by
  subst hm
  have hnests : Text.Nests machine.parser.settings.markers.argumentOpening
      machine.parser.settings.markers.argumentClosing key :=
    Text.nests_of_notMem (fun hmem => absurd (h.level _ hmem) (by simp [Markers.isLevel]))
      fun hmem => absurd (h.level _ hmem) (by simp [Markers.isLevel])
  have hread : placeholderBy (expand (fuel + 1)) key machine = .ok value machine := by
    rw [Environment.argument?] at hvalue
    rw [placeholderBy_of_isName (expand (fuel + 1)) h.isName, Markers.key, h.trim_eq,
      Dictionary.valueOr, hvalue, Option.getD_some]
  -- One piece, whose value has no placeholder in it.
  rw [expand_succ, Markers.pieces_placeholder hpair hnests, piecesBy, bind_of_ok hread,
    bind_of_ok (expand_of_argumentOpening_notMem hopening fuel), piecesBy]
  show EStateM.Result.ok (value ++ []) machine = _
  rw [List.append_nil]

/-- A loop over one array has an iteration for each of its elements. -/
theorem runParallelLoop_of_array (ht : each.attributes = .named [(item, value)])
    (h : array fuel value machine = .ok elements machine') :
    runParallelLoop fuel each machine = .ok () (machine'.withReader (machine'.parser.reader.append
      (Repetition.unrolled machine'.parser.settings.markers each
        (elements.map fun element => [(item, element)]))
      (machine'.parser.settings.markers.macroTitle each.name))) := by
  rw [runParallelLoop, bind_of_ok (loopArrays_of_array ht h), parallel_singleton]
  rfl

/-- A call of an action in an array stands for the items of the list that it returns. -/
theorem array_of_invoke (hm : machine.parser.settings.markers = m)
    (hcall : m.IsElement (m.actionMark :: action)) {v : Value}
    (hinvoke : invoke action none machine = .ok v between) (fuel : Nat) :
    array fuel (m.actionMark :: action) machine = .ok v.elements between := by
  subst hm
  rw [array_of_separator_notMem (Text.isBlankText_of_trim_eq hcall.ne_nil hcall.trim_eq)
      hcall.separator, hcall.trim_eq, arrayElement, bind_of_ok (markers_eq machine),
    Text.dropLast?_eq_none hcall.closing, Text.dropFirst?_eq_some_iff.mpr rfl]
  dsimp only
  rw [bind_of_ok hinvoke]
  rfl

/-- **Lists that are stored as text.** An action returns a list of plain elements, and an evaluation
stores it. A loop over the action always goes over the items. The text that was stored is the array
of the same items if the separator is a semicolon, or if there is at most one item: then the
placeholder of the argument is resolved to it, and a loop over it appends what the loop over the
action appends. With another separator, and two or more items, all arrays that the text is read as
have a single element. -/
theorem loops_storedList (hm : machine.parser.settings.markers = m)
    (hseparator : m.isLevel m.arraySeparator = true)
    (hplain : ∀ t ∈ texts, m.IsPlainElement t) (hstores : Stores m evaluation called key)
    (hcall : m.IsElement (m.actionMark :: action))
    (hevaluate : invoke called none machine = .ok (.list (texts.map .text)) between)
    (hloop : invoke action none machine = .ok (.list (texts.map .text)) between)
    (each : Tag) (item : Text) :
    let text := (Value.list (texts.map .text)).display
    let stored := withArgument between key text
    let iterations := Repetition.unrolled m each (texts.map fun t => [(item, t)])
    (∀ fuel, runEvaluation fuel evaluation machine = .ok () stored) ∧
    (∀ fuel, runParallelLoop fuel { each with attributes := .named [(item, m.actionMark :: action)] }
      machine = .ok () (between.withReader
        (between.parser.reader.append iterations (m.macroTitle each.name)))) ∧
    (m.arraySeparator = ';' ∨ texts.length ≤ 1 →
      (∀ fuel machine', machine'.parser.settings.markers = m →
        array (fuel + 1) text machine' = .ok texts machine') ∧
      (m.argumentOpening ≠ m.argumentClosing →
        ∀ fuel, expand (fuel + 2) (m.placeholder key) stored = .ok text stored) ∧
      ∀ fuel, runParallelLoop (fuel + 1) { each with attributes := .named [(item, text)] } stored =
        .ok () (stored.withReader
          (stored.parser.reader.append iterations (m.macroTitle each.name)))) ∧
    (m.arraySeparator ≠ ';' → 2 ≤ texts.length →
      ∀ fuel machine' machine'' elements, machine'.parser.settings.markers = m →
        array fuel text machine' = .ok elements machine'' → elements.length = 1) := by
  intro text stored iterations
  have hsame : between.parser = machine.parser := (within_invoke action none).of_ok hloop
  have hbetween : between.parser.settings.markers = m := by rw [hsame, hm]
  have hstored : stored.parser.settings.markers = m := hbetween
  refine ⟨runEvaluation_of_stores hstores hevaluate, fun fuel => ?_, fun hone => ?_,
    fun hsemicolon hlength fuel machine' machine'' elements hm' =>
      length_of_array_display hm' hplain hsemicolon hlength⟩
  · have hrun : runParallelLoop fuel
        { each with attributes := .named [(item, m.actionMark :: action)] } machine = _ :=
      runParallelLoop_of_array rfl (array_of_invoke hm hcall hloop fuel)
    rw [hrun, Value.elements, Value.displayAll_text, hbetween]
    rfl
  -- The stored text is the array of the items wherever it is read with these markers.
  · have hread : ∀ fuel machine', machine'.parser.settings.markers = m →
        array (fuel + 1) text machine' = .ok texts machine' := fun fuel machine' hm' =>
      array_display hm' hseparator hplain hone fuel
    have hopening : m.argumentOpening ∉ text := by
      intro hmem
      rw [show text = _ from Value.display_list_eq_joinWith hone] at hmem
      rcases Text.mem_joinWith hmem with hmem | ⟨t, ht, hmem⟩
      · rw [← List.mem_singleton.mp hmem] at hseparator
        simp [Markers.isLevel] at hseparator
      · exact (hplain t ht).argumentOpening_notMem hmem
    have hargument : stored.parser.environment.argument? key = some text :=
      (Dictionary.get?_insert _ _ _ text).trans (if_pos rfl)
    refine ⟨hread, fun hpair =>
      expand_placeholder_of_argument? hstored hpair hstores hargument hopening, fun fuel => ?_⟩
    have hrun : runParallelLoop (fuel + 1) { each with attributes := .named [(item, text)] }
        stored = _ := runParallelLoop_of_array rfl (hread fuel stored hstored)
    rw [hrun, hstored]
    rfl

def letters : List Text := ["a".toList, "b".toList]

/-- A machine with an action that returns a list. -/
def listingMachine : Machine where
  registry := Registry.standard.registerAction "list".toList
    { title := "list".toList, reply := fun _ _ => .ok (.list (letters.map .text)) }

def storingTag : Tag :=
  { name := "evaluate".toList
    attributes := .named [("action".toList, "$list".toList), ("key".toList, "k".toList)] }

def loopingTag : Tag :=
  { name := "forEach".toList, attributes := .none, body := some "[\x7bx\x7d]".toList }

/-- The items of the list stand for themselves, whichever mark it is. -/
theorem isPlainElement_letters : ∀ t ∈ letters, ({} : Markers).IsPlainElement t := by
  have hword : ∀ t ∈ letters, Text.IsWord t := by decide
  exact fun t ht => isPlainElement_of_isWord (hword t ht)

theorem loops_storedList_letters :
    ({} : Markers).isLevel ({} : Markers).arraySeparator = true ∧
    (∀ t ∈ letters, ({} : Markers).IsPlainElement t) ∧
    Stores {} storingTag "$list".toList "k".toList ∧
    ({} : Markers).IsElement "$list".toList ∧
    ∃ between, invoke "$list".toList none listingMachine =
        .ok (.list (letters.map .text)) between ∧
      invoke "list".toList none listingMachine = .ok (.list (letters.map .text)) between ∧
      let stored := withArgument between "k".toList "a;b".toList
      runEvaluation 0 storingTag listingMachine = .ok () stored ∧
      runParallelLoop 0 { loopingTag with attributes := .named [("x".toList, "$list".toList)] }
        listingMachine = .ok () (between.withReader (Reader.append {} "[a][b]".toList
          (({} : Markers).macroTitle loopingTag.name))) ∧
      runParallelLoop 1 { loopingTag with attributes := .named [("x".toList, "a;b".toList)] }
        stored = .ok () (stored.withReader (Reader.append {} "[a][b]".toList
          (({} : Markers).macroTitle loopingTag.name))) := by
  have hlevel : ({} : Markers).isLevel ({} : Markers).arraySeparator = true := by decide
  have hstores : Stores {} storingTag "$list".toList "k".toList :=
    ⟨rfl, rfl, rfl, rfl, by decide, by decide, List.all_eq_true.mp (by decide)⟩
  have hcall : ({} : Markers).IsElement "$list".toList :=
    ⟨by decide, by decide, List.all_eq_true.mp (by decide), by decide, by decide⟩
  let called := invoke "$list".toList none listingMachine
  have hevaluate : called = .ok (.list (letters.map .text)) (behind called) := rfl
  have hloop : invoke "list".toList none listingMachine =
      .ok (.list (letters.map .text)) (behind called) := rfl
  obtain ⟨hstored, hover, hsemicolon, -⟩ := loops_storedList rfl hlevel
    isPlainElement_letters hstores hcall hevaluate hloop loopingTag "x".toList
  have hiterations : Repetition.unrolled {} loopingTag (letters.map fun t => [("x".toList, t)]) =
      "[a][b]".toList := by decide +kernel
  -- The semicolon is the separator here, so both loops go over both letters.
  refine ⟨hlevel, isPlainElement_letters, hstores, hcall, behind called, hevaluate, hloop,
    hstored 0, ?_⟩
  rw [← hiterations]
  exact ⟨hover 0, (hsemicolon (.inl rfl)).2.2 0⟩

/-- With a bar for the separator, two items are one element. -/
theorem not_array_display : ¬ ∀ (m : Markers) (texts : List Text) (machine : Machine),
    m.hasFreeSeparator = true → (∀ t ∈ texts, m.IsPlainElement t) →
    machine.parser.settings.markers = m →
    ∃ fuel, array fuel (Value.list (texts.map .text)).display machine = .ok texts machine := by
  intro h
  let m : Markers := { arraySeparator := '|' }
  have hplain : ∀ t ∈ letters, m.IsPlainElement t := fun t ht =>
    { isPlainElement_letters t ht with
      separator := by
        have hword : ∀ t ∈ letters, '|' ∉ t := by decide
        exact hword t ht }
  obtain ⟨fuel, harray⟩ := h m letters { parser.settings.markers := m } (by decide) hplain rfl
  -- The items are displayed with another separator than the one that cuts, so this is a single
  -- element.
  have hlength := length_of_array_display rfl hplain (by decide) (by decide) harray
  exact absurd hlength (by decide)

end Engine

end MarkupTemplate
