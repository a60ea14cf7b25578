import MarkupTemplate.Proofs.Control.Meaning
import MarkupTemplate.Proofs.Resolution.Inlining
import MarkupTemplate.Proofs.Tag.Arguments
import MarkupTemplate.Proofs.Tag.Phrase
import MarkupTemplate.Proofs.Text.TopLevel
import MarkupTemplate.Proofs.Twin.Leniency

/-!
# Two forms of a choice

A template can choose between two texts with a placeholder that has a condition in it, or with a
conditional macro that has one among its attributes. Where the condition says that two arguments are
equal, the placeholder has the arguments looked up when the condition is evaluated, and their values
are operands as they are. In the tag the values take the place of the arguments first, and the
condition is read from what that makes.

So both forms agree on values that are read back as they are: phrases of ordinary characters, and
blanks around them just where these make no difference (`parse_choices`). A value with an operator
in it is an equation to the tag, and a text to the placeholder (`not_parse_choices`).

The proof goes along the two ways. The placeholder is cut at its marks, the condition is evaluated
on the operands, and the text that is left is scanned (`parse_inlineChoice`). The macro has its tag
filled in and read as text, and from there on it is like any other conditional
(`reads_macroChoice`). They only meet at the comparison of the two values.
-/

set_option autoImplicit false

namespace MarkupTemplate

open Control EquationToken

/-! ## Choices

How both forms are written, for any two arguments and any two texts, and for which texts and values
they are compared. -/

/-- The condition that two arguments are equal. -/
def comparison (x y : Text) : Text :=
  equating (({} : Markers).placeholder x) (({} : Markers).placeholder y)

/-- What is between the marks of a placeholder that stands for one of two texts. -/
def choiceText (x y onTrue onFalse : Text) : Text :=
  '?' :: (comparison x y ++ " ? ".toList) ++ (onTrue ++ " : ".toList ++ onFalse)

/-- A placeholder that stands for one of two texts. -/
def inlineChoice (x y onTrue onFalse : Text) : Text :=
  ({} : Markers).placeholder (choiceText x y onTrue onFalse)

/-- A macro that stands for one of two texts. -/
def macroChoice (x y onTrue onFalse : Text) : Text :=
  "<:if ".toList ++ comparison x y ++ ['>'] ++ onTrue ++ elseTag ++ onFalse ++ "</:if>".toList

/-- The text that two values choose. -/
def chosen (vx vy onTrue onFalse : Text) : Text :=
  if (Operand.text vx).isEqual (.text vy) then onTrue else onFalse

/-- Whether a text is plain in both forms: it is not blank and has no markers or quotes. -/
structure IsBranch (t : Text) : Prop where
  ink : Text.isBlankText t = false
  plain : ∀ c ∈ t, c ∉ "<\x7b\x7d\"\'?:".toList

instance (t : Text) : Decidable (IsBranch t) :=
  decidable_of_iff (Text.isBlankText t = false ∧
    t.all (fun c => decide (c ∉ "<\x7b\x7d\"\'?:".toList)) = true)
    ⟨fun h => ⟨h.1, fun c hc => of_decide_eq_true (List.all_eq_true.mp h.2 c hc)⟩,
      fun h => ⟨h.ink, List.all_eq_true.mpr fun c hc => decide_eq_true (h.plain c hc)⟩⟩

/-- Whether a character only belongs to the word that it stands in. -/
def isOrdinary (c : Char) : Bool :=
  !isBlank c && !isQuote c && c != '(' && c != ')' && c != '\x7b' &&
    (OperatorTable.standard.ofChar? c).isNone

/-- Whether a value is a phrase of ordinary characters, blanks around it aside, and does not begin
with the mark of an action, a line or a preference. -/
structure IsComparable (v : Text) : Prop where
  phrase : (Text.trim v).IsPhrase isOrdinary
  unmarked : Engine.isMarked {} (Text.trim v) = false

/-- Such a value is a single operand of an equation. -/
theorem IsComparable.isValue {v : Text} (h : IsComparable v) :
    EquationFormat.IsValue { operators := .standard } (Text.trim v) := by
  refine ⟨h.phrase.ne_nil, Text.trim_trim v, fun c hc => ?_⟩
  rcases h.phrase.eq_or c hc with rfl | hordinary
  · exact ⟨by decide, by decide, by decide, by decide, by decide⟩
  · simp only [isOrdinary, Bool.and_eq_true, Bool.not_eq_true', bne_iff_ne,
      Option.isNone_iff_eq_none] at hordinary
    obtain ⟨⟨⟨⟨⟨_, hquote⟩, hopening⟩, hclosing⟩, hbrace⟩, hoperator⟩ := hordinary
    exact ⟨hquote, hopening, hclosing, hbrace, hoperator⟩

/-- What is ordinary in an equation is so in a list of attributes. -/
theorem isItemCharacter_of_isOrdinary {c : Char} (h : isOrdinary c = true) :
    Attributes.isItemCharacter c = true := by
  have hne : ∀ d, (OperatorTable.standard.ofChar? d).isSome = true → c ≠ d := by
    rintro d hd rfl
    simp only [isOrdinary, Bool.and_eq_true, Option.isNone_iff_eq_none] at h
    rw [h.2] at hd
    cases hd
  have hequals := hne '=' (by decide)
  have hslash := hne '/' (by decide)
  simp only [isOrdinary, Bool.and_eq_true, Bool.not_eq_true'] at h
  simp [Attributes.isItemCharacter, h.1.1.1.1.1, h.1.1.1.1.2, hequals, hslash]

/-- Such a value holds no placeholder, so it is not expanded again. -/
theorem IsComparable.notMem {v : Text} (h : IsComparable v) : '{' ∉ v := by
  intro hmem
  obtain ⟨lead, tail, hsplit, hlead, htail⟩ := Text.exists_trim v
  rw [hsplit] at hmem
  have hblank : isBlank '{' = false := by decide
  rcases List.mem_append.mp hmem with hmem | hmem
  · rcases List.mem_append.mp hmem with hmem | hmem
    · rw [hlead _ hmem] at hblank
      cases hblank
    · exact (h.isValue.plain _ hmem).placeholder rfl
  · rw [htail _ hmem] at hblank
    cases hblank

/-! ## Where a choice is cut

The marks of a choice are looked for at top level. A plain text is crossed by the search, and so is
the condition, whose own placeholders are opaque to it. -/

theorem IsBranch.notMem {t : Text} (h : IsBranch t) : '<' ∉ t ∧ '{' ∉ t ∧ '}' ∉ t :=
  ⟨fun hmem => h.plain _ hmem (by decide), fun hmem => h.plain _ hmem (by decide),
    fun hmem => h.plain _ hmem (by decide)⟩

theorem IsBranch.trim {t : Text} (h : IsBranch t) : IsBranch (Text.trim t) where
  ink := by
    cases hblank : Text.isBlankText (Text.trim t) with
    | false => rfl
    | true =>
      have hnil := Text.trim_eq_nil_iff.mpr hblank
      rw [Text.trim_trim, Text.trim_eq_nil_iff, h.ink] at hnil
      cases hnil
  plain c hc := h.plain c (Text.mem_of_mem_trim hc)

theorem IsBranch.chosen {onTrue onFalse : Text} (h : IsBranch onTrue) (h' : IsBranch onFalse)
    {vx vy : Text} : IsBranch (MarkupTemplate.chosen vx vy onTrue onFalse) := by
  unfold MarkupTemplate.chosen
  split
  · exact h
  · exact h'

/-- The mark between the texts is found behind the first one. -/
theorem IsBranch.crosses {t : Text} (h : IsBranch t) :
    ({} : Markers).Crosses ':' (' ' :: (t ++ [' '])) := by
  have hplain : ∀ c ∈ ' ' :: (t ++ [' ']), c ∉ "<\x7b\x7d\"\'?:".toList := by
    intro c hc
    rcases List.mem_cons.mp hc with rfl | hc
    · decide
    · rcases List.mem_append.mp hc with hc | hc
      · exact h.plain c hc
      · rw [List.mem_singleton.mp hc]
        decide
  refine Markers.crosses_of_isLevel (fun c hc => ?_) fun hmem => hplain ':' hmem (by decide)
  have hc := hplain c hc
  simp at hc
  simp [Markers.isLevel, isQuote, hc]

/-- The mark behind the condition is found behind it. -/
theorem crosses_comparison {x y : Text} (hx : x.IsWord) (hy : y.IsWord) :
    ({} : Markers).Crosses '?' (comparison x y ++ [' ']) := by
  have hplaceholder : ∀ name : Text, name.IsWord →
      ({} : Markers).Crosses '?' (({} : Markers).placeholder name) := fun name hname =>
    Markers.crosses_placeholder (by decide) (by decide) (isLevel_of_isWord hname)
  have hsign : ({} : Markers).Crosses '?' " == ".toList :=
    Markers.crosses_of_isLevel (List.all_eq_true.mp (by decide)) (by decide)
  have hspace : ({} : Markers).Crosses '?' [' '] :=
    Markers.crosses_of_isLevel (List.all_eq_true.mp (by decide)) (by decide)
  exact (((hplaceholder x hx).append hsign).append (hplaceholder y hy)).append hspace

theorem nests_comparison {x y : Text} (hx : x.IsWord) (hy : y.IsWord) :
    Text.Nests '{' '}' (comparison x y) := by
  have hplaceholder : ∀ name : Text, name.IsWord →
      Text.Nests '{' '}' (({} : Markers).placeholder name) := fun name hname =>
    (Text.nests_of_notMem (hname.notMem (by decide)) (hname.notMem (by decide))).enclosed
      (by decide)
  have hsign : Text.Nests '{' '}' " == ".toList := Text.nests_of_notMem (by decide) (by decide)
  exact ((hplaceholder x hx).append hsign).append (hplaceholder y hy)

/-- The marks of the placeholder are where it ends. -/
theorem nests_choiceText {x y onTrue onFalse : Text} (hx : x.IsWord) (hy : y.IsWord)
    (hbranch : IsBranch onTrue) (hbranch' : IsBranch onFalse) :
    Text.Nests '{' '}' (choiceText x y onTrue onFalse) := by
  have hplain : ∀ s : Text, '{' ∉ s → '}' ∉ s → Text.Nests '{' '}' s := fun s =>
    Text.nests_of_notMem
  have hcondition := ((hplain ['?'] (by decide) (by decide)).append
    (nests_comparison hx hy)).append (hplain " ? ".toList (by decide) (by decide))
  have htexts := ((hplain onTrue hbranch.notMem.2.1 hbranch.notMem.2.2).append
    (hplain " : ".toList (by decide) (by decide))).append
      (hplain onFalse hbranch'.notMem.2.1 hbranch'.notMem.2.2)
  exact hcondition.append htexts

theorem trim_comparison (x y : Text) : Text.trim (comparison x y) = comparison x y := by
  have hopening : isBlank '{' = false := by decide
  have hclosing : isBlank '}' = false := by decide
  have hsplit : comparison x y =
      '{' :: (x ++ "\x7d == \x7b".toList ++ y) ++ ['}'] := by
    simp [comparison, equating, Markers.placeholder]
  rw [hsplit, Text.trim_append hclosing _ (by simp), Text.trimLeft,
    List.dropWhile_cons_of_neg (by simp [hopening])]

namespace Engine

variable {machine : Machine} {x y vx vy onTrue onFalse : Text}

theorem reads_branch (hm : machine.parser.settings.markers = {}) {t : Text}
    (h : IsBranch t) : Reads machine t t :=
  reads_text hm h.ink h.notMem.1 h.notMem.2.1

/-! ## Conditions

The same comparison, of two operands that were looked up and of two that are written out. -/

/-- Under the usual markers and operators, an equation is evaluated by the usual format. -/
theorem equationBy_eq (hm : machine.parser.settings.markers = {})
    (hoperators : machine.parser.operators = .standard) (expanded : Text → Engine Text)
    (e : Text) : equationBy expanded e machine =
      (evaluate { operators := .standard } (operandBy expanded) e : Engine Operand) machine := by
  rw [equationBy, bind_of_ok (parser_eq machine), hm, hoperators]

/-- A value is an operand as it is, if it refers to nothing. -/
theorem operandBy_of_isComparable (hm : machine.parser.settings.markers = {}) {v : Text}
    (h : IsComparable v) (expanded : Text → Engine Text) :
    operandBy expanded (Text.trim v) machine = .ok (Text.trim v) machine := by
  have hbrace : '{' ∉ Text.trim v := fun hmem => (h.isValue.plain _ hmem).placeholder rfl
  have hplain : ¬(isMarked {} (Text.trim v) || decide ('{' ∈ Text.trim v)) = true := by
    rw [h.unmarked]
    simpa using hbrace
  rw [operandBy, bind_of_ok (markers_eq machine), hm, if_neg hplain]
  rfl

/-- The placeholder of an argument is the value of it as an operand. -/
theorem operandBy_placeholder (hm : machine.parser.settings.markers = {}) (hx : x.IsWord)
    (hvx : machine.parser.environment.argument? x = some vx) (hbrace : '{' ∉ vx) (fuel : Nat) :
    operandBy (expand (fuel + 2)) (({} : Markers).placeholder x) machine = .ok vx machine := by
  have hcollected := collected_placeholder hx
  have hspares : machine.parser.settings.markers.SparesWords := hm ▸ sparesWords_default
  have hvalue : placeholderBy (expand (fuel + 1)) x machine = .ok vx machine :=
    placeholder_eq machine hspares hx hvx (fuel + 1)
  have htake : Text.takeNested ({} : Markers).argumentOpening ({} : Markers).argumentClosing 0
      (x ++ ['}']) = (x, some []) :=
    Text.takeNested_of_notMem (by decide) (hx.notMem (by decide)) (hx.notMem (by decide)) []
  -- The placeholder is the only piece, and its value has no pieces but characters.
  have hpieces : piecesBy (expand (fuel + 1)) (({} : Markers).pieces ('{' :: (x ++ ['}'])))
      machine = .ok vx machine := by
    have hend : piecesBy (expand (fuel + 1)) (({} : Markers).pieces []) machine =
        .ok [] machine := by
      rw [Markers.pieces]
      rfl
    have hopening := Markers.pieces_opening (m := {}) htake
    rw [show ('{' :: (x ++ ['}'])) = ({} : Markers).argumentOpening :: (x ++ ['}']) from rfl,
      hopening, piecesBy, bind_of_ok hvalue, bind_of_ok (expand_of_notMem hm hbrace fuel),
      bind_of_ok hend, List.append_nil]
    rfl
  have hexpand : expand (fuel + 2) ('{' :: (x ++ ['}'])) machine = .ok vx machine := by
    rw [expand_succ, hm, hpieces]
  have hstring : stringBy (expand (fuel + 2)) ('{' :: (x ++ ['}'])) machine = .ok vx machine := by
    rw [stringBy, bind_of_ok (markers_eq machine), hm, hcollected.trim_eq]
    exact hexpand
  rw [operandBy, bind_of_ok (markers_eq machine), hm, if_pos (by simp [Markers.placeholder])]
  exact hstring

section

variable (hm : machine.parser.settings.markers = {})
  (hoperators : machine.parser.operators = .standard) (hx : x.IsWord) (hy : y.IsWord)
  (hvx : machine.parser.environment.argument? x = some vx)
  (hvy : machine.parser.environment.argument? y = some vy)

include hm hoperators

/-- Values that are read back as they are can be compared in the place of their arguments. -/
theorem holds_equating (hcx : IsComparable vx) (hcy : IsComparable vy) (fuel : Nat) :
    holds fuel (equating (Text.trim vx) (Text.trim vy)) machine =
      .ok ((Operand.text (Text.trim vx)).isEqual (.text (Text.trim vy))) machine := by
  have hequation : equationBy (expand fuel) (equating (Text.trim vx) (Text.trim vy)) machine =
      .ok (.boolean ((Operand.text (Text.trim vx)).isEqual (.text (Text.trim vy)))) machine := by
    rw [equationBy_eq hm hoperators]
    exact evaluate_equating (collected_of_isValue hcx.isValue) (collected_of_isValue hcy.isValue)
      (operandBy_of_isComparable hm hcx _) (operandBy_of_isComparable hm hcy _)
  rw [holds, bind_of_ok hequation]
  rfl

include hx hy hvx hvy

/-- The condition of the placeholder compares the values as they are. -/
theorem equationBy_comparison (hbrace : '{' ∉ vx) (hbrace' : '{' ∉ vy) (fuel : Nat) :
    equationBy (expand (fuel + 2)) (comparison x y) machine =
      .ok (.boolean ((Operand.text vx).isEqual (.text vy))) machine := by
  rw [equationBy_eq hm hoperators]
  exact evaluate_equating (collected_placeholder hx) (collected_placeholder hy)
    (operandBy_placeholder hm hx hvx hbrace fuel) (operandBy_placeholder hm hy hvy hbrace' fuel)

/-! ## The placeholder

The whole choice is one placeholder to the scanner. What it stands for is put in front of what is
unread, and so it is read like any text. -/

/-- The choice is cut at the marks in front of its texts. -/
theorem choiceBy_inline (hbrace : '{' ∉ vx) (hbrace' : '{' ∉ vy) (hbranch : IsBranch onTrue)
    (fuel : Nat) :
    choiceBy (expand (fuel + 2)) ((comparison x y ++ " ? ".toList) ++ (onTrue ++ " : ".toList ++
      Text.trimRight onFalse)) machine =
        .ok (Text.trim (chosen vx vy onTrue onFalse)) machine := by
  have hspace : ∀ c ∈ [' '], isBlank c = true := List.forall_mem_singleton.mpr (by decide)
  -- The marks in the placeholders of the condition are not at top level.
  have hcondition : ({} : Markers).splitTop? '?' {} ((comparison x y ++ " ? ".toList) ++
      (onTrue ++ " : ".toList ++ Text.trimRight onFalse)) = some (comparison x y ++ [' '],
        ' ' :: (onTrue ++ " : ".toList ++ Text.trimRight onFalse)) := by
    have hsplit := (crosses_comparison hx hy).splitTop? (by decide)
      (' ' :: (onTrue ++ " : ".toList ++ Text.trimRight onFalse))
    simpa using hsplit
  have htexts : ({} : Markers).splitTop? ':' {} (' ' :: (onTrue ++ " : ".toList ++
      Text.trimRight onFalse)) =
        some (' ' :: (onTrue ++ [' ']), ' ' :: Text.trimRight onFalse) := by
    have hsplit := hbranch.crosses.splitTop? (by decide) (' ' :: Text.trimRight onFalse)
    simpa using hsplit
  have htrim : Text.trim (comparison x y ++ [' ']) = comparison x y := by
    rw [Text.trim_append_blanks _ hspace, trim_comparison]
  rw [choiceBy, bind_of_ok (markers_eq machine), hm, hcondition]
  dsimp only
  rw [htexts, Option.getD_some, htrim, bind_of_ok (equationBy_comparison hm hoperators hx hy hvx hvy
    hbrace hbrace' fuel)]
  have hleft : ∀ t, Text.trim (' ' :: t) = Text.trim t := Text.trim_blanks_append hspace
  have hchosen : ∀ b : Bool, Text.trim (if b then ' ' :: (onTrue ++ [' ']) else
      ' ' :: Text.trimRight onFalse) = Text.trim (if b then onTrue else onFalse) := by
    intro b
    cases b with
    | true => exact (hleft _).trans (Text.trim_append_blanks onTrue hspace)
    | false => exact (hleft _).trans (Text.trim_trimRight onFalse)
  exact congrArg (fun t => EStateM.Result.ok t machine) (hchosen _)

/-- The placeholder stands for the text that its condition chooses, without the blanks around
it. -/
theorem placeholder_inline (hbrace : '{' ∉ vx) (hbrace' : '{' ∉ vy) (hbranch : IsBranch onTrue)
    (hbranch' : IsBranch onFalse) (fuel : Nat) :
    placeholder (fuel + 2) (choiceText x y onTrue onFalse) machine =
        .ok (Text.trim (chosen vx vy onTrue onFalse)) machine := by
  have hmark : isBlank '?' = false := by decide
  have htrim : Text.trim (choiceText x y onTrue onFalse) =
      choiceText x y onTrue (Text.trimRight onFalse) := by
    have hink := Text.trim_append_of_ink hmark
      ((comparison x y ++ " ? ".toList) ++ (onTrue ++ " : ".toList)) hbranch'.ink
    simpa [choiceText] using hink
  rw [placeholder, placeholderBy, bind_of_ok (parser_eq machine), hm, htrim]
  exact choiceBy_inline hm hoperators hx hy hvx hvy hbrace hbrace' hbranch fuel

end

/-- Reading the placeholder leaves the text that it stands for to be read. -/
theorem parse_inlineChoice (hm : machine.Idle) (hx : x.IsWord) (hy : y.IsWord)
    (hvx : machine.parser.environment.argument? x = some vx)
    (hvy : machine.parser.environment.argument? y = some vy) (hbrace : '{' ∉ vx)
    (hbrace' : '{' ∉ vy) (hbranch : IsBranch onTrue) (hbranch' : IsBranch onFalse) (title : Text) :
    ∃ least, ∀ fuel, least ≤ fuel →
      parse fuel (inlineChoice x y onTrue onFalse) title machine =
        .ok ⟨[], Text.trim (chosen vx vy onTrue onFalse)⟩ machine := by
  have hmarkers := hm.standard.markers
  let start := machine.parser.reader.append (inlineChoice x y onTrue onFalse) title
  let text := Text.trim (chosen vx vy onTrue onFalse)
  have hunread : start.unread = '{' :: (choiceText x y onTrue onFalse ++ ['}']) :=
    unread_append_of_atRest hm.atRest _ title
  have htake := (nests_choiceText hx hy hbranch hbranch').takeNested (by decide) []
  obtain ⟨reader, hreader, hscan⟩ := exists_scan_placeholder text (by rw [hmarkers]; exact htake)
    ⟨[], start, machine.parser.text⟩ (by rw [hmarkers]; exact hunread)
  rw [List.append_nil] at hreader
  obtain ⟨cost, r, hrest⟩ := exists_scan_of_reads hm
    (reads_branch hmarkers (hbranch.chosen hbranch').trim) hreader
  -- The condition is evaluated within what is left, and looking up its arguments takes two.
  refine ⟨cost + 3, fun fuel hle => parse_of_scan hm (r := r) ?_⟩
  obtain ⟨more, rfl⟩ : ∃ more, fuel = more + cost + 3 := ⟨fuel - cost - 3, by omega⟩
  have hfirst := hscan (more + cost + 2) fun r => by
    have hmarkers' : (machine.reading r machine.parser.text).parser.settings.markers = {} :=
      hmarkers
    exact placeholder_inline hmarkers' hm.standard.operators hx hy hvx hvy hbrace hbrace' hbranch
      hbranch' (more + cost)
  have hcost : more + cost + 2 = (more + 1) + cost + 1 := by omega
  refine hfirst.trans ?_
  rw [hcost]
  exact hrest (more + 1)

/-! ## The macro

The tag is read first, with the values in place of their placeholders, and then parsed: by then
nobody knows any more which part of it was a value. -/

/-- The two placeholders of the tag are filled in with the values. -/
theorem fills_conditionText (e : Environment) (hx : x.IsWord) (hy : y.IsWord)
    (hvx : e.argument? x = some vx) (hvy : e.argument? y = some vy) (hbrace : '{' ∉ vx)
    (hbrace' : '{' ∉ vy) : Fills e (":if ".toList.map .char ++ .placeholder x ::
      (" == ".toList.map .char ++ .placeholder y :: [.closing]))
      (":if ".toList ++ comparison x y ++ ['>']) (conditionText vx vy) := by
  have hfills := Fills.chars ":if ".toList (.argument hx hvx hbrace (Fills.chars " == ".toList
    (.argument hy hvy hbrace' (.closing (e := e)))))
  have hwritten : ":if ".toList ++ comparison x y ++ ['>'] = ":if ".toList ++
      '{' :: (x ++ '}' :: (" == ".toList ++ '{' :: (y ++ '}' :: ['>']))) := by
    simp [comparison, equating, Markers.placeholder]
  have hread : conditionText vx vy = ":if ".toList ++ (vx ++ (" == ".toList ++ (vy ++ []))) := by
    simp [conditionText, equating]
  rw [hwritten, hread]
  exact hfills

/-- The parts of the tag, up to its end. -/
theorem tagParts_conditionText (hx : x.IsWord) (hy : y.IsWord) (nested : Bool) (rest : Text) :
    ({} : Markers).tagParts nested none (":if ".toList ++ comparison x y ++ ['>'] ++ rest) =
      ":if ".toList.map .char ++ .placeholder x ::
        (" == ".toList.map .char ++ .placeholder y :: [.closing]) := by
  have hsplit : ":if ".toList ++ comparison x y ++ ['>'] ++ rest = ":if ".toList ++
      '{' :: (x ++ '}' :: (" == ".toList ++ '{' :: (y ++ '}' :: '>' :: rest))) := by
    simp [comparison, equating, Markers.placeholder]
  rw [hsplit, Markers.tagParts_append _ (by decide), Markers.tagParts_argument hx,
    Markers.tagParts_append _ (by decide), Markers.tagParts_argument hy, tagParts_closing]

/-- How the tag, its body and its closing tag follow each other. -/
theorem macroChoice_append (x y onTrue onFalse rest : Text) :
    macroChoice x y onTrue onFalse ++ rest = '<' :: ((":if ".toList ++ comparison x y ++ ['>']) ++
      ((onTrue ++ elseTag ++ onFalse) ++ '<' :: closingText "if".toList ++ rest)) := by
  show ('<' :: ":if ".toList) ++ comparison x y ++ ['>'] ++ onTrue ++ elseTag ++ onFalse ++
    ('<' :: closingText "if".toList) ++ rest = _
  -- What the tags are spelled like does not matter here.
  generalize closingText "if".toList = closing
  generalize elseTag = separator
  simp only [List.append_assoc, List.cons_append]

/-- The body is cut at the tag between the branches. -/
theorem branches_macroChoice (strict : Bool) (hbranch : IsBranch onTrue) :
    branches {} strict "if".toList (onTrue ++ elseTag ++ onFalse) = (onTrue, some onFalse) := by
  have huncut : TagPattern.Uncut ⟨"if".toList, true, strict⟩ (elsePattern strict) {} 0 onTrue :=
    TagPattern.uncut_of_notMem hbranch.notMem.1
  have hsplit := huncut.splitBranches?_eq_some divides_elseText onFalse
  simp only [branches]
  rw [show TagPattern.splitBranches? _ ⟨({} : Markers).elseName "if".toList, true, strict⟩ {} 0
    (onTrue ++ elseTag ++ onFalse) = some (onTrue, onFalse) from hsplit]

section

variable (hstd : machine.Standard) (hcx : IsComparable vx) (hcy : IsComparable vy)
  (hbranch : IsBranch onTrue) (hbranch' : IsBranch onFalse)

include hstd hcx hcy hbranch

/-- The conditional appends the text that its condition chooses. -/
theorem runConditional_chooses {tag : Tag} (hname : tag.name = "if".toList)
    (hcondition : conditionOf tag = equating (Text.trim vx) (Text.trim vy)) (fuel : Nat) :
    Appends (runBuiltin fuel .conditional (tag.bodied (onTrue ++ elseTag ++ onFalse))) machine
      "if".toList (chosen (Text.trim vx) (Text.trim vy) onTrue onFalse) := by
  have hequation : conditionOf (tag.bodied (onTrue ++ elseTag ++ onFalse)) =
      equating (Text.trim vx) (Text.trim vy) := hcondition
  have hblank : ¬Text.isBlankText (equating (Text.trim vx) (Text.trim vy)) = true := by
    intro hall
    have hsign := List.all_eq_true.mp hall '='
      (List.mem_append_left _ (List.mem_append_right _ (by decide)))
    exact absurd hsign (by decide)
  have happends := appendBranch_appends (t := tag.bodied (onTrue ++ elseTag ++ onFalse))
    (b := (Operand.text (Text.trim vx)).isEqual (.text (Text.trim vy))) hstd.markers
    (show branches _ _ tag.name _ = _ from hname ▸ branches_macroChoice _ hbranch)
  rw [show (tag.bodied (onTrue ++ elseTag ++ onFalse)).name = _ from hname, Option.getD_some]
    at happends
  rw [runBuiltin, runConditional, hequation, if_neg hblank]
  exact .bind (holds_equating hstd.markers hstd.operators hcx hcy fuel) happends

include hbranch'

/-- The macro is read as the text that its condition chooses. -/
theorem reads_macroChoice (hx : x.IsWord) (hy : y.IsWord)
    (hvx : machine.parser.environment.argument? x = some vx)
    (hvy : machine.parser.environment.argument? y = some vy) :
    Reads machine (macroChoice x y onTrue onFalse)
      (chosen (Text.trim vx) (Text.trim vy) onTrue onFalse) := by
  intro p rest hr hink
  let body := onTrue ++ elseTag ++ onFalse
  let text := chosen (Text.trim vx) (Text.trim vy) onTrue onFalse
  -- The tag, its body and what it appends are taken from the reader one after another.
  have hif : "if".toList ∈ names := by decide
  have hsplit : macroChoice x y onTrue onFalse ++ rest =
      '<' :: ((":if ".toList ++ comparison x y ++ ['>']) ++
        (body ++ '<' :: closingText "if".toList ++ rest)) := macroChoice_append x y _ _ rest
  rw [hsplit] at hr
  obtain ⟨r₁, hr₁, htext⟩ := readTagText_of_fills
    (machine.reading ⟨Reader.advance '<' p.reader.stack,
      (":if ".toList ++ comparison x y ++ ['>']) ++
        (body ++ '<' :: closingText "if".toList ++ rest)⟩ p.content)
    (fills_conditionText _ hx hy hvx hvy hcx.notMem hcy.notMem) hstd.markers
    (fun nested => tagParts_conditionText hx hy nested _) rfl
  -- The tag between the branches opens and closes nothing.
  have hlevel : TagPattern.Level ⟨"if".toList, true, machine.parser.settings.strict⟩ {} body :=
    ((TagPattern.level_of_notMem hbranch.notMem.1).append (ignores_elseText _ hif).level).append
      (TagPattern.level_of_notMem hbranch'.notMem.1)
  obtain ⟨r₂, hr₂, hread⟩ := readBody_of_level (machine.reading r₁ p.content) hstd.markers hif hr₁
    hlevel
  obtain ⟨tag, hparse, hname, hopen, hcondition⟩ := exists_conditionTag
    (hcx.phrase.imp fun _ => isItemCharacter_of_isOrdinary)
    (hcy.phrase.imp fun _ => isItemCharacter_of_isOrdinary)
  have htag : ∀ fuel fragment, readTag (fuel + 1) fragment (conditionText vx vy)
      (machine.reading r₁ p.content) = .ok () (machine.reading
        (r₂.append text (({} : Markers).macroTitle "if".toList)) p.content) := by
    intro fuel fragment
    have hsign : (Text.trim (conditionText vx vy)).head? = some ':' := by
      rw [trim_conditionText (hcy.phrase.imp fun _ => isItemCharacter_of_isOrdinary)]
      rfl
    rw [readTag_ofMacro (machine.reading r₁ p.content) hstd.markers hsign hparse hopen
      (b := .conditional) (hname ▸ hread) (by rw [hname]; exact hstd.registry ▸ rfl)]
    exact runConditional_chooses (hstd.reading r₂ p.content) hcx hcy hbranch hname hcondition _
  have hlead := leads_tag hstd hr (by simp) hink (fun fuel => htext fuel) htag
  obtain ⟨p', hlead', hr', hink', hcontent⟩ := reads_branch hstd.markers (hbranch.chosen hbranch')
    ⟨[], r₂.append text (({} : Markers).macroTitle "if".toList), p.content⟩ rest
    (by rw [Reader.unread_append, hr₂]) (fun _ => rfl)
  refine ⟨p', hlead.trans hlead', hr', hink', ?_⟩
  rw [hcontent]
  simp [Place.content]

end

/-! ## Both forms -/

/-- **Both forms of a choice come to one of its texts.** The placeholder compares the values as they
are, and the macro compares them without the blanks around them, which makes no difference unless
the values differ in nothing else and spell nothing. The last part is an equivalence, so there is no
other value on which the forms agree without being asked to. -/
theorem parse_choices (hm : machine.Idle) (hx : x.IsWord) (hy : y.IsWord)
    (hvx : machine.parser.environment.argument? x = some vx)
    (hvy : machine.parser.environment.argument? y = some vy) (hcx : IsComparable vx)
    (hcy : IsComparable vy) (hbranch : IsBranch onTrue) (hbranch' : IsBranch onFalse)
    (title : Text) :
    (∃ least, ∀ fuel, least ≤ fuel →
      parse fuel (inlineChoice x y onTrue onFalse) title machine =
          .ok ⟨[], Text.trim (chosen vx vy onTrue onFalse)⟩ machine ∧
        parse fuel (macroChoice x y onTrue onFalse) title machine =
          .ok ⟨[], chosen (Text.trim vx) (Text.trim vy) onTrue onFalse⟩ machine) ∧
      ((Operand.text vx).isEqual (.text vy) =
          (Operand.text (Text.trim vx)).isEqual (.text (Text.trim vy)) ↔
        (Text.trim vx = Text.trim vy → vx = vy ∨ Operand.Spells vx)) := by
  obtain ⟨least, hinline⟩ := parse_inlineChoice hm hx hy hvx hvy hcx.notMem hcy.notMem hbranch
    hbranch' title
  obtain ⟨least', hmacro⟩ := parse_of_reads hm
    (reads_macroChoice hm.standard hcx hcy hbranch hbranch' hx hy hvx hvy) title
  refine ⟨⟨max least least', fun fuel hle => ?_⟩, Operand.isEqual_trim_iff⟩
  exact ⟨hinline fuel (by omega), hmacro fuel (by omega)⟩

/-- A machine with two arguments, `x` and `y`. -/
def comparingMachine (vx vy : Text) : Machine :=
  { parser := { environment :=
      (({} : Environment).setArgument "x".toList vx).setArgument "y".toList vy } }

theorem idle_comparingMachine (vx vy : Text) : (comparingMachine vx vy).Idle :=
  ⟨⟨rfl, rfl, rfl, rfl⟩, rfl, fun phase => by cases phase <;> rfl⟩

/-- Values that are numbers are compared as numbers, in both forms. -/
theorem parse_choices_numbers :
    (∃ least, ∀ fuel, least ≤ fuel →
      parse fuel "\x7b?\x7bx\x7d == \x7by\x7d ? same : other \x7d".toList defaultTitle
          (comparingMachine "07 ".toList " 7".toList) =
        .ok ⟨[], "same".toList⟩ (comparingMachine "07 ".toList " 7".toList) ∧
      parse fuel "<:if \x7bx\x7d == \x7by\x7d>same<:if:else/>other </:if>".toList defaultTitle
          (comparingMachine "07 ".toList " 7".toList) =
        .ok ⟨[], "same".toList⟩ (comparingMachine "07 ".toList " 7".toList)) ∧
      (Operand.text "07 ".toList).isEqual (.text " 7".toList) =
        (Operand.text "07".toList).isEqual (.text "7".toList) := by
  have hcx : IsComparable "07 ".toList :=
    ⟨Text.isPhrase_of_all (by decide) (by decide), by decide⟩
  have hcy : IsComparable " 7".toList :=
    ⟨Text.isPhrase_of_all (by decide) (by decide), by decide⟩
  have hbranch : IsBranch "same".toList := by decide
  have hbranch' : IsBranch "other ".toList := by decide
  have hchosen : chosen "07 ".toList " 7".toList "same".toList "other ".toList = "same".toList := by
    decide +kernel
  have hchosen' : chosen (Text.trim "07 ".toList) (Text.trim " 7".toList) "same".toList
      "other ".toList = "same".toList := by
    decide +kernel
  obtain ⟨hparse, hsame⟩ := parse_choices (x := "x".toList) (y := "y".toList)
    (idle_comparingMachine "07 ".toList " 7".toList) (by decide) (by decide) rfl rfl hcx hcy
    hbranch hbranch' defaultTitle
  -- With blanks and without them both values spell seven, so nothing is lost by trimming.
  rw [hchosen, hchosen'] at hparse
  exact ⟨hparse, hsame.mpr fun h => absurd h (by decide)⟩

/-- A value with an operator in it is an equation in one of the forms only. The tag compares two
numbers and the placeholder a text with a number, whatever the fuel is. -/
theorem not_parse_choices :
    '{' ∉ "1+1".toList ∧ '<' ∉ "1+1".toList ∧ '{' ∉ "2".toList ∧ '<' ∉ "2".toList ∧
    (∀ fuel machine,
      parse fuel "\x7b?\x7bx\x7d == \x7by\x7d ? A : B\x7d".toList defaultTitle
        (comparingMachine "1+1".toList "2".toList) ≠ .ok ⟨[], ['A']⟩ machine) ∧
    ∃ machine, parse 60 "<:if \x7bx\x7d == \x7by\x7d>A<:if:else/>B</:if>".toList defaultTitle
        (comparingMachine "1+1".toList "2".toList) = .ok ⟨[], ['A']⟩ machine := by
  refine ⟨by decide, by decide, by decide, by decide, fun fuel machine h => ?_,
    exists_of_textAlone? (by decide +kernel)⟩
  -- One run of the placeholder is evaluated, and more fuel does not change what it gives.
  obtain ⟨machine', hother⟩ : ∃ machine,
      parse 60 "\x7b?\x7bx\x7d == \x7by\x7d ? A : B\x7d".toList defaultTitle
        (comparingMachine "1+1".toList "2".toList) = .ok ⟨[], ['B']⟩ machine :=
    exists_of_textAlone? (by decide +kernel)
  have hmore := parse_of_le (Nat.le_max_left fuel 60) h
  rw [parse_of_le (Nat.le_max_right fuel 60) hother] at hmore
  have htext := congrArg Parsed.text (EStateM.Result.ok.inj hmore).1
  cases htext

end Engine

end MarkupTemplate
