import MarkupTemplate.Proofs.Control.Flow
import MarkupTemplate.Proofs.Control.Scanning

/-!
# Where the text of a control template goes

The scanner hands over runs of text without a look at who takes them: the document, or the element
whose tag is open. So what a template brings in is said once for all of them. A **sink** is the
machine after each row of runs that it may have taken, and `Collects` that one more run leads from
one of these machines to the next.

`Carries` is that reading a text, wherever it stands, changes the flow of text in a given way. The
main result is that the template of a control term does what `Term.flow` says (`carries_write`). It
is by induction on the term, for all values that its variables may have been given by then: the body
of a loop is read once for each iteration, with other values each time. How deep macros are nested
in each other, and in which order, does not matter to it, as a macro is read as the templates that
it appends.

The induction is on the term and not on the text. The text of a macro is captured, cut and replaced
before any of it is scanned, so what is scanned next is never a part of what stood there: it is the
template of a smaller term, under more values.
-/

set_option autoImplicit false

namespace MarkupTemplate

open Control

namespace Engine

/-! ## Sinks

A sink gives the machine for any runs, and not only for those that a template has brought in so far.
So it can be started anywhere, and the induction has no machine to carry along. -/

/-- Whether machines take one run of text after another, and read templates in the usual way. -/
structure Collects (sink : List Text → Machine) : Prop where
  markers : ∀ runs, (sink runs).parser.settings.markers = {}
  registry : ∀ runs, (sink runs).registry = .standard
  operators : ∀ runs, (sink runs).parser.operators = .standard
  takes : ∀ runs run r, Text.isBlankText run = false →
    addText run ((sink runs).withReader r) = .ok () ((sink (runs ++ [run])).withReader r)

/-- Whether reading a text, wherever it stands, changes the flow of text in a given way. The rest of
the text is arbitrary, and stays to be read. -/
def Carries (sink : List Text → Machine) (s : Text) (change : Flow → Flow) : Prop :=
  ∀ f r rest, f.Inked → r.unread = s ++ rest →
    (change f).Inked ∧ ∃ r', r'.unread = rest ∧
      Proceeds f.current.reverse ((sink f.runs).withReader r)
        (change f).current.reverse ((sink (change f).runs).withReader r')

variable {sink : List Text → Machine} {s s' : Text} {change change' : Flow → Flow}

/-- A sink has the usual markers wherever its reader is. -/
theorem Collects.markers_withReader (h : Collects sink) (runs : List Text) (r : Reader) :
    ((sink runs).withReader r).parser.settings.markers = {} := h.markers runs

theorem Collects.operators_withReader (h : Collects sink) (runs : List Text) (r : Reader) :
    ((sink runs).withReader r).parser.operators = .standard := h.operators runs

theorem Collects.addText_current (h : Collects sink) {f : Flow} (hink : f.Inked) (r : Reader) :
    addText f.current.reverse.reverse ((sink f.runs).withReader r) =
      .ok () ((sink f.flush.runs).withReader r) := by
  rw [List.reverse_reverse]
  by_cases hnil : f.current = []
  · rw [Flow.flush, if_pos hnil, hnil]
    exact addText_nil _
  · rw [Flow.flush, if_neg hnil]
    exact h.takes f.runs f.current r (hink.isBlankText hnil)

/-! ## Texts in a row

`Carries` is made to be put together: texts next to each other change the flow one after another. -/

theorem carries_nil : Carries sink [] id :=
  fun _ r _ hink hr => ⟨hink, r, hr, .refl _ _⟩

/-- Two texts in a row change the flow one after the other. -/
theorem Carries.append (h : Carries sink s change) (h' : Carries sink s' change') :
    Carries sink (s ++ s') (fun f => change' (change f)) := by
  intro f r rest hink hr
  rw [List.append_assoc] at hr
  obtain ⟨hink₁, r₁, hr₁, hproceeds⟩ := h f r _ hink hr
  obtain ⟨hink₂, r₂, hr₂, hproceeds'⟩ := h' (change f) r₁ rest hink₁ hr₁
  exact ⟨hink₂, r₂, hr₂, hproceeds.trans hproceeds'⟩

/-- Many texts in a row do so from the first to the last. -/
theorem carries_foldl {α : Type} {l : List α} {text : α → Text} {step : α → Flow → Flow}
    (h : ∀ a ∈ l, Carries sink (text a) (step a)) :
    Carries sink (l.flatMap text) (fun f => l.foldl (fun f a => step a f) f) := by
  induction l with
  | nil => exact carries_nil
  | cons a l ih =>
    obtain ⟨ha, hl⟩ := List.forall_mem_cons.mp h
    exact ha.append (ih hl)

/-- Text without markup joins the text in front of it, if it is not blank. -/
theorem carries_text (hsink : Collects sink) (hblank : Text.isBlankText s = false) (htag : '<' ∉ s)
    (hbrace : '{' ∉ s) : Carries sink s (fun f => f.add s) := by
  intro f r rest hink hr
  obtain ⟨r', hr', hproceeds⟩ := exists_proceeds_text ((sink f.runs).withReader r)
    (hsink.markers f.runs) htag hbrace f.current.reverse hr
  refine ⟨hink.add hblank, r', hr', ?_⟩
  rw [← List.reverse_append] at hproceeds
  exact hproceeds

/-! ## Macros

All three macros come down to one statement, that a macro is read as what it appends. What they
append is left to the modules on running them. -/

/-- A macro cuts off the text in front of it and is read as what it appends. -/
theorem Carries.macroTag {name setting key value body : Text} {b : BuiltinMacro}
    (hcarries : Carries sink s change) (hsink : Collects sink) (hn : name ∈ names)
    (h : IsSetting setting key value)
    (hbody : ∀ strict, TagPattern.Level ⟨name, true, strict⟩ {} body)
    (hmaker : Registry.standard.macroMaker? name = some (.native (.builtin b)))
    (hrun : ∀ fuel runs r,
      Appends (runBuiltin (fuel + 1) b ((macroOf name setting key value).bodied body))
        ((sink runs).withReader r) name s) :
    Carries sink (macroTag name setting body) (fun f => change f.flush) := by
  intro f r rest hink hr
  obtain ⟨r₁, hr₁, hproceeds⟩ := proceeds_macroTag ((sink f.runs).withReader r) (sink f.flush.runs)
    (hsink.markers _) (hsink.markers _) (hsink.registry _) hn h (hbody _) hmaker
    (hsink.addText_current hink) (fun fuel r => hrun fuel f.flush.runs r) hr
  obtain ⟨hink', r₂, hr₂, hproceeds'⟩ := hcarries f.flush r₁ rest hink.flush hr₁
  rw [Flow.current_flush] at hproceeds'
  exact ⟨hink', r₂, hr₂, hproceeds.trans hproceeds'⟩

/-- A conditional is read as the branch that its setting chooses. -/
theorem Carries.conditional {holds : Bool} {body onTrue : Text} {onFalse : Option Text}
    (hcarries : Carries sink (if holds then onTrue else onFalse.getD []) change)
    (hsink : Collects sink)
    (hbody : ∀ strict, TagPattern.Level ⟨"if".toList, true, strict⟩ {} body)
    (hbranches : ∀ strict, branches {} strict "if".toList body = (onTrue, onFalse)) :
    Carries sink (Control.macroTag "if".toList (testSetting holds) body)
      (fun f => change f.flush) :=
  hcarries.macroTag hsink (by decide) (isSetting_test holds) hbody (b := .conditional) (by rfl)
    fun _ runs r => runConditional_appends (hsink.markers_withReader runs r)
      (hsink.operators_withReader runs r) rfl (hbranches _)

theorem Carries.repeated {times : Nat} {body : Text}
    (hcarries : Carries sink (Repetition.unrolled {}
      ((macroOf "loop".toList (timesSetting times) "times".toList (writeNat times)).bodied body)
      (List.replicate times [])) change) (hsink : Collects sink) (htimes : times < 2 ^ 63)
    (hbody : ∀ strict, TagPattern.Level ⟨"loop".toList, true, strict⟩ {} body) :
    Carries sink (Control.macroTag "loop".toList (timesSetting times) body)
      (fun f => change f.flush) :=
  hcarries.macroTag hsink (by decide) (isSetting_times times) hbody (b := .repetition) (by rfl)
    fun _ runs r => runRepetition_appends (hsink.markers_withReader runs r) htimes rfl

theorem Carries.forEach {name : Text} {values : List Text} {body : Text}
    (hcarries : Carries sink (Repetition.unrolled {}
      ((macroOf "each".toList (valuesSetting name values) name
        (Text.joinWith [';'] values)).bodied body)
      (values.map fun value => [(name, value)])) change) (hsink : Collects sink)
    (hk : isKey name = true) (hv : ∀ value ∈ values, Text.IsWord value)
    (hbody : ∀ strict, TagPattern.Level ⟨"each".toList, true, strict⟩ {} body) :
    Carries sink (Control.macroTag "each".toList (valuesSetting name values) body)
      (fun f => change f.flush) :=
  hcarries.macroTag hsink (by decide) (isSetting_values hk hv) hbody (b := .parallelLoop) (by rfl)
    fun _ runs r => runParallelLoop_appends (hsink.markers_withReader runs r) hv rfl

/-! ## Terms

One case for each kind of term. In those with a body, what the macro appends is first found to be
the template of the body, or of both branches, under the values it has then. -/

section

variable {given : Values} {vars counts : List Text} {t : Term}

/-- The body of a conditional without a second branch is its only branch: the tags between branches
in it are those of other conditionals. -/
theorem branches_write (strict : Bool) (hfit : given.Fit vars counts) (h : t.Scoped vars) :
    branches {} strict "if".toList (t.write given) = (t.write given, none) := by
  have huncut := uncut_write strict hfit.words hfit.keys h
  have hsplit := huncut.splitBranches?_eq_none
  simp only [branches]
  rw [show TagPattern.splitBranches? _ ⟨({} : Markers).elseName "if".toList, true, strict⟩ {} 0
    (t.write given) = none from hsplit]

/-- The body of a choice is cut at its own tag, in front of the second branch. -/
theorem branches_choice (strict : Bool) (hfit : given.Fit vars counts) (h : t.Scoped vars)
    (onFalse : Text) : branches {} strict "if".toList (t.write given ++ elseTag ++ onFalse) =
      (t.write given, some onFalse) := by
  have huncut := uncut_write strict hfit.words hfit.keys h
  have hsplit := huncut.splitBranches?_eq_some divides_elseText onFalse
  simp only [branches]
  rw [show TagPattern.splitBranches? _ ⟨({} : Markers).elseName "if".toList, true, strict⟩ {} 0
    (t.write given ++ elseTag ++ onFalse) = some (t.write given, onFalse) from hsplit]

/-- **The text of the template of a term comes in as the text of the term does.** -/
theorem carries_write (hsink : Collects sink) (hfit : given.Fit vars counts) (h : t.Scoped vars)
    (ha : t.AvoidsCounts counts) : Carries sink (t.write given) (t.flow given) := by
  -- The values change on the way into a loop, and so do the names that are taken.
  induction t generalizing given vars counts with
  | empty => exact carries_nil
  | text s => exact carries_text hsink h.1 h.2.1 h.2.2
  | use x =>
    obtain ⟨value, hvalue⟩ := Option.isSome_iff_exists.mp (hfit.isSome x h)
    have hword := hfit.words x value hvalue
    have hcarries := carries_text hsink hword.isBlankText (hword.notMem (by decide))
      (hword.notMem (by decide))
    have hwrite : (Term.use x).write given = value := by rw [Term.write, hvalue]; rfl
    have hflow : (Term.use x).flow given = fun f => f.add value := by
      funext f
      rw [Term.flow, hvalue]
      rfl
    rw [hwrite, hflow]
    exact hcarries
  | append first second ihf ihs => exact (ihf hfit h.1 ha.1).append (ihs hfit h.2 ha.2)
  | conditional holds body ih =>
    have hscoped : body.Scoped vars := h
    -- Both branches and the tag between them are one body when it is captured.
    have hlevel := fun strict =>
      level_write strict (by decide : "if".toList ∈ names) hfit.words hfit.keys hscoped
    have hbranches := fun strict => branches_write strict hfit hscoped
    have hnone : Carries sink (if false then body.write given else none.getD []) id := carries_nil
    cases holds with
    | true => exact (ih hfit hscoped ha).conditional hsink hlevel hbranches
    | false => exact hnone.conditional hsink hlevel hbranches
  | choice holds onTrue onFalse iht ihf =>
    have hif : "if".toList ∈ names := by decide
    have hlevel := fun strict =>
      ((level_write strict hif hfit.words hfit.keys h.1).append
        (ignores_elseText strict hif).level).append
          (level_write strict hif hfit.words hfit.keys h.2)
    have hbranches := fun strict => branches_choice strict hfit h.1 (onFalse.write given)
    cases holds with
    | true => exact (iht hfit h.1 ha.1).conditional hsink hlevel hbranches
    | false => exact (ihf hfit h.2 ha.2).conditional hsink hlevel hbranches
  | repeated times body ih =>
    have hlevel := fun strict =>
      level_write strict (by decide : "loop".toList ∈ names) hfit.words hfit.keys h.2
    have hbody := ih (hfit.count (countName "loop".toList)) h.2 ha
    -- An iteration replaces nothing but the count, which the body does not have.
    have hunrolled : Repetition.unrolled {} ((macroOf "loop".toList (timesSetting times)
        "times".toList (writeNat times)).bodied (body.write given))
        ((List.replicate times (body.flow given)).map fun _ => []) =
        (List.replicate times (body.flow given)).flatMap fun _ => body.write given := by
      refine unrolled_map fun _ _ count => iteration_repeated hfit h.2 ?_ rfl count
      exact ha
    have hiterations : Carries sink
        ((List.replicate times (body.flow given)).flatMap fun _ => body.write given)
        (fun f => (List.replicate times (body.flow given)).foldl (fun f step => step f) f) :=
      carries_foldl fun step hmem => by rw [List.eq_of_mem_replicate hmem]; exact hbody
    rw [← hunrolled, List.map_replicate] at hiterations
    exact hiterations.repeated hsink h.1 hlevel
  | forEach x values body ih =>
    obtain ⟨hk, hx, hv, hbody⟩ := h
    have hlevel := fun strict => level_write strict (by decide : "each".toList ∈ names) hfit.words
      (List.forall_mem_cons.mpr ⟨hk, hfit.keys⟩) hbody
    have hunrolled : Repetition.unrolled {} ((macroOf "each".toList (valuesSetting x values) x
        (Text.joinWith [';'] values)).bodied (body.write given))
        (values.map fun value => [(x, value)]) =
        values.flatMap fun value => body.write (given.give x value) := by
      refine unrolled_map fun value _ count => iteration_forEach hfit hk hx ?_ hbody ?_ rfl count
      · exact ha.1
      · exact ha.2
    have hiterations := carries_foldl fun value hvalue =>
      ih ((hfit.count (countName "each".toList)).give hk (hv value hvalue)) hbody ha.2
    rw [← hunrolled] at hiterations
    exact hiterations.forEach hsink hk hv hlevel

end

end Engine

end MarkupTemplate
