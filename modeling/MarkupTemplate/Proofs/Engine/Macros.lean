import MarkupTemplate.Builtin.Basic
import MarkupTemplate.Proofs.Engine.Resolution

/-!
# Built-in macros

A built-in macro may resolve values, set arguments, append template text, register definitions and
add hooks, to the widget around it or behind the parse. So it keeps what a `Reading` invariant says
(`keeps_runBuiltin`): no tag is opened or closed by it, and no setting is touched.

The lemmas go through the macros as they are defined, from what several of them share to each of
their own. A change to one macro is a change to one lemma here.
-/

set_option autoImplicit false

namespace MarkupTemplate

namespace Engine

variable {I : Machine → Prop} {G : Stop → Prop} [hI : Reading I G] {fuel : Nat}

/-! ## Text and arguments

What almost every macro ends with: it puts text in front of the reader, or sets an argument. -/

theorem keeps_append (text name : Text) : Keeps I G (append text name) :=
  keeps_modifyParser fun _ => hI.append text name

theorem keeps_setArgument (name value : Text) : Keeps I G (setArgument name value) :=
  keeps_modifyParser fun _ => hI.environment _

theorem keeps_appendFrom (macroName text : Text) : Keeps I G (appendFrom macroName text) :=
  keeps_markers.bind fun _ => keeps_append _ _

/-! ## Branches

Conditionals. What they append comes out of their own body, and the invariant does not ask which
branch it is. -/

variable (t : Tag)

theorem keeps_appendBranch (holds : Bool) : Keeps I G (appendBranch t holds) := by
  refine keeps_markers.bind fun m => keeps_isStrict.bind fun strict => ?_
  dsimp only
  split
  · exact keeps_appendFrom _ _
  · exact keeps_pure _

theorem keeps_runConditional : Keeps I G (runConditional fuel t) := by
  unfold runConditional
  dsimp only
  split
  · exact (keeps_rejectAttributes _ _).bind fun _ => keeps_appendBranch t _
  · exact (keeps_holds _).bind fun _ => keeps_appendBranch t _

/-- The values are looked at one after another, and the branch is appended behind all of them. -/
theorem keeps_runNullCheck (check : NullCheck) : Keeps I G (runNullCheck fuel check t) := by
  have hrun : ∀ values : List Text, Keeps I G (do
      if values = [] then rejectAttributes t.name "nothing to check"
      appendBranch t (check.accepts (← countMissing fuel values) values.length)) := by
    intro values
    dsimp only
    split
    · exact (keeps_rejectAttributes _ _).bind fun _ => (keeps_countMissing _).bind fun _ =>
        keeps_appendBranch t _
    · exact (keeps_countMissing _).bind fun _ => keeps_appendBranch t _
  exact hrun _

/-! ## Loops

Loops append one text each. The number of iterations is of no concern here: what is asked of the
invariant is the same for one and for many. -/

theorem keeps_appendIterations (iterations : List Repetition.Bindings) :
    Keeps I G (appendIterations t iterations) :=
  keeps_markers.bind fun _ => keeps_appendFrom _ _

theorem keeps_runRepetition : Keeps I G (runRepetition fuel t) := by
  unfold runRepetition
  split
  · exact (keeps_int _).bind fun _ => keeps_appendIterations t _
  · exact keeps_rejectAttributes _ _

theorem keeps_arraysOf (pairs : List (Text × Text)) : Keeps I G (arraysOf fuel pairs) := by
  induction pairs with
  | nil => exact keeps_pure _
  | cons pair pairs ih =>
    exact (keeps_array pair.2).bind fun _ => ih.bind fun _ => keeps_pure _

theorem keeps_loopArrays : Keeps I G (loopArrays fuel t) := by
  unfold loopArrays
  dsimp only
  split
  · exact (keeps_rejectAttributes _ _).bind fun _ => keeps_arraysOf _
  · exact keeps_arraysOf _

/-- A condition that keeps the invariant may be evaluated again and again, by induction on the
fuel. -/
theorem keeps_countHolding {evaluate : Engine Bool} (h : Keeps I G evaluate)
    (limit : Option Nat) (count : Nat) : Keeps I G (countHolding evaluate limit fuel count) := by
  induction fuel generalizing count with
  | zero => exact keeps_throw hI.exhausted
  | succ fuel ih =>
    rw [countHolding]
    split
    · exact keeps_pure _
    · refine h.bind fun again => ?_
      cases again with
      | false => exact keeps_pure _
      | true => exact ih _

theorem keeps_runWhileLoop : Keeps I G (runWhileLoop fuel t) := by
  unfold runWhileLoop
  dsimp only
  split
  · exact keeps_rejectAttributes _ _
  · split
    · exact (((keeps_int _).map _).map _).bind fun _ =>
        (keeps_countHolding (keeps_holds _) _ _).bind fun _ => keeps_appendIterations t _
    · exact (keeps_countHolding (keeps_holds _) _ _).bind fun _ => keeps_appendIterations t _

/-! ## Arguments

Assignments in all their forms. A random choice changes the stream of random numbers, for which the
invariant has a field of its own. -/

/-- A choice draws one number, or none from an empty array. -/
theorem keeps_choose (texts : List Text) : Keeps I G (choose texts) := by
  have hdraw : Keeps I G draw := fun _ hm => ⟨hI.draws _ hm, fun _ _ h => by cases h⟩
  unfold choose
  split
  · exact keeps_pure _
  · exact hdraw.bind fun _ => keeps_pure _

theorem keeps_assignedValue (how : Assignment) (raw : Text) :
    Keeps I G (assignedValue fuel how raw) := by
  cases how with
  | written => exact keeps_pure _
  | resolved => exact keeps_string raw
  | calculated => exact keeps_calculate raw
  | chosen => exact (keeps_array raw).bind fun _ => (keeps_choose _).bind fun _ => keeps_pure _

theorem keeps_assign (how : Assignment) (pairs : List (Text × Text)) :
    Keeps I G (assign fuel how pairs) := by
  induction pairs with
  | nil => exact keeps_pure _
  | cons pair pairs ih =>
    exact (keeps_assignedValue how pair.2).bind fun _ => (keeps_setArgument _ _).bind fun _ => ih

theorem keeps_runAssignment (how : Assignment) : Keeps I G (runAssignment fuel how t) := by
  unfold runAssignment
  split
  · exact keeps_rejectAttributes _ _
  · exact keeps_assign how _

theorem keeps_evaluationArgument : Keeps I G (evaluationArgument fuel t) := by
  unfold evaluationArgument
  split
  · exact (keeps_string _).bind fun _ => keeps_pure _
  · exact (keeps_expand _ _).bind fun _ => keeps_pure _
  · exact keeps_pure _

theorem keeps_runEvaluation : Keeps I G (runEvaluation fuel t) := by
  unfold runEvaluation
  split
  · exact keeps_rejectAttributes _ _
  · refine (keeps_evaluationArgument t).bind fun _ => (keeps_invoke _ _).bind fun _ => ?_
    split
    · exact keeps_setArgument _ _
    · split
      · exact keeps_appendFrom _ _
      · exact keeps_pure _

/-! ## Definitions, inclusions and hooks

What reaches beyond the template: the registry, the source, and the listeners behind the parse. -/

theorem keeps_define (what : Definable) (d : Definition) : Keeps I G (define what t d) :=
  fun _ hm => ⟨hI.define what t d hm, fun _ _ h => by cases h⟩

theorem keeps_runDefinition (what : Definable) : Keeps I G (runDefinition what t) := by
  refine keeps_markers.bind fun m => ?_
  dsimp only
  split
  · exact keeps_define t what _
  · exact keeps_rejectAttributes _ _

/-- A template of the source is put in front of the reader. That it cannot be read is no anomaly but
an error in either mode. -/
theorem keeps_runInclusion (origin : Origin) : Keeps I G (runInclusion fuel origin t) := by
  unfold runInclusion
  split
  · exact keeps_rejectAttributes _ _
  · refine (keeps_string _).bind fun path => keeps_markers.bind fun m => ?_
    refine keeps_currentParser.bind fun p =>
      (keeps_ofOutcome (Source.mild_read _ _ _)).bind fun _ => ?_
    split
    · exact keeps_append _ _
    · exact keeps_append _ _

theorem keeps_flag (name : String) : Keeps I G (flag fuel t name) := by
  unfold flag
  split
  · exact keeps_boolean _
  · exact keeps_pure _

/-- A hook changes the widget of a node and nothing else. -/
theorem Node.eq_of_addHook? {hook : Hook Node} {n n' : Node} (h : n.addHook? hook = some n') :
    ∃ w, n' = n.withWidget w := by
  obtain ⟨w, _, hw⟩ := Option.map_eq_some_iff.mp h
  exact ⟨some w, hw.symm⟩

/-- The node that gets the hook is the innermost open tag, so its place on the stack is the one that
the invariant knows. -/
theorem keeps_hookParent (hook : Hook Node) : Keeps I G (hookParent hook) := by
  intro machine hm
  unfold hookParent
  refine KeepsAt.bind (keeps_currentParser machine hm) fun p machine' hp _ => ?_
  obtain ⟨rfl, rfl⟩ := EStateM.Result.ok.inj hp
  -- Only where there is an open tag, and where it takes the hook, is anything changed.
  cases hparents : machine.parser.parents with
  | nil => exact keeps_pure _ machine hm
  | cons parent outer =>
    dsimp only
    cases hhook : parent.addHook? hook with
    | none => exact keeps_pure _ machine hm
    | some hooked =>
      obtain ⟨w, rfl⟩ := Node.eq_of_addHook? hhook
      exact ⟨hI.widget w hparents hm, fun _ _ h => by cases h⟩

/-- The hook is added to the widget around the macro or waits behind the parse, depending on whether
names are given. -/
theorem keeps_runHooking (event : WidgetEvent) : Keeps I G (runHooking fuel event t) := by
  refine (keeps_flag t _).bind fun cache => (keeps_flag t _).bind fun keep => ?_
  dsimp only
  split
  · exact (keeps_array _).bind fun _ => keeps_modifyParser fun _ => hI.deferred _ _ _
  · refine (keeps_hookParent _).bind fun hooked => ?_
    split
    · exact keeps_rejectAttributes _ _
    · exact keeps_pure _

/-- **A built-in macro keeps what a reading invariant says**, whichever it is. -/
theorem keeps_runBuiltin (b : BuiltinMacro) : Keeps I G (runBuiltin fuel b t) := by
  cases b with
  | conditional => exact keeps_runConditional t
  | nullCheck check => exact keeps_runNullCheck t check
  | repetition => exact keeps_runRepetition t
  | parallelLoop => exact (keeps_loopArrays t).bind fun _ => keeps_appendIterations t _
  | nestedLoop => exact (keeps_loopArrays t).bind fun _ => keeps_appendIterations t _
  | whileLoop => exact keeps_runWhileLoop t
  | assignment how => exact keeps_runAssignment t how
  | hooking event => exact keeps_runHooking t event
  | definition what => exact keeps_runDefinition t what
  | inclusion origin => exact keeps_runInclusion t origin
  | comment => exact keeps_pure _
  | exception => exact (keeps_string _).bind fun _ => keeps_fail rfl
  | log level => exact (keeps_string _).bind fun _ => keeps_note _
  | evaluation => exact keeps_runEvaluation t

/-! ## Frames

The one change that is used for itself elsewhere. -/

section

variable {R : Machine → Machine → Prop}

theorem within_append [hR : MovingFrame R] (text name : Text) : Within R (append text name) :=
  fun m => hR.reader m _

end

end Engine

end MarkupTemplate
