import MarkupTemplate.Proofs.Audience.Resolution

/-!
# Built-in macros in front of an audience

Built-in macros append text, set arguments and define things, whoever is listening. Two of them add
to the audience. A message is a notice, though not one of a listener; and a hook for nodes of other
names waits behind the parse, where it comes after the listeners that were there before
(`oblivious_runHooking`).
-/

set_option autoImplicit false

namespace MarkupTemplate

namespace Engine

variable (fuel : Nat) (t : Tag)

/-! ## Branches

Conditionals append text, and what they append was in their body. -/

/-- The division of a body goes by markers, strictness and name. -/
theorem oblivious_appendBranch (holds : Bool) : Oblivious (appendBranch t holds) := by
  refine oblivious_markers.bind fun m => oblivious_isStrict.bind fun strict => ?_
  dsimp only
  split
  · exact oblivious_appendFrom _ _
  · exact oblivious_pure _

/-- The anomaly of a missing condition is raised in front of an audience as it is without one. -/
theorem oblivious_runConditional : Oblivious (runConditional fuel t) := by
  unfold runConditional
  dsimp only
  split
  · exact (oblivious_rejectAttributes _ _).bind fun _ => oblivious_appendBranch t _
  · exact (oblivious_holds fuel _).bind fun _ => oblivious_appendBranch t _

theorem oblivious_countMissing (values : List Text) : Oblivious (countMissing fuel values) := by
  induction values with
  | nil => exact oblivious_pure _
  | cons value values ih =>
    exact (oblivious_isMissing fuel value).bind fun _ => ih.bind fun _ => oblivious_pure _

/-- Counting missing values may call actions, and nothing else in it reaches the host. -/
theorem oblivious_runNullCheck (check : NullCheck) : Oblivious (runNullCheck fuel check t) := by
  have hcount : ∀ values : List Text, Oblivious (countMissing fuel values >>= fun n =>
      appendBranch t (check.accepts n values.length)) := fun values =>
    (oblivious_countMissing fuel values).bind fun _ => oblivious_appendBranch t _
  have hrun : ∀ values : List Text, Oblivious (do
      if values = [] then rejectAttributes t.name "nothing to check"
      appendBranch t (check.accepts (← countMissing fuel values) values.length)) := by
    intro values
    dsimp only
    split
    · exact (oblivious_rejectAttributes _ _).bind fun _ => hcount values
    · exact hcount values
  exact hrun _

/-! ## Loops

A loop makes the text of its iterations and appends it. -/

theorem oblivious_appendIterations (iterations : List Repetition.Bindings) :
    Oblivious (appendIterations t iterations) :=
  oblivious_markers.bind fun _ => oblivious_appendFrom _ _

theorem oblivious_runRepetition : Oblivious (runRepetition fuel t) := by
  unfold runRepetition
  split
  · exact (oblivious_int fuel _).bind fun _ => oblivious_appendIterations t _
  · exact oblivious_rejectAttributes _ _

theorem oblivious_arraysOf (pairs : List (Text × Text)) : Oblivious (arraysOf fuel pairs) := by
  induction pairs with
  | nil => exact oblivious_pure _
  | cons pair pairs ih =>
    exact (oblivious_array fuel pair.2).bind fun _ => ih.bind fun _ => oblivious_pure _

theorem oblivious_loopArrays : Oblivious (loopArrays fuel t) := by
  unfold loopArrays
  dsimp only
  split
  · exact (oblivious_rejectAttributes _ _).bind fun _ => oblivious_arraysOf fuel _
  · exact oblivious_arraysOf fuel _

/-- Counting the rounds of a loop, for any condition that is oblivious itself. The induction is on
the fuel. -/
theorem oblivious_countHolding {evaluate : Engine Bool} (h : Oblivious evaluate)
    (limit : Option Nat) (count : Nat) : Oblivious (countHolding evaluate limit fuel count) := by
  induction fuel generalizing count with
  | zero => exact oblivious_throw _
  | succ fuel ih =>
    rw [countHolding]
    split
    · exact oblivious_pure _
    · refine h.bind fun again => ?_
      cases again with
      | false => exact oblivious_pure _
      | true => exact ih _

theorem oblivious_runWhileLoop : Oblivious (runWhileLoop fuel t) := by
  have hrepeat : ∀ limit : Option Nat, Oblivious (countHolding (holds fuel (conditionOf t)) limit
      fuel 0 >>= fun count => appendIterations t (List.replicate count [])) := fun limit =>
    (oblivious_countHolding fuel (oblivious_holds fuel _) limit 0).bind fun _ =>
      oblivious_appendIterations t _
  unfold runWhileLoop
  dsimp only
  split
  · exact oblivious_rejectAttributes _ _
  · split
    · exact (((oblivious_int fuel _).map _).map _).bind hrepeat
    · exact hrepeat none

/-! ## Arguments

Arguments are kept in the environment, which the audience has no part in. -/

/-- Drawing is oblivious, so choosing is, also where there is nothing to choose from. -/
theorem oblivious_choose (texts : List Text) : Oblivious (choose texts) := by
  unfold choose
  split
  · exact oblivious_pure _
  · exact oblivious_draw.bind fun _ => oblivious_pure _

theorem oblivious_assignedValue (how : Assignment) (raw : Text) :
    Oblivious (assignedValue fuel how raw) := by
  cases how with
  | written => exact oblivious_pure _
  | resolved => exact oblivious_string fuel raw
  | calculated => exact oblivious_calculate fuel raw
  | chosen =>
    exact (oblivious_array fuel raw).bind fun _ => (oblivious_choose _).bind fun _ => oblivious_pure _

/-- Assignments in order. A later one may read what an earlier one has set. -/
theorem oblivious_assign (how : Assignment) (pairs : List (Text × Text)) :
    Oblivious (assign fuel how pairs) := by
  induction pairs with
  | nil => exact oblivious_pure _
  | cons pair pairs ih =>
    exact (oblivious_assignedValue fuel how pair.2).bind fun _ =>
      (oblivious_setArgument _ _).bind fun _ => ih

theorem oblivious_runAssignment (how : Assignment) : Oblivious (runAssignment fuel how t) := by
  unfold runAssignment
  split
  · exact oblivious_rejectAttributes _ _
  · exact oblivious_assign fuel how _

theorem oblivious_evaluationArgument : Oblivious (evaluationArgument fuel t) := by
  unfold evaluationArgument
  split
  · exact (oblivious_string fuel _).bind fun _ => oblivious_pure _
  · exact (oblivious_expand fuel _).bind fun _ => oblivious_pure _
  · exact oblivious_pure _

theorem oblivious_runEvaluation : Oblivious (runEvaluation fuel t) := by
  unfold runEvaluation
  split
  · exact oblivious_rejectAttributes _ _
  · refine (oblivious_evaluationArgument fuel t).bind fun _ =>
      (oblivious_invoke _ _).bind fun _ => ?_
    split
    · exact oblivious_setArgument _ _
    · split
      · exact oblivious_appendFrom _ _
      · exact oblivious_pure _

/-! ## Definitions and inclusions

A definition goes into the registry, and the source of inclusions is asked without being told who
asks. -/

theorem oblivious_runDefinition (what : Definable) : Oblivious (runDefinition what t) := by
  refine oblivious_markers.bind fun m => ?_
  dsimp only
  split
  · exact oblivious_modifyRegistry _
  · exact oblivious_rejectAttributes _ _

theorem oblivious_runInclusion (origin : Origin) : Oblivious (runInclusion fuel origin t) := by
  unfold runInclusion
  split
  · exact oblivious_rejectAttributes _ _
  · refine (oblivious_string fuel _).bind fun path => oblivious_markers.bind fun m =>
      oblivious_parser_bind (fun _ _ => rfl) fun p => (oblivious_ofOutcome _).bind fun _ => ?_
    split
    · exact oblivious_append _ _
    · exact oblivious_append _ _

/-! ## Hooks

A hook is hung on the open tag around the macro, or waits behind the parse for nodes that may still
come. The second is the one thing that a template does to the listeners of its parser. -/

theorem oblivious_flag (name : String) : Oblivious (flag fuel t name) := by
  unfold flag
  split
  · exact oblivious_boolean fuel _
  · exact oblivious_pure _

/-- The innermost open tag gets the hook or refuses it, whoever listens. -/
theorem oblivious_hookParent (hook : Hook Node) : Oblivious (hookParent hook) := by
  refine oblivious_parser_bind (fun _ _ => rfl) fun p => ?_
  split
  · split
    · exact (oblivious_modifyParser fun _ _ => rfl).bind fun _ => oblivious_pure _
    · exact oblivious_pure _
  · exact oblivious_pure _

/-- A listener that waits behind the parse comes last, whoever else waits there. -/
theorem oblivious_addAfter (l : Listener) :
    Oblivious (modifyParser fun p => { p with after := p.after ++ [l] }) := by
  refine oblivious_modifyParser fun p a => ?_
  rw [Parser.facing, Parser.facing, List.append_assoc]

/-- A hook for named nodes becomes a listener of the parser, behind all others. It is not notified
yet, so the host hears nothing. -/
theorem oblivious_runHooking (event : WidgetEvent) : Oblivious (runHooking fuel event t) := by
  refine (oblivious_flag fuel t _).bind fun cache => (oblivious_flag fuel t _).bind fun keep => ?_
  dsimp only
  split
  · exact (oblivious_array fuel _).bind fun _ => oblivious_addAfter _
  · refine (oblivious_hookParent _).bind fun hooked => ?_
    split
    · exact oblivious_rejectAttributes _ _
    · exact oblivious_pure _

/-- **Built-in macros are oblivious.** Messages are notices, but none of a listener; everything else
that a macro tells anyone is in the template. -/
theorem oblivious_runBuiltin (b : BuiltinMacro) : Oblivious (runBuiltin fuel b t) := by
  cases b with
  | conditional => exact oblivious_runConditional fuel t
  | nullCheck check => exact oblivious_runNullCheck fuel t check
  | repetition => exact oblivious_runRepetition fuel t
  | parallelLoop =>
    exact (oblivious_loopArrays fuel t).bind fun _ => oblivious_appendIterations t _
  | nestedLoop =>
    exact (oblivious_loopArrays fuel t).bind fun _ => oblivious_appendIterations t _
  | whileLoop => exact oblivious_runWhileLoop fuel t
  | assignment how => exact oblivious_runAssignment fuel t how
  | hooking event => exact oblivious_runHooking fuel t event
  | definition what => exact oblivious_runDefinition t what
  | inclusion origin => exact oblivious_runInclusion fuel t origin
  | comment => exact oblivious_pure _
  | exception => exact (oblivious_string fuel _).bind fun _ => oblivious_fail _
  | log level => exact (oblivious_string fuel _).bind fun _ => oblivious_note rfl
  | evaluation => exact oblivious_runEvaluation fuel t

end Engine

end MarkupTemplate
