import MarkupTemplate.Proofs.Engine.Resolution
import MarkupTemplate.Proofs.Twin.Resolution

/-!
# Built-in macros on twins

A built-in macro does on a twin what it does on the machine, with one exception. Where a conditional
divides its body depends on whether letter case counts, so on a lax twin the same branch is appended
only if letter case makes no difference to the division. `BuiltinMacro.divides` says which macros
this is about.
-/

set_option autoImplicit false

namespace MarkupTemplate

/-- Whether a macro divides its body into branches. -/
def BuiltinMacro.divides : BuiltinMacro → Bool
  | conditional => true
  | nullCheck _ => true
  | _ => false

namespace Engine

variable {lax : Bool} {fuel fuel' : Nat}

theorem Mirrors.map {α β : Type} {x y : Engine α} (h : Mirrors lax x y) (f : α → β) :
    Mirrors lax (f <$> x) (f <$> y) := by
  rw [← bind_pure_comp, ← bind_pure_comp]
  exact h.bind fun _ => mirrors_pure _

/-! ## Branches

The division of a body is the one thing that a macro does with names of tags, and so the one place
where a macro can tell a lax twin from the machine. -/

section

variable {machine : Machine} {t : Tag}

/-- Whether letter case makes no difference to how the body of a tag is divided: dividing it as the
machine does and dividing it without letter case come to the same. -/
def SameBranches (machine : Machine) (t : Tag) : Prop :=
  branches machine.parser.settings.markers machine.parser.settings.strict t.name t.bodyText =
    branches machine.parser.settings.markers false t.name t.bodyText

/-- Appends one of two branches, as far as it is there. It is what is left of appending a branch
once the body has been divided. -/
def appendChosen (t : Tag) (holds : Bool) (parts : Text × Option Text) : Engine Unit :=
  match if holds then some parts.1 else parts.2 with
  | some branch => appendFrom t.name branch
  | none => return

theorem appendBranch_eq (holds : Bool) (machine : Machine) : appendBranch t holds machine =
    appendChosen t holds (branches machine.parser.settings.markers machine.parser.settings.strict
      t.name t.bodyText) machine := rfl

theorem mirrors_appendChosen (holds : Bool) (parts : Text × Option Text) :
    Mirrors lax (appendChosen t holds parts) (appendChosen t holds parts) := by
  unfold appendChosen
  split
  · exact mirrors_appendFrom _ _
  · exact mirrors_pure _

/-- A branch is appended on both sides if the division is the same, which is asked of a lax twin
only. -/
theorem mirrorsAt_appendBranch (h : lax = true → SameBranches machine t) (holds : Bool) :
    MirrorsAt lax machine (appendBranch t holds) (appendBranch t holds) := by
  have hsame : branches machine.parser.settings.markers (machine.parser.settings.strict && !lax)
      t.name t.bodyText = branches machine.parser.settings.markers
        machine.parser.settings.strict t.name t.bodyText := by
    cases lax with
    | false => rw [Bool.not_false, Bool.and_true]
    | true => rw [Bool.not_true, Bool.and_false]; exact (h rfl).symm
  intro r hr
  rw [appendBranch_eq, appendBranch_eq, Machine.twin, Parser.twin, hsame]
  exact mirrors_appendChosen _ _ machine r hr

theorem mirrors_countMissing (hle : fuel ≤ fuel') (values : List Text) :
    Mirrors lax (countMissing fuel values) (countMissing fuel' values) := by
  induction values with
  | nil => exact mirrors_pure _
  | cons value values ih =>
    exact (mirrors_isMissing hle value).bind fun _ => ih.bind fun _ => mirrors_pure _

variable (hle : fuel ≤ fuel') (h : lax = true → SameBranches machine t)

include hle h

/-- A conditional evaluates its condition first. That leaves the parser as it was, so the division
afterwards is still the one that the hypothesis is about. -/
theorem mirrorsAt_runConditional :
    MirrorsAt lax machine (runConditional fuel t) (runConditional fuel' t) := by
  unfold runConditional
  dsimp only
  split
  · refine (mirrors_rejectAttributes _ _ machine).bind fun _ machine' hreject => ?_
    refine mirrorsAt_appendBranch ?_ _
    -- What ran in front has left the parser alone, so the branches are still the same on both
    -- sides.
    have hparser : SameParser machine machine' := (within_failIfStrict _).of_ok hreject
    rw [SameBranches, hparser]
    exact h
  · refine (mirrors_holds hle _ machine).bind fun _ machine' hholds => ?_
    refine mirrorsAt_appendBranch ?_ _
    have hparser : SameParser machine machine' := (within_holds _).of_ok hholds
    rw [SameBranches, hparser]
    exact h

/-- A null check counts the missing values first, and leaves the parser as it was by that. -/
theorem mirrorsAt_runNullCheck (check : NullCheck) :
    MirrorsAt lax machine (runNullCheck fuel check t) (runNullCheck fuel' check t) := by
  -- From where the values are counted on, whatever machine that starts from: it has the parser that
  -- the hypothesis is about.
  have hcount : ∀ (values : List Text) (machine' : Machine), machine'.parser = machine.parser →
      MirrorsAt lax machine'
        (countMissing fuel values >>= fun n =>
          appendBranch t (check.accepts n values.length))
        (countMissing fuel' values >>= fun n =>
          appendBranch t (check.accepts n values.length)) := by
    intro values machine' hparser
    refine (mirrors_countMissing hle values machine').bind fun n machine'' hcount => ?_
    refine mirrorsAt_appendBranch ?_ _
    have hsame : SameParser machine' machine'' := (within_countMissing _).of_ok hcount
    rw [SameBranches, hsame, hparser]
    exact h
  have hrun : ∀ values : List Text, MirrorsAt lax machine
      (do
        if values = [] then rejectAttributes t.name "nothing to check"
        appendBranch t (check.accepts (← countMissing fuel values) values.length))
      (do
        if values = [] then rejectAttributes t.name "nothing to check"
        appendBranch t (check.accepts (← countMissing fuel' values) values.length)) := by
    intro values
    dsimp only
    split
    · refine (mirrors_rejectAttributes _ _ machine).bind fun _ machine' hreject => ?_
      exact hcount _ _ ((within_failIfStrict (R := SameParser) _).of_ok hreject)
    · exact hcount _ _ rfl
  exact hrun _

end

/-! ## Loops

Loops make one text of their iterations, and that text is the same on both sides. Where they stop is
settled by values and conditions. -/

section

variable (hle : fuel ≤ fuel') (t : Tag)

/-- The markers and the tag are the same, and so are the iterations. -/
theorem mirrors_appendIterations (iterations : List Repetition.Bindings) :
    Mirrors lax (appendIterations t iterations) (appendIterations t iterations) :=
  mirrors_markers.bind fun _ => mirrors_appendFrom _ _

include hle

theorem mirrors_runRepetition : Mirrors lax (runRepetition fuel t) (runRepetition fuel' t) := by
  unfold runRepetition
  split
  · exact (mirrors_int hle _).bind fun _ => mirrors_appendIterations t _
  · exact mirrors_rejectAttributes _ _

theorem mirrors_arraysOf (pairs : List (Text × Text)) :
    Mirrors lax (arraysOf fuel pairs) (arraysOf fuel' pairs) := by
  induction pairs with
  | nil => exact mirrors_pure _
  | cons pair pairs ih =>
    exact (mirrors_array hle pair.2).bind fun _ => ih.bind fun _ => mirrors_pure _

theorem mirrors_loopArrays : Mirrors lax (loopArrays fuel t) (loopArrays fuel' t) := by
  unfold loopArrays
  dsimp only
  split
  · exact (mirrors_rejectAttributes _ _).bind fun _ => mirrors_arraysOf hle _
  · exact mirrors_arraysOf hle _

/-- A loop with a condition counts the same rounds on both sides. The induction is on the fuel of
the machine, as in `mirrors_expand`. -/
theorem mirrors_countHolding {evaluate evaluate' : Engine Bool} (h : Mirrors lax evaluate evaluate')
    (limit : Option Nat) (count : Nat) : Mirrors lax (countHolding evaluate limit fuel count)
      (countHolding evaluate' limit fuel' count) := by
  induction fuel generalizing fuel' count with
  | zero => exact mirrors_exhausted
  | succ fuel ih =>
    obtain ⟨more, rfl⟩ : ∃ more, fuel' = more + 1 := ⟨fuel' - 1, by omega⟩
    rw [countHolding, countHolding]
    split
    · exact mirrors_pure _
    · refine h.bind fun again => ?_
      cases again with
      | false => exact mirrors_pure _
      | true => exact ih (Nat.le_of_succ_le_succ hle) _

theorem mirrors_runWhileLoop : Mirrors lax (runWhileLoop fuel t) (runWhileLoop fuel' t) := by
  unfold runWhileLoop
  dsimp only
  split
  · exact mirrors_rejectAttributes _ _
  · split
    · exact (((mirrors_int hle _).map _).map _).bind fun _ =>
        (mirrors_countHolding hle (mirrors_holds hle _) _ _).bind fun _ =>
          mirrors_appendIterations t _
    · exact (mirrors_countHolding hle (mirrors_holds hle _) _ _).bind fun _ =>
          mirrors_appendIterations t _

/-! ## Arguments

Setting arguments is the same change on both sides, and a random choice draws from the same
stream. -/

omit hle in
/-- A random choice is the same choice: the texts to choose from are equal, and so is the number
that is drawn. -/
theorem mirrors_choose (texts : List Text) : Mirrors lax (choose texts) (choose texts) := by
  unfold choose
  split
  · exact mirrors_pure _
  · exact mirrors_draw.bind fun _ => mirrors_pure _

/-- The value of an assignment, however it is made. -/
theorem mirrors_assignedValue (how : Assignment) (raw : Text) :
    Mirrors lax (assignedValue fuel how raw) (assignedValue fuel' how raw) := by
  cases how with
  | written => exact mirrors_pure _
  | resolved => exact mirrors_string hle raw
  | calculated => exact mirrors_calculate hle raw
  | chosen =>
    exact (mirrors_array hle raw).bind fun _ => (mirrors_choose _).bind fun _ => mirrors_pure _

theorem mirrors_assign (how : Assignment) (pairs : List (Text × Text)) :
    Mirrors lax (assign fuel how pairs) (assign fuel' how pairs) := by
  induction pairs with
  | nil => exact mirrors_pure _
  | cons pair pairs ih =>
    exact (mirrors_assignedValue hle how pair.2).bind fun _ =>
      (mirrors_setArgument _ _).bind fun _ => ih

theorem mirrors_runAssignment (how : Assignment) :
    Mirrors lax (runAssignment fuel how t) (runAssignment fuel' how t) := by
  unfold runAssignment
  split
  · exact mirrors_rejectAttributes _ _
  · exact mirrors_assign hle how _

theorem mirrors_evaluationArgument :
    Mirrors lax (evaluationArgument fuel t) (evaluationArgument fuel' t) := by
  unfold evaluationArgument
  split
  · exact (mirrors_string hle _).bind fun _ => mirrors_pure _
  · exact (mirrors_expand hle _).bind fun _ => mirrors_pure _
  · exact mirrors_pure _

theorem mirrors_runEvaluation : Mirrors lax (runEvaluation fuel t) (runEvaluation fuel' t) := by
  unfold runEvaluation
  split
  · exact mirrors_rejectAttributes _ _
  · refine (mirrors_evaluationArgument hle t).bind fun _ => (mirrors_invoke _ _).bind fun _ => ?_
    split
    · exact mirrors_setArgument _ _
    · split
      · exact mirrors_appendFrom _ _
      · exact mirrors_pure _

/-! ## Definitions, inclusions and hooks

These change what twins share: the registry, the environment's answers and the hooks of a node. -/

omit hle in
theorem mirrors_runDefinition (what : Definable) :
    Mirrors lax (runDefinition what t) (runDefinition what t) := by
  refine mirrors_markers.bind fun m => ?_
  dsimp only
  split
  · exact mirrors_modifyRegistry _
  · exact mirrors_rejectAttributes _ _

theorem mirrors_runInclusion (origin : Origin) :
    Mirrors lax (runInclusion fuel origin t) (runInclusion fuel' origin t) := by
  unfold runInclusion
  split
  · exact mirrors_rejectAttributes _ _
  · refine (mirrors_string hle _).bind fun path => mirrors_markers.bind fun m =>
      mirrors_parser_bind fun p r _ => (mirrors_ofOutcome _).bind fun _ => ?_
    split
    · exact mirrors_append _ _
    · exact mirrors_append _ _

theorem mirrors_flag (name : String) : Mirrors lax (flag fuel t name) (flag fuel' t name) := by
  unfold flag
  split
  · exact mirrors_boolean hle _
  · exact mirrors_pure _

omit hle in
/-- The innermost open tag is the same node on both sides, and takes the hook or does not. -/
theorem mirrors_hookParent (hook : Hook Node) :
    Mirrors lax (hookParent hook) (hookParent hook) := by
  refine mirrors_parser_bind fun p r _ => ?_
  dsimp only [Parser.twin]
  split
  · split
    · refine Mirrors.bind (mirrors_modifyParser_apart ?_ ?_) fun _ => mirrors_pure _
      · exact fun _ _ => rfl
      · exact fun _ => rfl
    · exact mirrors_pure _
  · exact mirrors_pure _

theorem mirrors_runHooking (event : WidgetEvent) :
    Mirrors lax (runHooking fuel event t) (runHooking fuel' event t) := by
  refine (mirrors_flag hle t _).bind fun cache => (mirrors_flag hle t _).bind fun keep => ?_
  dsimp only
  split
  · exact (mirrors_array hle _).bind fun _ =>
      mirrors_modifyParser_apart (fun _ _ => rfl) fun _ => rfl
  · refine (mirrors_hookParent _).bind fun hooked => ?_
    split
    · exact mirrors_rejectAttributes _ _
    · exact mirrors_pure _

/-- **Built-in macros do the same on a twin**, if letter case makes no difference to branches. There
is one case for each macro, and only those that divide their body use the hypothesis. -/
theorem mirrorsAt_runBuiltin {machine : Machine} (b : BuiltinMacro)
    (h : lax = true → b.divides = true → SameBranches machine t) :
    MirrorsAt lax machine (runBuiltin fuel b t) (runBuiltin fuel' b t) := by
  -- Only the two that divide a body need to know that it divides alike.
  cases b with
  | conditional => exact mirrorsAt_runConditional hle fun hlax => h hlax rfl
  | nullCheck check => exact mirrorsAt_runNullCheck hle (fun hlax => h hlax rfl) check
  | repetition => exact mirrors_runRepetition hle t machine
  | parallelLoop =>
    exact ((mirrors_loopArrays hle t).bind fun _ => mirrors_appendIterations t _) machine
  | nestedLoop =>
    exact ((mirrors_loopArrays hle t).bind fun _ => mirrors_appendIterations t _) machine
  | whileLoop => exact mirrors_runWhileLoop hle t machine
  | assignment how => exact mirrors_runAssignment hle t how machine
  | hooking event => exact mirrors_runHooking hle t event machine
  | definition what => exact mirrors_runDefinition t what machine
  | inclusion origin => exact mirrors_runInclusion hle t origin machine
  | comment => exact mirrors_pure _ machine
  | exception => exact ((mirrors_string hle _).bind fun _ => mirrors_fail _) machine
  | log level => exact ((mirrors_string hle _).bind fun _ => mirrors_note _) machine
  | evaluation => exact mirrors_runEvaluation hle t machine

end

end Engine

end MarkupTemplate
