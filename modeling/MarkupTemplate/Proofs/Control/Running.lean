import MarkupTemplate.Builtin.Basic
import MarkupTemplate.Proofs.Control.Setting
import MarkupTemplate.Proofs.Control.Substitution

/-!
# Running control macros

All that a control macro does is to put a text in front of what is unread: the branch that its
condition chooses, or the iterations of its body. For the bodies of control terms these texts are
templates again, and this module says of which terms.

So running a macro is a matter of one step that does not scan anything itself. What is appended is
read by the scanner later, like anything else that is unread.
-/

set_option autoImplicit false

namespace MarkupTemplate

open Control

namespace Engine

/-- Whether all that a computation does is to put the text that a macro produced in front of what
is unread. -/
def Appends (x : Engine Unit) (machine : Machine) (name s : Text) : Prop :=
  x machine = .ok () (machine.withReader
    (machine.parser.reader.append s (({} : Markers).macroTitle name)))

variable {machine : Machine} {fuel : Nat} {t : Tag} {name s : Text}

/-- What a macro appends is queued under a title of its own. -/
theorem appendFrom_appends (hm : machine.parser.settings.markers = {}) (name s : Text) :
    Appends (appendFrom name s) machine name s := by
  have hstep : appendFrom name s machine = .ok () (machine.withReader
      (machine.parser.reader.append s (machine.parser.settings.markers.macroTitle name))) := rfl
  rw [Appends, hstep, hm]

theorem return_appends (machine : Machine) (name : Text) : Appends (pure ()) machine name [] := by
  rw [Appends, Reader.append, if_pos rfl, Machine.withReader_self]
  rfl

/-- Behind a part that leaves the machine alone a computation does what it would do first. -/
theorem Appends.bind {α : Type} {x : Engine α} {f : α → Engine Unit} {a : α}
    (hx : x machine = .ok a machine) (hf : Appends (f a) machine name s) :
    Appends (x >>= f) machine name s := by
  rw [Appends, bind_of_ok hx]
  exact hf

/-! ## Conditionals -/

/-- The branch that was chosen is appended, or nothing if there is no second one. -/
theorem appendBranch_appends (hm : machine.parser.settings.markers = {}) {b : Bool} {onTrue : Text}
    {onFalse : Option Text}
    (hb : branches {} machine.parser.settings.strict t.name t.bodyText = (onTrue, onFalse)) :
    Appends (appendBranch t b) machine t.name (if b then onTrue else onFalse.getD []) := by
  rw [Appends, appendBranch, bind_of_ok (markers_eq machine), bind_of_ok (isStrict_eq machine), hm,
    hb]
  cases b with
  | true => exact appendFrom_appends hm t.name onTrue
  | false =>
    cases onFalse with
    | some branch => exact appendFrom_appends hm t.name branch
    | none => exact return_appends machine t.name

/-- A conditional appends the branch that its setting chooses. -/
theorem runConditional_appends (hm : machine.parser.settings.markers = {})
    (hoperators : machine.parser.operators = .standard) {b : Bool} {onTrue : Text}
    {onFalse : Option Text} (ht : t.attributes = .named [("test".toList, writeBool b)])
    (hb : branches {} machine.parser.settings.strict t.name t.bodyText = (onTrue, onFalse)) :
    Appends (runBuiltin fuel .conditional t) machine t.name
      (if b then onTrue else onFalse.getD []) := by
  have hcondition : conditionOf t = writeBool b := by
    rw [conditionOf, ht]
    rfl
  have hblank : ¬ Text.isBlankText (writeBool b) = true := by cases b <;> decide
  rw [runBuiltin, runConditional, hcondition, if_neg hblank]
  exact .bind (holds_writeBool hm hoperators b fuel) (appendBranch_appends hm hb)

/-! ## Loops -/

/-- The iterations of a loop are appended as one text. -/
theorem appendIterations_appends (hm : machine.parser.settings.markers = {})
    (iterations : List Repetition.Bindings) :
    Appends (appendIterations t iterations) machine t.name
      (Repetition.unrolled {} t iterations) := by
  have hstep : appendIterations t iterations machine =
      appendFrom t.name (Repetition.unrolled machine.parser.settings.markers t iterations)
        machine := rfl
  rw [Appends, hstep, hm]
  exact appendFrom_appends hm t.name _

/-- A loop appends as many iterations as its setting says. -/
theorem runRepetition_appends (hm : machine.parser.settings.markers = {}) {times : Nat}
    (htimes : times < 2 ^ 63) (ht : t.attributes = .named [("times".toList, writeNat times)]) :
    Appends (runBuiltin (fuel + 1) .repetition t) machine t.name
      (Repetition.unrolled {} t (List.replicate times [])) := by
  obtain ⟨i, hint, hi⟩ := int_writeNat hm htimes fuel
  have hget : t.attributes.getOr? "times".toList 0 = some (writeNat times) := by
    rw [ht]
    rfl
  have hcount : i.toInt.toNat = times := by
    rw [hi]
    rfl
  rw [runBuiltin, runRepetition, hget]
  refine .bind hint ?_
  rw [hcount]
  exact appendIterations_appends hm _

/-- A loop over one array has an iteration for each of its elements. -/
theorem parallel_singleton (name : Text) (values : List Text) :
    Repetition.parallel [(name, values)] = values.map fun value => [(name, value)] := by
  have hlength : ([(name, values)].map fun a => a.2.length).foldl max 0 = values.length := by simp
  rw [Repetition.parallel, hlength]
  refine List.ext_getElem (by simp) fun i hi hi' => ?_
  have hlt : i < values.length := by simpa using hi
  simp [hlt]

/-- A loop over one array reads it and nothing else. -/
theorem loopArrays_of_array {name value : Text} {values : List Text} {machine' : Machine}
    (ht : t.attributes = .named [(name, value)])
    (h : array fuel value machine = .ok values machine') :
    loopArrays fuel t machine = .ok [(name, values)] machine' := by
  have hstep : loopArrays fuel t machine = arraysOf fuel t.attributes.pairs machine := by
    rw [loopArrays, ht]
    rfl
  rw [hstep, ht, Attributes.pairs, arraysOf, bind_of_ok h]
  rfl

/-- A loop over values appends an iteration for each of them. -/
theorem runParallelLoop_appends (hm : machine.parser.settings.markers = {}) {name : Text}
    {values : List Text} (hv : ∀ value ∈ values, Text.IsWord value)
    (ht : t.attributes = .named [(name, Text.joinWith [';'] values)]) :
    Appends (runBuiltin (fuel + 1) .parallelLoop t) machine t.name
      (Repetition.unrolled {} t (values.map fun value => [(name, value)])) := by
  rw [runBuiltin, runParallelLoop]
  refine .bind (loopArrays_of_array ht (array_joinWith hm hv fuel)) ?_
  rw [parallel_singleton]
  exact appendIterations_appends hm _

end Engine

end MarkupTemplate
