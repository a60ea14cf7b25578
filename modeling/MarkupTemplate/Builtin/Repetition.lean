import MarkupTemplate.Builtin.Branching
import MarkupTemplate.Builtin.Odometer

/-!
# Loops

A loop appends its body once per iteration, all iterations in one piece. In each of them the
placeholders of the loop's variables and of its count are replaced; all others stay for later. A
loop runs a number of times, over arrays in parallel, over all combinations of their elements, or as
long as a condition holds.
-/

set_option autoImplicit false

namespace MarkupTemplate

namespace Repetition

abbrev Bindings := List (Text × Text)

/-- The body of a loop in the iteration of the given count. The name of the count is looked for
first, so a variable of that name is never seen; and the replacement is a single pass, so elements
are not looked into for variables. -/
def iteration (m : Markers) (t : Tag) (bindings : Bindings) (count : Nat) : Text :=
  let replacement := fun name =>
    if Text.eqIgnoringCase name (m.indexName t.name) then some (writeNat count)
    else Attributes.find? name bindings
  m.substitute replacement t.bodyText

/-- The iterations of a loop one after another. They become one text, and are appended at once, so
what one iteration does while it is read is not known to the ones behind it before. -/
def unrolled (m : Markers) (t : Tag) (iterations : List Bindings) : Text :=
  iterations.zipIdx.flatMap fun i => iteration m t i.1 i.2

/-- The iterations over arrays in parallel: as many as the longest array has elements. The elements
that a shorter one lacks are missing values, told by the word for them. -/
def parallel (arrays : List (Text × List Text)) : List Bindings :=
  let length := (arrays.map fun a => a.2.length).foldl max 0
  (List.range length).map fun i => arrays.map fun a => (a.1, a.2[i]?.getD nullText)

/-- The iterations over all combinations of elements, those of the last array changing fastest.
There are none if there is no array, or an empty one. The order is that of an odometer, and that it
goes through every combination once is shown about `Odometer.run`. -/
def nested (arrays : List (Text × List Text)) : List Bindings :=
  if arrays = [] then []
  else
    match Odometer.start? arrays with
    | some o => (Odometer.run o).map fun o => o.map Wheel.binding
    | none => []

end Repetition

namespace Engine

open Repetition

def appendIterations (t : Tag) (iterations : List Bindings) : Engine Unit := do
  appendFrom t.name (unrolled (← markers) t iterations)

/-- Repeats the body a number of times. A negative number is like zero. -/
def runRepetition (fuel : Nat) (t : Tag) : Engine Unit := do
  match t.attributes.getOr? "times".toList 0 with
  | some times => appendIterations t (List.replicate (← int fuel times).toInt.toNat [])
  | none => rejectAttributes t.name "missing number of iterations"

def arraysOf (fuel : Nat) : List (Text × Text) → Engine (List (Text × List Text))
  | [] => return []
  | (name, raw) :: rest => do
    let values ← array fuel raw
    return (name, values) :: (← arraysOf fuel rest)

def loopArrays (fuel : Nat) (t : Tag) : Engine (List (Text × List Text)) := do
  if t.attributes.values ≠ [] then
    rejectAttributes t.name "arrays need names, e.g. item=\"a;b\""
  arraysOf fuel t.attributes.pairs

def runParallelLoop (fuel : Nat) (t : Tag) : Engine Unit := do
  appendIterations t (parallel (← loopArrays fuel t))

def runNestedLoop (fuel : Nat) (t : Tag) : Engine Unit := do
  appendIterations t (nested (← loopArrays fuel t))

/-- How many times in a row a condition holds, beyond the `count` times already seen and up to a
limit. -/
def countHolding (evaluate : Engine Bool) (limit : Option Nat) : Nat → Nat → Engine Nat
  | 0, _ => throw .exhausted
  | fuel + 1, count => do
    if limit.any (· ≤ count) then return count
    if ← evaluate then countHolding evaluate limit fuel (count + 1) else return count

/-- Repeats the body as long as the condition holds. -/
def runWhileLoop (fuel : Nat) (t : Tag) : Engine Unit := do
  let condition := conditionOf t
  if Text.isBlankText condition then rejectAttributes t.name "missing condition"
  else
    let limit ← match t.attributes.get? "limit".toList with
      | some limit => some <$> (fun i : Int64 => i.toInt.toNat) <$> int fuel limit
      | none => pure none
    let count ← countHolding (holds fuel condition) limit fuel 0
    appendIterations t (List.replicate count [])

end Engine

end MarkupTemplate
