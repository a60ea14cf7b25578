import MarkupTemplate.Engine.Values
import MarkupTemplate.Tag.Body

/-!
# Conditional macros

A conditional macro appends one of the two branches of its body, or nothing if the second one is
asked for and is not there. It decides by an equation, or by how many of some values are missing.

The branches are told apart before anything in them is read (`branches`), so what is in the branch
that is not taken has no effect, and need not even be well formed.
-/

set_option autoImplicit false

namespace MarkupTemplate

/-- The condition that a tag states: its `test`, or else all its attributes as one equation. A tag
such as `<:if a = b>` is cut into attributes like any other, and has to be put together again
here. -/
def conditionOf (t : Tag) : Text :=
  match t.attributes.get? "test".toList, t.attributes.values with
  | some test, _ => test
  | none, [] => Text.joinWith [' '] (t.attributes.pairs.map fun p => p.1 ++ '=' :: p.2)
  | none, values => Text.joinWith [' '] values

/-- Whether a null check accepts that so many of so many values are missing. Where there are no
values at all only the check for a missing one accepts. -/
def NullCheck.accepts (check : NullCheck) (missing total : Nat) : Bool :=
  match check with
  | noneMissing => total ≠ 0 && missing = 0
  | somePresent => missing < total
  | someMissing => total = 0 || missing ≠ 0

namespace Engine

/-- Appends the branch for a truth value, if the body has it. Appending is all: the branch is read
by the scanner as the next text of the template, with everything that may be in it. -/
def appendBranch (t : Tag) (holds : Bool) : Engine Unit := do
  let (onTrue, onFalse) := branches (← markers) (← isStrict) t.name t.bodyText
  match if holds then some onTrue else onFalse with
  | some branch => appendFrom t.name branch
  | none => return

/-- Appends a branch as the condition says. A condition that is missing altogether is an anomaly; a
lenient reader takes it for one that does not hold. -/
def runConditional (fuel : Nat) (t : Tag) : Engine Unit := do
  let condition := conditionOf t
  if Text.isBlankText condition then
    rejectAttributes t.name "missing condition"
    appendBranch t false
  else appendBranch t (← holds fuel condition)

/-- How many of some values are missing. All of them are resolved, also behind the first one that is
missing, so the actions among them are all called. -/
def countMissing (fuel : Nat) : List Text → Engine Nat
  | [] => return 0
  | value :: rest => do
    let missing ← isMissing fuel value
    return (← countMissing fuel rest) + (if missing then 1 else 0)

/-- Appends a branch as the number of missing values says. Values may be given with names or
without, and the names count for nothing. -/
def runNullCheck (fuel : Nat) (check : NullCheck) (t : Tag) : Engine Unit := do
  let values := match t.attributes.values with
    | [] => t.attributes.pairs.map Prod.snd
    | values => values
  if values = [] then rejectAttributes t.name "nothing to check"
  appendBranch t (check.accepts (← countMissing fuel values) values.length)

end Engine

end MarkupTemplate
