import MarkupTemplate.Engine.Values

/-!
# Macros that set arguments

An assignment takes pairs of a name and a value from the attributes of its tag, or a name from the
attributes and the value from the body. How the value is made is up to the macro: it is kept as it
is written, resolved, calculated, or chosen from an array.

An evaluation calls an action with an argument, and either keeps the result as an argument of the
template or appends it.
-/

set_option autoImplicit false

namespace MarkupTemplate

/-- The names and values that the tag of an assignment states. There are four ways to write one, and
they are tried in this order, so a tag with a `key` is never read as a list of pairs, whatever other
attributes it has. -/
def assignmentsOf (t : Tag) : List (Text × Text) :=
  match t.attributes.get? "key".toList, t.attributes.values with
  | some key, _ => [(key, ((t.attributes.get? "value".toList).or t.body).getD [])]
  | none, [key] => [(key, t.bodyText)]
  | none, key :: values => [(key, Text.joinWith [' '] values)]
  | none, [] => t.attributes.pairs

namespace Engine

/-- A random one of some texts, by the next number of the stream that the machine was given. Where
there are none nothing is drawn, so an empty array does not shift the choices that come later. -/
def choose (texts : List Text) : Engine (Option Text) := do
  if texts = [] then return none
  return texts[(← draw) % texts.length]?

/-- The value of an assignment, from the text that states it. Only `written` keeps its placeholders
for later. An array without elements has nothing to choose from, which is told by the word for a
missing value. -/
def assignedValue (fuel : Nat) (how : Assignment) (raw : Text) : Engine Text :=
  match how with
  | .written => return raw
  | .resolved => string fuel raw
  | .calculated => calculate fuel raw
  | .chosen => return (← choose (← array fuel raw)).getD nullText

/-- Sets arguments, each before the value of the next one is made, so that a later value of the same
tag may refer to an earlier name. -/
def assign (fuel : Nat) (how : Assignment) : List (Text × Text) → Engine Unit
  | [] => return
  | (name, raw) :: rest => do
    setArgument name (← assignedValue fuel how raw)
    assign fuel how rest

/-- Sets the arguments that the tag states. A tag that states none is an anomaly, which a lenient
reader passes over. -/
def runAssignment (fuel : Nat) (how : Assignment) (t : Tag) : Engine Unit := do
  match assignmentsOf t with
  | [] => rejectAttributes t.name "nothing to assign"
  | assignments => assign fuel how assignments

/-- The argument for the action of an evaluation: an attribute, or else the body. The body may hold
any text, so it is expanded as it is, while an attribute is read as a value and may be an action
itself. -/
def evaluationArgument (fuel : Nat) (t : Tag) : Engine (Option Text) := do
  match t.attributes.getOr? "argument".toList 1, t.body with
  | some argument, _ => return some (← string fuel argument)
  | none, some body => return some (← expand fuel body)
  | none, none => return none

/-- Calls the action and keeps its result under the name that the tag gives. Without a name the
result goes into the template, unless it is nothing, and its text is read like the template
itself. -/
def runEvaluation (fuel : Nat) (t : Tag) : Engine Unit := do
  match t.attributes.getOr? "action".toList 0 with
  | none => rejectAttributes t.name "missing action"
  | some action =>
    let result ← invoke action (← evaluationArgument fuel t)
    match t.attributes.getOr? "key".toList 2 with
    | some key => setArgument key result.display
    | none => if !result.isNull then appendFrom t.name result.display

end Engine

end MarkupTemplate
