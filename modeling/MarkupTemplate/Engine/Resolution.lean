import MarkupTemplate.Engine.State
import MarkupTemplate.Equation.Evaluation
import MarkupTemplate.Markers.Piece
import MarkupTemplate.Markers.TopLevel

/-!
# Resolving placeholders

A placeholder stands for an equation, a choice between two texts, the value of an action, a line of
a bundle, a preference, or an argument. What it stands for may hold placeholders again, and these
are resolved too, so resolved text has none. Arguments that refer to themselves would never come to
an end; the fuel of `expand` bounds how deep placeholders lead into each other.

The functions in front of `expand` take it as a parameter: they say what a placeholder means,
given what the placeholders inside it mean.
-/

set_option autoImplicit false

namespace MarkupTemplate

namespace Engine

/-! ## Actions

An action is the only part of a template that runs code of the host in the middle of a resolution. A
call is noted and counted before its answer is looked at, so a failed call is one too. -/

/-- Calls an action, whose name may have the action mark in front. An unknown action is an anomaly,
and gives nothing where anomalies are passed over. -/
def invoke (name : Text) (argument : Option Text) : Engine Value := do
  let m ← markers
  let name := Text.trim name
  let name := (Text.dropFirst? m.actionMark name).getD name
  match (← get).registry.call? m.idSeparator name argument with
  | some call =>
    note (.action call.title argument)
    modifyRegistry fun _ => call.registry
    ofOutcome call.reply
  | none =>
    failIfStrict (.unknownAction name)
    return .null

/-! ## What a placeholder means

All of this depends on `expanded`, which is how a text inside a placeholder is resolved. It is a
parameter here and `expand` with less fuel later, so that each function can be unfolded without
unfolding the recursion through all of them. -/

/-- Whether a text is the name of an action, a line or a preference with its mark. Only the first
character decides, so a mark in the middle of a name is part of the name. -/
def isMarked (m : Markers) (t : Text) : Bool :=
  t.head?.any fun c => c == m.actionMark || c == m.lineMark || c == m.preferenceMark

/-- The text of a bundle's line or of a preference. If there is none it is the word for a missing
value, and no anomaly: texts may be supplied for some languages only. -/
def referred (groups : Parser → Dictionary (Dictionary Text)) (reference : Text) : Engine Text := do
  let p ← parser
  let found := Environment.refer (groups p) p.settings.markers.idSeparator reference
  return found.getD nullText

section

variable (expanded : Text → Engine Text)

/-- The text of a value: the result of an action, a line, a preference, or a text with its
placeholders resolved. What an action, a line or a preference gives is the value as it is; only
where a placeholder stands for it is it looked into (`piecesBy`). -/
def stringBy (raw : Text) : Engine Text := do
  let m ← markers
  let t := Text.trim raw
  match Text.dropFirst? m.actionMark t, Text.dropFirst? m.lineMark t,
      Text.dropFirst? m.preferenceMark t with
  | some action, _, _ => return (← invoke action none).display
  | none, some line, _ => referred (fun p => p.environment.bundles) line
  | none, none, some key => referred (fun p => p.environment.preferences) key
  | none, none, none => expanded raw

/-- The text that a value of an equation stands for. A value without mark and placeholder is itself,
and is not looked up as an argument: that is what placeholders are for. -/
def operandBy (raw : Text) : Engine Text := do
  let m ← markers
  if isMarked m raw || m.argumentOpening ∈ raw then stringBy expanded raw else return raw

/-- The operand that an equation comes down to. -/
def equationBy (equation : Text) : Engine Operand := do
  let p ← parser
  let m := p.settings.markers
  evaluate ⟨p.operators, m.argumentOpening, m.argumentClosing⟩ (operandBy expanded) equation

/-- The text of a choice: a condition, and behind the first condition mark the text for a true and
the text for a false one. A condition alone stands for its truth value. Only the text that is chosen
goes on to be resolved; the other one is never looked at. -/
def choiceBy (t : Text) : Engine Text := do
  let m ← markers
  match m.splitTop? m.conditionMark {} t with
  | none => return writeBool (← equationBy expanded (Text.trim t)).isTruthy
  | some (condition, texts) =>
    let (onTrue, onFalse) := (m.splitTop? m.ternaryMark {} texts).getD (texts, [])
    let holds := (← equationBy expanded (Text.trim condition)).isTruthy
    return Text.trim (if holds then onTrue else onFalse)

/-- The text that a placeholder stands for, given what is between its markers. Its own placeholders
are not resolved in that text, which `piecesBy` does, or the scanner where the text is to be read as
a template. -/
def placeholderBy (raw : Text) : Engine Text := do
  let p ← parser
  let m := p.settings.markers
  let t := Text.trim raw
  match Text.dropFirst? m.equationMark t, Text.dropFirst? m.conditionMark t with
  | some equation, _ => return (← equationBy expanded equation).display
  | none, some choice => choiceBy expanded choice
  | none, none =>
    if isMarked m t then stringBy expanded t
    else return (p.environment.argument? t).getD nullText

/-- The text of pieces, from left to right. Of an unclosed placeholder everything in front is
resolved before it fails, with all the calls of actions that are in there. -/
def piecesBy : List Piece → Engine Text
  | [] => return []
  | .plain c :: pieces => return c :: (← piecesBy pieces)
  | .placeholder raw :: pieces => do
    let value ← expanded (← placeholderBy expanded raw)
    return value ++ (← piecesBy pieces)
  | .unclosed raw :: _ => fail (.unclosedArgument raw)

end

/-! ## Resolving

The functions of the section above with `expand` for their parameter. Fuel is spent on depth alone:
a row of placeholders next to each other costs no more than one of them. -/

/-- A text with all its placeholders resolved, and those in what they stand for. A text without the
opening marker is given back as it is and costs one unit of fuel, whatever else is in it. -/
def expand : Nat → Text → Engine Text
  | 0, _ => throw .exhausted
  | fuel + 1, t => do
    let m ← markers
    if m.argumentOpening ∈ t then piecesBy (expand fuel) (m.pieces t) else return t

def string (fuel : Nat) (raw : Text) : Engine Text := stringBy (expand fuel) raw

/-- The text that a placeholder stands for, with its own placeholders as they are. The scanner asks
for this, since it reads the text as a template and comes upon them by itself. -/
def placeholder (fuel : Nat) (raw : Text) : Engine Text := placeholderBy (expand fuel) raw

def holds (fuel : Nat) (equation : Text) : Engine Bool :=
  return (← equationBy (expand fuel) equation).isTruthy

def calculate (fuel : Nat) (equation : Text) : Engine Text :=
  return (← equationBy (expand fuel) equation).display

end Engine

end MarkupTemplate
