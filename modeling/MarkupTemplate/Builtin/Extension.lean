import MarkupTemplate.Engine.Values

/-!
# Macros that bring in templates

A definition registers the body of its tag as a macro, a tag or an attribute; the registry keeps it
beyond the template. An inclusion appends a template of the source. If its tag gives a name to be
replaced, the body takes the place of that placeholder in the included text.
-/

set_option autoImplicit false

namespace MarkupTemplate

/-- The parameters in a list. Blanks around them do not count, and neither do empty ones, so a
separator at the end of the list does no harm. -/
def listedParameters (m : Markers) (t : Text) : List Text :=
  ((Text.splitAll m.arraySeparator t).map Text.trim).filter fun p => p ≠ []

/-- The name and the parameters that the tag of a definition states: either one after another
without names, or each under the name for it. -/
def signatureOf (m : Markers) (t : Tag) : Option Text × List Text :=
  match t.attributes.values with
  | name :: parameters => (some name, parameters)
  | [] =>
    let listed := (t.attributes.get? "params".toList).or (t.attributes.get? "parameters".toList)
    (t.attributes.get? "name".toList, (listed.map (listedParameters m)).getD [])

namespace Engine

/-- Registers what a definition defines; an attribute for the kind its tag names, or for all. The
registry outlives the parse, and other parsers may share it, so a definition is there for good once
its macro has run. -/
def define (what : Definable) (t : Tag) (d : Definition) : Engine Unit :=
  modifyRegistry fun r =>
    match what with
    | .macroName => r.registerMacro d.name (.template d)
    | .tagName => r.registerTag d.name (.template d)
    | .attributeName =>
      let kind := (t.attributes.get? "kind".toList).getD universalKind
      r.registerAttribute kind d.name (.template d)

/-- Registers the body of the tag under the name it states. The body is kept as it is written:
nothing in it is resolved before it is called. -/
def runDefinition (what : Definable) (t : Tag) : Engine Unit := do
  let (name, parameters) := signatureOf (← markers) t
  match (name.map Text.trim).filter (· ≠ []) with
  | some name => define what t ⟨name, parameters, t.bodyText⟩
  | none => rejectAttributes t.name "missing name of the definition"

/-- Appends a template of the source. Where the tag names a placeholder to be replaced, its body is
put into the included text first, in a single pass, so the included text cannot get at what is in
the body. -/
def runInclusion (fuel : Nat) (origin : Origin) (t : Tag) : Engine Unit := do
  match t.attributes.getOr? "path".toList 0 with
  | none => rejectAttributes t.name "missing path"
  | some path =>
    let path ← string fuel path
    let m ← markers
    let included ← ofOutcome ((← parser).environment.source.read origin path)
    match t.attributes.getOr? "replace".toList 1 with
    | some replaced =>
      let replacement := fun name =>
        if Text.eqIgnoringCase name replaced then some t.bodyText else none
      append (m.substitute replacement included) path
    | none => append included path

end Engine

end MarkupTemplate
