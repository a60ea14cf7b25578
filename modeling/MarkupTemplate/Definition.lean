import MarkupTemplate.Tag.Basic

/-!
# Template definitions

A macro, a tag or an attribute can be defined by template text. To call it is to write that text
with its placeholders replaced, all at once, so text inside an argument that looks like another
placeholder stays as it is.

Nothing is resolved here: what is left of placeholders in the text of a call is read by whoever
reads that text next.
-/

set_option autoImplicit false

namespace MarkupTemplate

/-- Template text with named parameters. The parameters are in the order in which a call without
names gives them. -/
structure Definition where
  name : Text
  parameters : List Text
  template : Text
deriving DecidableEq, Inhabited

namespace Definition

/-- The value of each parameter of a call, those from the given index on: the attribute of its name
or its place, the body for the last one without an attribute, and else the text for a missing value.
A call may leave out any of them; what it states beyond them is not looked at. -/
def valuesFrom (attributes : Attributes) (body : Option Text) : Nat → List Text → List (Text × Text)
  | _, [] => []
  | index, parameter :: rest =>
    let value := match attributes.getOr? parameter index with
      | some value => value
      | none => if rest.isEmpty then body.getD nullText else nullText
    (parameter, value) :: valuesFrom attributes body (index + 1) rest

/-- The text of a call. Names are compared without letter case, and of two parameters that differ in
nothing else the first one counts. -/
def expand (d : Definition) (m : Markers) (attributes : Attributes) (body : Option Text) : Text :=
  let values := valuesFrom attributes body 0 d.parameters
  m.substitute (fun name => Attributes.find? name values) d.template

/-- The text of an attribute with the given value. Its own name is its only parameter, whatever
parameters it was defined with, since an attribute has nothing but a value to pass on. -/
def expandAttribute (d : Definition) (m : Markers) (value : Text) : Text :=
  m.substitute (fun name => Attributes.find? name [(d.name, value)]) d.template

end Definition

end MarkupTemplate
