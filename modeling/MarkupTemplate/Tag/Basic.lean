import MarkupTemplate.Tag.Attributes

/-!
# Tags

What a template says in one tag: its name, its attributes, and whether it closes itself with a mark
at its end. `Tag.parse` reads the text between the tag markers.

The placeholders of that text have been resolved by then. So a tag may get its name, its attributes
and its closing mark from a placeholder.
-/

set_option autoImplicit false

namespace MarkupTemplate

/-- One tag of a template, a regular one or a macro. -/
structure Tag where
  /-- The name, without a macro mark. -/
  name : Text
  /-- The text between the tag markers. -/
  raw : Text := []
  attributes : Attributes := .none
  /-- Whether the tag closes itself. -/
  closed : Bool := false
  /-- Whether the tag takes children, or a body. -/
  parental : Bool := false
  /-- The text between an opening macro tag and its closing tag. -/
  body : Option Text := none
deriving DecidableEq, Inhabited

namespace Tag

/-- A text up to its first blank, and from there on. A name is not checked in any other way. -/
def cutName (t : Text) : Text × Text :=
  (t.takeWhile fun c => !isBlank c, t.dropWhile fun c => !isBlank c)

/-- The text of a tag without the blanks around it, the macro mark in front and the closing mark at
the end, and whether that mark was there. -/
def content (m : Markers) (raw : Text) : Text × Bool :=
  let text := Text.trim raw
  let text := (Text.dropFirst? m.macroMark text).getD text
  match Text.dropLast? m.closedMark text with
  | some text => (Text.trimRight text, true)
  | none => (text, false)

/-- The tag that the text between tag markers describes. Whether it takes children is a first guess
here: what is registered under its name has the last word. -/
def parse (m : Markers) (raw : Text) : Except Fault Tag :=
  let (text, closed) := content m raw
  let (name, rest) := cutName text
  if name = [] then .error .emptyTag
  else
    (Attributes.parse name rest m.attributeSeparator).map fun attributes =>
      { name, raw, attributes, closed, parental := !closed }

/-- The tag with children allowed as asked for, but never on a tag that closes itself. -/
def withParental (t : Tag) (parental : Bool) : Tag :=
  { t with parental := parental && !t.closed }

/-- The body, or no text for a tag that closes itself. -/
def bodyText (t : Tag) : Text := t.body.getD []

end Tag

end MarkupTemplate
