import MarkupTemplate.Json.Printer
import MarkupTemplate.Markers

/-!
# Values

What an action gives back. A template sees the text of a value; only an array is taken apart, if
the value is a list.
-/

set_option autoImplicit false

namespace MarkupTemplate

/-- The value of an action. Only texts of it reach the template, but a number and a text that looks
like one differ for the host. -/
inductive Value where
  | text (t : Text)
  | boolean (b : Bool)
  | int (i : Int64)
  | float (x : Float)
  | list (items : List Value)
  | null

def writeBool (b : Bool) : Text := if b then "true".toList else "false".toList

namespace Value

/-- Whether this is the value of an action that gave nothing. -/
def isNull : Value → Bool
  | null => true
  | _ => false

mutual

/-- The text of a value. The items of a list stand one after another with a semicolon between them,
whatever separates arrays in a template; so with another separator the text is one element and not
an array of the items. -/
def display : Value → Text
  | text t => t
  | boolean b => writeBool b
  | int i => writeInt64 i
  | float x => writeFloat .plain x
  | list items => Text.joinWith [';'] (displayAll items)
  | null => nullText

def displayAll : List Value → List Text
  | [] => []
  | item :: items => display item :: displayAll items

end

/-- The elements a value contributes to an array: the items of a list, or the value itself. The
items of a list inside a list are one element, by their text. -/
def elements : Value → List Text
  | list items => displayAll items
  | other => [other.display]

/-! ## From JSON

For hosts whose actions answer in JSON. Every value has one here, so this cannot fail; what JSON
cannot tell apart is told by the spelling of its numbers. -/

/-- The value of a number: an integer if it is written as one and fits. -/
def ofNumeral (n : Json.Numeral) : Value :=
  match n.toInt?.bind int64? with
  | some i => int i
  | none => float (n.toFloat?.getD (0 / 0))

mutual

/-- The value of a JSON value. Objects have no other form than their text. -/
def ofJson : Json → Value
  | .null => null
  | .bool b => boolean b
  | .number n => ofNumeral n
  | .text t => text t
  | .array items => list (ofJsonAll items)
  | .object fields => text (Json.canonical (.object fields)).write
  | .illFormed => null

def ofJsonAll : List Json → List Value
  | [] => []
  | item :: items => ofJson item :: ofJsonAll items

end

end Value

end MarkupTemplate
