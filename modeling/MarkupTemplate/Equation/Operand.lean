import MarkupTemplate.Markers
import MarkupTemplate.Number.FloatText
import MarkupTemplate.Text.Blank
import MarkupTemplate.Value

/-!
# Operands

The values of an equation. They start out as text; an operator reads them as the most specific
type that it has a rule for. A text reads as a truth value, an integer or a float if, blanks at its
ends aside, it is written like one; the words for infinity and not-a-number are words here.
-/

set_option autoImplicit false

namespace MarkupTemplate

/-- A value in an equation. Operators give operands of any type; what is written in the equation
always comes in as a text. -/
inductive Operand where
  | boolean (b : Bool)
  | int (i : Int64)
  | float (x : Float)
  | text (t : Text)

/-- The truth value a text spells, in any case of ASCII letters. The text is taken as it is, so
blanks around it have to be taken off before. -/
def readBool? (t : Text) : Option Bool :=
  if Text.eqIgnoringCase t "true".toList then some true
  else if Text.eqIgnoringCase t "false".toList then some false
  else none

/-- The float a text spells in digits. A digit has to be there, which keeps the words for infinity
and not-a-number from being floats. -/
def readDigitFloat? (t : Text) : Option Float :=
  if t.any Char.isDigit then readFloat? t else none

/-- Whether a text counts as true: anything but blanks, the word for a missing value, and `false`. A
word that means nothing is true. -/
def isTruthyText (t : Text) : Bool :=
  let t := Text.trim t
  !(t.isEmpty || Text.eqIgnoringCase t nullText || Text.eqIgnoringCase t "false".toList)

namespace Operand

/-- The operand a text spells: a truth value, else an integer, else a float, else the text without
the blanks at its ends. An integer that does not fit in 64 bits is a float by that order. -/
def parse (raw : Text) : Operand :=
  let t := Text.trim raw
  match readBool? t, readInt64? t, readDigitFloat? t with
  | some b, _, _ => boolean b
  | none, some i, _ => int i
  | none, none, some x => float x
  | none, none, none => text t

def asBool? : Operand → Option Bool
  | boolean b => some b
  | text t => readBool? (Text.trim t)
  | _ => none

/-- The integer that an operand can be read as. A float is none, even if it is whole. -/
def asInt? : Operand → Option Int64
  | int i => some i
  | text t => readInt64? (Text.trim t)
  | _ => none

/-- The float that an operand can be read as. Any integer is one, rounded if need be, and a truth
value is not. -/
def asFloat? : Operand → Option Float
  | int i => some (Float.ofInt i.toInt)
  | float x => some x
  | text t => readDigitFloat? (Text.trim t)
  | boolean _ => none

/-- Whether an operand that is no text counts as true: numbers do if they are positive, so zero and
what is below it do not. -/
def isTruthyTyped : Operand → Bool
  | boolean b => b
  | int i => decide (0 < i.toInt)
  | float x => decide (0 < x)
  | text t => isTruthyText t

/-- Whether an operand counts as true; a text is taken for what it spells. -/
def isTruthy : Operand → Bool
  | text t => (parse t).isTruthyTyped
  | typed => typed.isTruthyTyped

/-- The name of an operand's type, for messages. -/
def typeName : Operand → Text
  | boolean _ => "boolean".toList
  | int _ => "int".toList
  | float _ => "float".toList
  | text _ => "string".toList

/-- The text of an operand. It need not read back as the same operand: a text may look like a
number. -/
def display : Operand → Text
  | boolean b => writeBool b
  | int i => writeInt64 i
  | float x => writeFloat .plain x
  | text t => t

/-- The type that the text of an operand has, which is what a message tells: the operands that an
operator was given are texts mostly, and that would say little. -/
def spelledType (o : Operand) : Text := (parse o.display).typeName

end Operand

end MarkupTemplate
