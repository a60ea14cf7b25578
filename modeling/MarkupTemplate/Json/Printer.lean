import MarkupTemplate.Json.Basic

/-!
# Writing JSON

The compact form: no white space, control characters escaped, everything else as it is. An integer
is written in full, any other number as a float. What has no value is written as `null`.

The functions write in front of a text that is given, so that nothing is appended to a long text
again and again.
-/

set_option autoImplicit false

namespace MarkupTemplate

namespace Json

/-- The escape sequence of a control character that has no letter of its own. -/
def escapeCode (c : Char) : Text :=
  ['\\', 'u', '0', '0'] ++ [Nat.digitChar (c.toNat / 16), Nat.digitChar (c.toNat % 16)]

/-- A character of a string as it is written. Only what has to be escaped is. -/
def escape (c : Char) : Text :=
  match c with
  | '"' => ['\\', '"']
  | '\\' => ['\\', '\\']
  | '\x08' => ['\\', 'b']
  | '\x0c' => ['\\', 'f']
  | '\n' => ['\\', 'n']
  | '\r' => ['\\', 'r']
  | '\t' => ['\\', 't']
  | c => if c.toNat < 0x20 then escapeCode c else [c]

def quote (t : Text) : Text := '"' :: t.flatMap escape ++ ['"']

def Numeral.write (n : Numeral) : Text :=
  match n.toInt?, n.toFloat? with
  | some i, _ => writeInteger i
  | none, some x => writeFloat .json x
  | none, none => "null".toList

mutual

/-- The compact text of a value, in front of `rest`. -/
def writeOnto (rest : Text) : Json → Text
  | .null => "null".toList ++ rest
  | .bool b => (if b then "true".toList else "false".toList) ++ rest
  | .number n => n.write ++ rest
  | .text t => quote t ++ rest
  | .array items => '[' :: writeItems (']' :: rest) items
  | .object fields => '{' :: writeFields ('}' :: rest) fields
  | .illFormed => "null".toList ++ rest

/-- Items with commas between them, in front of `rest`. -/
def writeItems (rest : Text) : List Json → Text
  | [] => rest
  | item :: items => writeOnto (writeMoreItems rest items) item

/-- Further items, each after a comma, in front of `rest`. -/
def writeMoreItems (rest : Text) : List Json → Text
  | [] => rest
  | item :: items => ',' :: writeOnto (writeMoreItems rest items) item

/-- Fields with commas between them, in front of `rest`. -/
def writeFields (rest : Text) : List (Text × Json) → Text
  | [] => rest
  | (key, value) :: fields => quote key ++ ':' :: writeOnto (writeMoreFields rest fields) value

/-- Further fields, each after a comma, in front of `rest`. -/
def writeMoreFields (rest : Text) : List (Text × Json) → Text
  | [] => rest
  | (key, value) :: fields =>
    ',' :: (quote key ++ ':' :: writeOnto (writeMoreFields rest fields) value)

end

def write (j : Json) : Text := writeOnto [] j

end Json

end MarkupTemplate
