import MarkupTemplate.Number.FloatText

/-!
# JSON values

A host may give the settings of a parser in JSON, markers included, and hand over the results of its
actions in it. That is all that JSON is for: templates have nothing to do with it, and nothing that
is proved about templates rests on it. It is here because settings that are read from JSON are part
of what a host can do with the library, and so is the text of a result that is a JSON object.

Numbers keep their spelling, so that an integer and a float stay apart; objects keep their fields in
the order and number in which they were written. `canonical` brings a value into the one form that
is printed: fields sorted by key, the last of equal keys kept.
-/

set_option autoImplicit false

namespace MarkupTemplate

namespace Json

/-- A number as it is written. The fraction is empty if there is no point. -/
structure Numeral where
  negative : Bool
  whole : Text
  fraction : Text
  exponent : Option Int
deriving DecidableEq

end Json

/-- A JSON value. -/
inductive Json where
  | null
  | bool (b : Bool)
  | number (n : Json.Numeral)
  | text (t : Text)
  | array (items : List Json)
  | object (fields : List (Text × Json))
  /-- What is written like a value and has none: a string that spells no text, or an object with
  such a key. -/
  | illFormed
deriving Inhabited

namespace Json

/-! ## Numbers

A number is kept as it is written until somebody asks for its value, which may be an integer, a
float, or none at all. -/

namespace Numeral

def ofInt (i : Int) : Numeral := ⟨decide (i < 0), writeNat i.natAbs, [], none⟩

/-- The integer a numeral denotes: it has neither fraction nor exponent, fits in 64 bits, signed or
unsigned, and is not a negative zero. -/
def toInt? (n : Numeral) : Option Int :=
  let magnitude := Nat.ofDigitChars 10 n.whole 0
  if n.fraction ≠ [] ∨ n.exponent.isSome then none
  else if n.negative then
    if 0 < magnitude ∧ magnitude ≤ Nat.pow 2 63 then some (-magnitude) else none
  else if magnitude < Nat.pow 2 64 then some magnitude
  else none

/-- The leading digits that fit in 64 bits, starting from `acc`, and how many do not. -/
def leading : Nat → Text → Nat × Nat
  | acc, [] => (acc, 0)
  | acc, c :: digits =>
    let next := acc * 10 + (c.toNat - '0'.toNat)
    if next < Nat.pow 2 64 then leading next digits else (acc, digits.length + 1)

/-- A float times a power of ten, in at most three multiplications or divisions by powers of ten
that are floats. There is none if the product is too large. -/
def scale (x : Float) (exponent : Int) : Option Float :=
  let power := fun n : Nat => Float.ofScientific 1 false n
  if x == 0 then some x
  else if 0 ≤ exponent then
    let product := x * power exponent.toNat
    if 308 < exponent ∨ product.isInf then none else some product
  else if -308 ≤ exponent then some (x / power (-exponent).toNat)
  else if -616 ≤ exponent then some (x / power 308 / power (-exponent - 308).toNat)
  else some 0

/-- The float a numeral denotes: its leading digits, as far as they fit in 64 bits, times a power
of ten. There is none if it is too large. -/
def toFloat? (n : Numeral) : Option Float :=
  let (whole, dropped) := leading 0 n.whole
  let (digits, unused) := leading whole n.fraction
  let places : Int := n.fraction.length - unused
  let magnitude := scale (Float.ofNat digits) (dropped - places + n.exponent.getD 0)
  magnitude.map fun x => if n.negative then -x else x

end Numeral

def ofInt (i : Int) : Json := .number (.ofInt i)

def ofNat (n : Nat) : Json := ofInt n

def ofText? : Option Text → Json
  | none => .null
  | some t => .text t

/-! ## Looking into a value

Of equal keys the last one counts, here as in the printed form. -/

/-- The last field of the given name in a list of fields. -/
def field? (name : Text) : List (Text × Json) → Option Json
  | [] => none
  | (key, value) :: fields => (field? name fields).or (if key = name then some value else none)

/-- The value of a field, if the value is an object that has it. -/
def get? (name : Text) : Json → Option Json
  | .object fields => field? name fields
  | _ => none

/-! ## Values throughout

A value that has been read may have parts without a value, which is of no consequence before
somebody asks for all of it. -/

mutual

/-- Whether everything in a value has a value itself, and it is nested at most `levels` deep. This
is asked of a whole text that is to be a value, and of no part of settings that nobody looks at. -/
def isSound : Nat → Json → Bool
  | _, .number n => n.toInt?.isSome || n.toFloat?.isSome
  | 0, .array _ => false
  | levels + 1, .array items => allSound levels items
  | 0, .object _ => false
  | levels + 1, .object fields => fieldsSound levels fields
  | _, .illFormed => false
  | _, _ => true

def allSound : Nat → List Json → Bool
  | _, [] => true
  | levels, item :: items => isSound levels item && allSound levels items

def fieldsSound : Nat → List (Text × Json) → Bool
  | _, [] => true
  | levels, (_, value) :: fields => isSound levels value && fieldsSound levels fields

end

/-! ## The printed form

The order of fields does not matter to those who look into an object, and has to be fixed for those
who compare texts. -/

/-- Whether one text comes before another in the order of code points. -/
def textBefore : Text → Text → Bool
  | [], [] => false
  | [], _ :: _ => true
  | _ :: _, [] => false
  | c :: s, d :: t => c.toNat < d.toNat || (c == d && textBefore s t)

/-- Puts a field into a sorted list of fields, in the place of one with its key. -/
def insertField (key : Text) (value : Json) : List (Text × Json) → List (Text × Json)
  | [] => [(key, value)]
  | (k, v) :: fields =>
    if k = key then (key, value) :: fields
    else if textBefore key k then (key, value) :: (k, v) :: fields
    else (k, v) :: insertField key value fields

mutual

/-- The value with the fields of every object sorted by key, the last of equal keys kept. -/
def canonical : Json → Json
  | .array items => .array (canonicalItems items)
  | .object fields => .object (canonicalFields fields [])
  | other => other

def canonicalItems : List Json → List Json
  | [] => []
  | item :: items => canonical item :: canonicalItems items

/-- The canonical forms of fields, put one after another into a sorted list. -/
def canonicalFields : List (Text × Json) → List (Text × Json) → List (Text × Json)
  | [], sorted => sorted
  | (key, value) :: fields, sorted =>
    canonicalFields fields (insertField key (canonical value) sorted)

end

end Json

end MarkupTemplate
