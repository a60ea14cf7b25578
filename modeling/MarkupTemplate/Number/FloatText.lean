import MarkupTemplate.Number.Shortest

/-!
# Floats as text

A float is written with the fewest digits that read back. Two layouts are in use, and `FloatLayout`
holds what they decide: `plain`, for values in templates and equations, is always positional and
leaves whole numbers without a point; `json` marks whole numbers with `.0` and turns to an exponent
for large and small numbers. Where two shortest texts are equally near, `plain` takes the larger
and `json` the one with an even last digit.

A float is read from an optional sign and either decimal digits, with a point and an exponent if
wanted, or one of the words for infinity and not-a-number.
-/

set_option autoImplicit false

namespace MarkupTemplate

/-! ## Writing

Which digits are written is decided in `Decimal.shortest`, and where the point goes is decided
here. -/

/-- The decisions of a float format. -/
structure FloatLayout where
  /-- The places of the leading digit that are written positionally; all if there are no bounds. -/
  positional : Option (Int × Int)
  /-- What follows the digits of a whole number. -/
  wholeMark : Text
  /-- Which of two equally near numbers of fewest digits is written. -/
  tie : Tie

namespace FloatLayout

def plain : FloatLayout := ⟨none, [], .up⟩

def json : FloatLayout := ⟨some (-5, 15), ['.', '0'], .toEven⟩

/-- Whether the layout writes a number with the given leading place positionally. -/
def isPositional (l : FloatLayout) (place : Int) : Bool :=
  match l.positional with
  | none => true
  | some (low, high) => low ≤ place && place ≤ high

end FloatLayout

/-- Digits with the point in its place, filled up with zeros. -/
def writePositional (layout : FloatLayout) (digits : Text) (exponent : Int) : Text :=
  if 0 ≤ exponent then digits ++ List.replicate exponent.toNat '0' ++ layout.wholeMark
  else
    let places := (-exponent).toNat
    if places < digits.length then
      digits.take (digits.length - places) ++ '.' :: digits.drop (digits.length - places)
    else '0' :: '.' :: List.replicate (places - digits.length) '0' ++ digits

/-- One digit before the point, and an exponent with its sign and no leading zeros. -/
def writeScientific (digits : Text) (place : Int) : Text :=
  let fraction := digits.drop 1
  digits.take 1 ++ (if fraction.isEmpty then [] else '.' :: fraction) ++
    ['e', if place < 0 then '-' else '+'] ++ writeNat place.natAbs

/-- A decimal number in the given layout. -/
def Decimal.write (layout : FloatLayout) (d : Decimal) : Text :=
  let digits := writeNat d.digits
  if layout.isPositional d.leadingPlace then writePositional layout digits d.exponent
  else writeScientific digits d.leadingPlace

/-- The text of a float in a layout. Zero has a sign as any float has, and what is not finite is
told by a word. -/
def writeFloat (layout : FloatLayout) (x : Float) : Text :=
  match Binary64.ofFloat? x with
  | none =>
    if x.isNaN then "NaN".toList else if x < 0 then "-inf".toList else "inf".toList
  | some b =>
    let magnitude := if b.mantissa = 0 then '0' :: layout.wholeMark
      else (Decimal.shortest layout.tie b.mantissa b.exponent).write layout
    if b.negative then '-' :: magnitude else magnitude

/-! ## Reading

A text is a float or it is not: blanks, separators between digits and other bases are not read. -/

/-- The float `digits * 10 ^ exponent`, rounded to nearest. What lies far outside the range of
floats is not computed. -/
def floatOfDecimal (digits : Nat) (exponent : Int) : Float :=
  let place := (writeNat digits).length + exponent
  if digits = 0 ∨ place < -400 then 0
  else if 400 < place then 1 / 0
  else Float.ofScientific digits (decide (exponent < 0)) exponent.natAbs

def readExponent? : Text → Option Int := readInteger?

/-- Digits with at most one point, and at least one digit. -/
def readMantissa? (t : Text) : Option Decimal :=
  let whole := t.takeWhile Char.isDigit
  let fraction? := match t.dropWhile Char.isDigit with
    | [] => some []
    | '.' :: fraction => if fraction.all Char.isDigit then some fraction else none
    | _ => none
  fraction?.bind fun fraction =>
    (readNat? (whole ++ fraction)).map fun n => ⟨n, -(fraction.length : Int)⟩

/-- A number without a sign. The first letter for an exponent divides it, so what is in front has to
be digits and what follows an integer. -/
def readMagnitude? (t : Text) : Option Float :=
  let isMark := fun c : Char => c == 'e' || c == 'E'
  let mantissa := t.takeWhile fun c => !isMark c
  let exponent? := match t.dropWhile fun c => !isMark c with
    | [] => some 0
    | _ :: digits => readExponent? digits
  (readMantissa? mantissa).bind fun d =>
    exponent?.map fun e => floatOfDecimal d.digits (d.exponent + e)

/-- A word for infinity or not-a-number, in any case. -/
def readFloatWord? (t : Text) : Option Float :=
  let word := t.map Char.toLower
  if word = "inf".toList ∨ word = "infinity".toList then some (1 / 0)
  else if word = "nan".toList then some (0 / 0)
  else none

/-- The float that a text spells, after at most one sign. The words can have a sign too. -/
def readFloat? (t : Text) : Option Float :=
  let unsigned := fun s => (readFloatWord? s).or (readMagnitude? s)
  match t with
  | '-' :: rest => (unsigned rest).map fun x => -x
  | '+' :: rest => unsigned rest
  | rest => unsigned rest

end MarkupTemplate
