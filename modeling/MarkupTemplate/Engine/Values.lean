import MarkupTemplate.Engine.Resolution

/-!
# Values of attributes

The values of macro attributes are texts; here they are read as numbers, truth values and arrays.
An array is a text with separators at top level. Its elements are texts, ranges such as
`item[1,3]`, which stand for one text per number between their bounds, and actions, which
contribute all items of a list they return.
-/

set_option autoImplicit false

namespace MarkupTemplate

namespace Engine

/-! ## Numbers and truth values

A value is resolved first, so it may come out of a placeholder or an action, and is then read with
the blanks around it taken off. -/

/-- The integer that a value spells, after at most one sign. What does not fit in 64 bits is no
number. -/
def int (fuel : Nat) (raw : Text) : Engine Int64 := do
  let t ← string fuel raw
  match readInt64? (Text.trim t) with
  | some i => return i
  | none => fail (.invalidNumber t)

def float (fuel : Nat) (raw : Text) : Engine Float := do
  let t ← string fuel raw
  match readFloat? (Text.trim t) with
  | some x => return x
  | none => fail (.invalidNumber t)

/-- The truth value that a value spells; only the two words themselves are truth values. Any other
word is an anomaly, and false where anomalies are passed over. -/
def boolean (fuel : Nat) (raw : Text) : Engine Bool := do
  let t := Text.trim (← string fuel raw)
  if t = writeBool true then return true
  if t ≠ writeBool false then failIfStrict (.invalidBoolean t)
  return false

def isNullText (t : Text) : Bool := Text.eqIgnoringCase t nullText

/-- Whether a value is missing: blank, the word for it, or an action that gives nothing. An action
is called for that, with all that it does. -/
def isMissing (fuel : Nat) (raw : Text) : Engine Bool := do
  let m ← markers
  let t := Text.trim raw
  match Text.dropFirst? m.actionMark t with
  | some action =>
    let value ← invoke action none
    return value.isNull || isNullText value.display
  | none =>
    let t := Text.trim (← string fuel t)
    return t.isEmpty || isNullText t

/-! ## Arrays

An array is made element by element, from left to right, so the actions and placeholders in it are
called in the order in which they are written. -/

/-- The number of texts that an array has room for: as many as fit into the greatest size of an
object, `2 ^ 63 - 1` bytes, at 24 bytes for what an array keeps of each. -/
def capacity : Nat := 9223372036854775807 / 24

/-- The integers from one bound to the other, upwards or downwards, both bounds included. They are
counted on unbounded integers, so there is no step beyond a bound that could overflow. -/
def between (first last : Int) : List Int :=
  if first ≤ last then (List.range (last - first + 1).toNat).map fun (k : Nat) => first + k
  else (List.range (first - last + 1).toNat).map fun (k : Nat) => first - k

/-- The base and the two bounds of an element that is written as a range: everything in front of the
first opening marker, and what a separator divides behind it. The first marker of each kind counts,
so the base holds no opening marker and the first bound no separator. -/
def rangeParts? (m : Markers) (inner : Text) : Option (Text × Text × Text) :=
  match Text.splitFirst? m.rangeOpening inner with
  | some (base, bounds) => (Text.splitFirst? m.rangeSeparator bounds).map fun b => (base, b)
  | none => none

/-- The texts that an element ending with the closing marker of ranges stands for, given what is in
front of that marker. `held` is the number of texts that the array has already. The room for a range
is taken before its first text is made, so one that is too long gives none. Texts that were there
before, one by one or in a list, had room already; a range alone can ask for more than there is. -/
def range (fuel held : Nat) (element inner : Text) : Engine (List Text) := do
  let invalid := Fault.invalidRange element
  match rangeParts? (← markers) inner with
  | none => fail invalid
  | some (base, first, last) =>
    let first ← failingAs invalid (int fuel first)
    let last ← failingAs invalid (int fuel last)
    if capacity < held + (first.toInt - last.toInt).natAbs + 1 then throw .overflow
    return (between first.toInt last.toInt).map fun i => base ++ writeInteger i

/-- The texts that an element of an array stands for. The closing marker of ranges is looked for
first: an element that ends with it is a range whatever it begins with. -/
def arrayElement (fuel held : Nat) (element : Text) : Engine (List Text) := do
  let m ← markers
  match Text.dropLast? m.rangeClosing element, Text.dropFirst? m.actionMark element with
  | some inner, _ => range fuel held element inner
  | none, some action => return (← invoke action none).elements
  | none, none => return [← string fuel element]

/-- The texts of some elements one after another, given how many the array has already. -/
def arrayElements (fuel : Nat) : Nat → List Text → Engine (List Text)
  | _, [] => return []
  | held, part :: parts => do
    let texts ← arrayElement fuel held (Text.trim part)
    return texts ++ (← arrayElements fuel (held + texts.length) parts)

/-- The array that a value spells; a blank one has no elements. It is cut before anything in it is
resolved, so a separator that comes out of a placeholder does not divide. -/
def array (fuel : Nat) (raw : Text) : Engine (List Text) := do
  let m ← markers
  if Text.isBlankText raw then return []
  arrayElements fuel 0 (m.splitTop m.arraySeparator {} raw)

end Engine

end MarkupTemplate
