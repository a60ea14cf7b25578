/-!
# The parts of a float

A finite float is a natural number times a power of two. `Binary64.ofFloat?` takes it apart, and
`Binary64.remainder` computes the remainder of a division on the parts, where it is exact.

Only what has no exact operation on floats is done here. Sums and products are the machine's own,
and no proof of the library looks into them.
-/

set_option autoImplicit false

namespace MarkupTemplate

/-- A finite float: `mantissa * 2 ^ exponent`, negated if `negative`. -/
structure Binary64 where
  negative : Bool
  mantissa : Nat
  exponent : Int
deriving DecidableEq

namespace Binary64

/-- The parts of a float, unless it is infinite or not a number. -/
def ofFloat? (x : Float) : Option Binary64 :=
  let bits := x.toBits.toNat
  let negative := bits / Nat.pow 2 63 == 1
  let field : Nat := bits / Nat.pow 2 52 % Nat.pow 2 11
  let fraction : Nat := bits % Nat.pow 2 52
  if field = 2047 then none
  else if field = 0 then some ⟨negative, fraction, -1074⟩
  else some ⟨negative, fraction + Nat.pow 2 52, (field : Int) - 1075⟩

/-- The float with the given parts, if it has them. -/
def toFloat (b : Binary64) : Float :=
  let magnitude := (Float.ofNat b.mantissa).scaleB b.exponent
  if b.negative then -magnitude else magnitude

/-- The remainder of `a` divided by `b`, with the sign of `a`: both mantissas are brought to the
smaller exponent and divided there. -/
def remainder (a b : Binary64) : Binary64 :=
  let exponent := min a.exponent b.exponent
  let numerator := a.mantissa * Nat.pow 2 (a.exponent - exponent).toNat
  let denominator := b.mantissa * Nat.pow 2 (b.exponent - exponent).toNat
  ⟨a.negative, numerator % denominator, exponent⟩

end Binary64

/-- The remainder of a division of floats, with the sign of the dividend. There is none for an
infinite dividend or a zero divisor; an infinite divisor leaves the dividend as it is. -/
def floatRemainder (a b : Float) : Float :=
  match Binary64.ofFloat? a, Binary64.ofFloat? b with
  | some x, some y => if y.mantissa = 0 then 0.0 / 0.0 else (x.remainder y).toFloat
  | some _, none => if b.isNaN then b else a
  | none, _ => 0.0 / 0.0

end MarkupTemplate
