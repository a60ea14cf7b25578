import MarkupTemplate.Number.Binary64
import MarkupTemplate.Number.Integer

/-!
# The fewest digits that read back

A positive float owns an interval of reals: those that round to it. Its ends belong to it if the
mantissa is even. The shortest decimal of a float is a point of the coarsest grid of powers of ten
that meets the interval; only the two grid points next to the float need a look, and of two hits
the nearer is taken. At equal distance a `Tie` decides.

All arithmetic is on natural numbers: the float is brought to a common denominator with the grid.
-/

set_option autoImplicit false

namespace MarkupTemplate

/-- A decimal number `digits * 10 ^ exponent`. -/
structure Decimal where
  digits : Nat
  exponent : Int
deriving DecidableEq

/-- Which of two grid points is taken when the float lies halfway between them. -/
inductive Tie where
  | up
  | toEven
deriving DecidableEq

namespace Tie

/-- Whether halfway between `n` and `n + 1` the upper point is taken. -/
def takesUpper : Tie → Nat → Bool
  | .up, _ => true
  | .toEven, n => n % 2 == 1

end Tie

/-- A positive float measured on a grid of points `1, 2, …`: the float is `value / unit`, and the
reals that round to it reach from `low / unit` to `high / unit`. -/
structure GridInterval where
  low : Nat
  value : Nat
  high : Nat
  unit : Nat
  /-- Whether the ends belong to the interval. -/
  closed : Bool

namespace GridInterval

/-- The interval of the float `mantissa * 2 ^ exponent` on the grid of multiples of `10 ^ grid`.
Below a power of two the neighbours lie half as far away. -/
def ofFloat (mantissa : Nat) (exponent grid : Int) : GridInterval :=
  -- All in quarters of the last place, so that the ends of the interval are whole.
  let below := if mantissa = Nat.pow 2 52 ∧ -1074 < exponent then 1 else 2
  let scale := Nat.pow 2 (exponent - 2).toNat * Nat.pow 10 (-grid).toNat
  { low := (4 * mantissa - below) * scale
    value := 4 * mantissa * scale
    high := (4 * mantissa + 2) * scale
    unit := Nat.pow 2 (2 - exponent).toNat * Nat.pow 10 grid.toNat
    closed := mantissa % 2 == 0 }

/-- Whether the grid point `n` lies in the interval. -/
def contains (i : GridInterval) (n : Nat) : Bool :=
  if i.closed then i.low ≤ n * i.unit && n * i.unit ≤ i.high
  else i.low < n * i.unit && n * i.unit < i.high

/-- The grid point of the interval that is nearest to the float, if any lies in it. -/
def nearest? (tie : Tie) (i : GridInterval) : Option Nat :=
  let floor := i.value / i.unit
  let rest := i.value % i.unit
  let isUpper := if 2 * rest = i.unit then tie.takesUpper floor else i.unit < 2 * rest
  match i.contains floor && floor != 0, i.contains (floor + 1) with
  | true, true => if isUpper then some (floor + 1) else some floor
  | true, false => some floor
  | false, true => some (floor + 1)
  | false, false => none

end GridInterval

namespace Decimal

/-- The nearest grid point of the first grid that has one, going down through `grids` powers of
ten from `10 ^ grid`. -/
def search (tie : Tie) (mantissa : Nat) (exponent : Int) : Nat → Int → Decimal
  | 0, grid => ⟨0, grid⟩
  | grids + 1, grid =>
    match (GridInterval.ofFloat mantissa exponent grid).nearest? tie with
    | some n => ⟨n, grid⟩
    | none => search tie mantissa exponent grids (grid - 1)

/-- The decimal of fewest digits that reads back as the positive float
`mantissa * 2 ^ exponent`. Seventeen digits always suffice; the search starts above the leading
digit, whose place the binary logarithm tells within two. -/
def shortest (tie : Tie) (mantissa : Nat) (exponent : Int) : Decimal :=
  let magnitude := ((mantissa.log2 : Int) + exponent) * 30103 / 100000
  search tie mantissa exponent 22 (magnitude + 2)

/-- The place of the leading digit: `d` for a number of the form `x.y * 10 ^ d`. -/
def leadingPlace (d : Decimal) : Int := (writeNat d.digits).length + d.exponent - 1

end Decimal

end MarkupTemplate
