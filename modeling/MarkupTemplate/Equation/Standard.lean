import MarkupTemplate.Equation.Operator
import MarkupTemplate.Number.Binary64

/-!
# The standard operators

Logic, equality, order, arithmetic and powers. Integers are exact: a result that does not fit in 64
bits, like a division by zero, is refused. Powers with a negative exponent, or one of 32 bits and
more, are floats.

Texts are ordered by length; a text that is an integer literal stands for a length itself.
-/

set_option autoImplicit false

namespace MarkupTemplate

namespace Operator

/-! ## Results

What an operation on integers comes to is computed without bounds and then brought back (`exact`),
so there is one place where overflow is noticed. -/

def bool (b : Bool) : Applied := .ok (.boolean b)

def ofFloat (x : Float) : Applied := .ok (.float x)

/-- An integer, if it fits. The fault is the same for a result that is too large and for one that
there is none of, such as a quotient by zero. -/
def exact (symbol : Text) (n : Option Int) : Applied :=
  match n.bind int64? with
  | some i => .ok (.int i)
  | none => .error (.unsupportedOperands symbol
      "int and int (overflow or division by zero)".toList)

/-! ## Integers

Division rounds towards zero, and the remainder goes with it: the quotient times the divisor plus
the remainder is the dividend. -/

/-- The quotient, if the divisor is not zero. It may still be too large for 64 bits, in the one case
of the least integer by minus one. -/
def quotient? (a b : Int64) : Option Int :=
  if b.toInt = 0 then none else some (a.toInt.tdiv b.toInt)

/-- The remainder, with the sign of the dividend, where the quotient fits. -/
def remainder? (a b : Int64) : Option Int :=
  ((quotient? a b).bind int64?).map fun _ => a.toInt.tmod b.toInt

/-- A power with a natural exponent. Beyond 64 only the parity of the exponent matters: what is not
0, 1 or -1 has long outgrown 64 bits. -/
def naturalPower (base : Int64) (exponent : Nat) : Int :=
  base.toInt.pow (min exponent (64 + exponent % 2))

/-- A power of integers. -/
def power (base exponent : Int64) : Applied :=
  if 0 ≤ exponent.toInt ∧ exponent.toInt < Int.pow 2 32 then
    exact ['^'] (some (naturalPower base exponent.toInt.toNat))
  else ofFloat ((Float.ofInt base.toInt).pow (Float.ofInt exponent.toInt))

/-! ## Texts

Texts have no natural order here, and are compared by length; an integer literal on one side makes
that a comparison with a number. -/

/-- Whether a text counts as true once it is read for what it spells. -/
def truthy (t : Text) : Bool := (Operand.text t).isTruthy

/-- The number an integer literal stands for, or zero if it does not fit in 64 bits or is written in
digits other than ASCII ones. A literal is told by the digits of any script, and only ASCII ones can
be read. -/
def literalValue (t : Text) : Int := ((readInt64? (Text.trim t)).map Int64.toInt).getD 0

/-- What two texts are compared by: the value of an integer literal, the left one if both are, and
otherwise the length. The two sides are not treated alike, so exchanging them need not give the
converse. -/
def measure (left right : Text) : Int × Int :=
  if isIntegerLiteral left then (literalValue left, right.length)
  else if isIntegerLiteral right then (left.length, literalValue right)
  else (left.length, right.length)

/-! ## Families

Operators that differ in a function only are made by one definition, so a law of the family is
proved once. -/

def ofBinary (symbol : String) (priority : Nat) (rules : BinaryRules) : Operator :=
  { symbol := symbol.toList, priority, binary := some rules }

def ofUnary (symbol : String) (rules : UnaryRules) : Operator :=
  { symbol := symbol.toList, priority := 6, unary := some rules }

/-- An operator on truth values. Its rule for texts reads them as truth values too, so any two
operands are supported. -/
def logic (symbol : String) (f : Bool → Bool → Bool) : Operator :=
  ofBinary symbol 1
    { boolean := some fun a b => bool (f a b)
      text := some fun a b => bool (f (truthy a) (truthy b)) }

/-- A test for equality, or for its absence. -/
def equality (symbol : String) (wanted : Bool) (texts : Text → Text → Bool) : Operator :=
  ofBinary symbol 2
    { boolean := some fun a b => bool ((a == b) == wanted)
      int := some fun a b => bool ((a == b) == wanted)
      float := some fun a b => bool ((a == b) == wanted)
      text := some fun a b => bool (texts a b == wanted) }

/-- An operator that compares. Its rule for texts compares what `measure` gives. -/
def order (symbol : String) (ints : Int → Int → Bool) (floats : Float → Float → Bool) : Operator :=
  ofBinary symbol 2
    { int := some fun a b => bool (ints a.toInt b.toInt)
      float := some fun a b => bool (floats a b)
      text := some fun a b => let (m, n) := measure a b; bool (ints m n) }

/-- An operator on numbers, on integers if both operands are some, and otherwise on floats. -/
def arithmetic (symbol : String) (priority : Nat) (ints : Int64 → Int64 → Option Int)
    (floats : Float → Float → Float) : Operator :=
  ofBinary symbol priority
    { int := some fun a b => exact symbol.toList (ints a b)
      float := some fun a b => ofFloat (floats a b) }

/-- The rules of an operation on one number. -/
def arithmeticUnary (symbol : String) (int : Int → Int) (float : Float → Float) : UnaryRules :=
  { int := some fun a => exact symbol.toList (some (int a.toInt))
    float := some fun a => ofFloat (float a) }

/-! ## The operators

The symbols of two characters are operators of their own, and come out of merging only. -/

/-- Negation of truth values. -/
def negation : Operator :=
  ofUnary "!" { boolean := some fun a => bool !a, text := some fun a => bool !(truthy a) }

/-- Addition, which joins texts where the operands are no numbers. As a sign in front of one operand
it changes nothing. -/
def plus : Operator :=
  { ofBinary "+" 4
      { int := some fun a b => exact ['+'] (some (a.toInt + b.toInt))
        float := some fun a b => ofFloat (a + b)
        text := some fun a b => .ok (.text (a ++ b)) } with
    unary := some
      { int := some fun a => .ok (.int a)
        float := some fun a => ofFloat a } }

/-- Subtraction. The sign in front of one operand refuses the least integer, whose negative does not
fit. -/
def minus : Operator :=
  { arithmetic "-" 4 (fun a b => some (a.toInt - b.toInt)) (fun a b => a - b) with
    unary := some (arithmeticUnary "-" (fun a => -a) (fun a => -a)) }

def caret : Operator :=
  ofBinary "^" 5 { int := some power, float := some fun a b => ofFloat (a.pow b) }

/-- The operators of the language. Other tables can be built from them, and no definition of the
library but `OperatorTable.standard` depends on this one. -/
def standard : List Operator :=
  [negation,
    logic "&" (· && ·),
    logic "|" (· || ·),
    equality "=" true fun a b => Text.eqIgnoringCase (Text.trim a) (Text.trim b),
    equality "==" true (· == ·),
    equality "!=" false (· == ·),
    order "<" (fun a b => decide (a < b)) (fun a b => decide (a < b)),
    order ">" (fun a b => decide (a > b)) (fun a b => decide (a > b)),
    order "<=" (fun a b => decide (a ≤ b)) (fun a b => decide (a ≤ b)),
    order ">=" (fun a b => decide (a ≥ b)) (fun a b => decide (a ≥ b)),
    arithmetic "%" 3 remainder? floatRemainder,
    plus,
    minus,
    arithmetic "*" 5 (fun a b => some (a.toInt * b.toInt)) (fun a b => a * b),
    arithmetic "/" 5 quotient? (fun a b => a / b),
    caret,
    ofUnary "++" (arithmeticUnary "++" (fun a => a + 1) (fun a => a + 1)),
    ofUnary "--" (arithmeticUnary "--" (fun a => a - 1) (fun a => a - 1)),
    logic "&&" (· && ·),
    logic "||" (· || ·)]

/-- The pairs of neighbours that merge, each with the symbol of the result. -/
def standardMerges : List (String × String × String) :=
  [("=", "=", "=="), ("!", "=", "!="), ("<", "=", "<="), (">", "=", ">="), ("&", "&", "&&"),
    ("|", "|", "||"), ("+", "+", "++"), ("-", "-", "--")]

end Operator

def OperatorTable.standard : OperatorTable :=
  Operator.standardMerges.foldl
    (fun t (first, second, merged) => t.registerMerge first.toList second.toList merged.toList)
    (Operator.standard.foldl OperatorTable.register {})

end MarkupTemplate
