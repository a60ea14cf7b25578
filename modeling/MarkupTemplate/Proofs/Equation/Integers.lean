import MarkupTemplate.Proofs.Equation.Printed
import Mathlib.Algebra.Ring.Int.Parity

/-!
# Integers in equations

An integer rule computes on unbounded integers and gives its result if that fits in 64 bits, and a
refusal if it does not (`exact_eq_ok_iff`, `exact_eq_error`). Two things follow.

* A power with an exponent of less than 32 bits is exact or refused. That needs an argument, since
  large powers are not computed: `int64?_naturalPower` is that the power computed in their place fits
  if and only if the power itself does. Larger exponents leave the integers (`applyBinary_caret`).
* An equation of numerals, signs and arithmetic has its exact value or is refused. An operand with a
  reading as an integer makes an operator take its integer rule, whose result has such a reading
  again, so by induction on the tree no other rule is ever taken (`eval_tree`).
-/

set_option autoImplicit false

namespace MarkupTemplate

namespace Operator

/-! ## Exact results -/

/-- What an integer rule that has no result ends with. -/
def refusal (symbol : Text) : Fault :=
  .unsupportedOperands symbol "int and int (overflow or division by zero)".toList

/-- An exact result is given just if it fits. -/
theorem exact_eq_ok_iff {symbol : Text} {n : Option Int} {o : Operand} :
    exact symbol n = .ok o ↔ ∃ i : Int64, n = some i.toInt ∧ o = .int i := by
  unfold exact
  cases hn : n.bind int64? with
  | none =>
    refine ⟨fun h => absurd h (by simp), ?_⟩
    rintro ⟨i, rfl, -⟩
    exact absurd hn (by simp)
  | some j =>
    obtain ⟨m, rfl, hm⟩ := Option.bind_eq_some_iff.mp hn
    obtain rfl := int64?_eq_some_iff.mp hm
    constructor
    · intro h
      exact ⟨j, rfl, (Except.ok.inj h).symm⟩
    · rintro ⟨i, hi, rfl⟩
      rw [Int64.toInt_inj.mp (Option.some.inj hi)]

/-- A result that does not fit, or is none, is refused. -/
theorem exact_eq_error {symbol : Text} {n : Option Int}
    (h : ¬ ∃ i : Int64, n = some i.toInt) : exact symbol n = .error (refusal symbol) := by
  cases hn : n.bind int64? with
  | none => rw [exact, hn]; rfl
  | some i =>
    obtain ⟨m, rfl, hm⟩ := Option.bind_eq_some_iff.mp hn
    exact absurd ⟨i, congrArg some (int64?_eq_some_iff.mp hm).symm⟩ h

/-! ## The integer rule

The rules of an operator are tried in a fixed order, truth values first and integers next. Where
there is no rule for truth values, being readable as integers is enough to settle which one is
used. -/

variable {op : Operator} {left right operand : Operand} {i j : Int64} {result : Applied}

/-- Operands that read as integers get the integer rule, unless there is one for truth values. -/
theorem applyBinary_int (hleft : left.asInt? = some i) (hright : right.asInt? = some j)
    (hboolean : op.binary.bind BinaryRules.boolean = none)
    (hint : (op.binary.bind BinaryRules.int).map (fun f => f i j) = some result) :
    op.applyBinary left right = result := by
  obtain ⟨f, hf, rfl⟩ := Option.map_eq_some_iff.mp hint
  obtain ⟨rules, hop, hrule⟩ := Option.bind_eq_some_iff.mp hf
  rw [hop, Option.bind_some] at hboolean
  have hrules : applyRules rules left right = some (f i j) := by
    simp [applyRules, hboolean, hrule, hleft, hright]
  rw [applyBinary, hop]
  dsimp only
  rw [hrules, Option.getD_some]

/-- An operand that reads as an integer gets the integer rule, unless there is one for truth
values. -/
theorem applyUnary_int (hoperand : operand.asInt? = some i)
    (hboolean : op.unary.bind UnaryRules.boolean = none)
    (hint : (op.unary.bind UnaryRules.int).map (fun f => f i) = some result) :
    op.applyUnary operand = result := by
  obtain ⟨f, hf, rfl⟩ := Option.map_eq_some_iff.mp hint
  obtain ⟨rules, hop, hrule⟩ := Option.bind_eq_some_iff.mp hf
  rw [hop, Option.bind_some] at hboolean
  have hrules : applyUnaryRules rules operand = some (f i) := by
    simp [applyUnaryRules, hboolean, hrule, hoperand]
  rw [applyUnary, hop]
  dsimp only
  rw [hrules, Option.getD_some]

/-! ## Powers

The power of two 64-bit integers can have far too many digits to be written down, so it is not what
is computed: an exponent that is large anyhow is replaced by a small one of the same parity. -/

/-- A power of 64 factors and more does not fit, unless they are 0, 1 or -1. -/
theorem int64?_pow_of_two_le {b : Int} (hb : 2 ≤ b.natAbs) {n : Nat} (hn : 64 ≤ n) :
    int64? (b ^ n) = none := by
  have hlarge : 2 ^ 64 ≤ (b ^ n).natAbs := by
    rw [Int.natAbs_pow]
    calc 2 ^ 64 ≤ 2 ^ n := Nat.pow_le_pow_right (by decide) hn
      _ ≤ b.natAbs ^ n := Nat.pow_le_pow_left hb n
  have hbound : Int.pow 2 63 = 9223372036854775808 := by decide
  rw [int64?, if_neg]
  rw [hbound]
  omega

/-- Of a power of 0, 1 or -1 only the parity of the exponent matters. -/
theorem pow_congr_of_natAbs_le_one {b : Int} (hb : b.natAbs ≤ 1) {m n : Nat} (hm : 0 < m)
    (hn : 0 < n) (hparity : m % 2 = n % 2) : b ^ m = b ^ n := by
  have hcases : b = 0 ∨ b = 1 ∨ b = -1 := by omega
  rcases hcases with rfl | rfl | rfl
  · rw [zero_pow (Nat.ne_of_gt hm), zero_pow (Nat.ne_of_gt hn)]
  · rw [one_pow, one_pow]
  · rw [neg_one_pow_eq_pow_mod_two m, neg_one_pow_eq_pow_mod_two n, hparity]

/-- The power that is computed fits if and only if the power itself does, and then is the same. -/
theorem int64?_naturalPower (base : Int64) (n : Nat) :
    int64? (naturalPower base n) = int64? (base.toInt ^ n) := by
  have hpow : naturalPower base n = base.toInt ^ min n (64 + n % 2) := rfl
  rw [hpow]
  rcases Nat.le_total n (64 + n % 2) with hsmall | hlarge
  · rw [Nat.min_eq_left hsmall]
  · rw [Nat.min_eq_right hlarge]
    rcases Nat.lt_or_ge 1 base.toInt.natAbs with hb | hb
    · rw [int64?_pow_of_two_le hb (by omega), int64?_pow_of_two_le hb (by omega)]
    · have hparity : (64 + n % 2) % 2 = n % 2 := by omega
      rw [pow_congr_of_natAbs_le_one hb (by omega) (by omega) hparity]

theorem power_of_lt {base exponent : Int64} (h : 0 ≤ exponent.toInt)
    (hlt : exponent.toInt < 2 ^ 32) :
    power base exponent = exact ['^'] (some (base.toInt ^ exponent.toInt.toNat)) := by
  have hint : exact ['^'] (some (naturalPower base exponent.toInt.toNat)) =
      exact ['^'] (some (base.toInt ^ exponent.toInt.toNat)) := by
    simp only [exact, Option.bind_some, int64?_naturalPower]
  rw [← hint]
  exact if_pos ⟨h, hlt⟩

/-- **Powers of integers** with an exponent that is not negative and has less than 32 bits are exact
if they fit in 64 bits and refused if they do not. Any larger exponent makes a float, whatever the
base is. -/
theorem applyBinary_caret {base exponent : Int64} (h : 0 ≤ exponent.toInt) :
    ∃ op, OperatorTable.standard.get? ['^'] = some op ∧
      (exponent.toInt < 2 ^ 32 →
        (∀ i : Int64, i.toInt = base.toInt ^ exponent.toInt.toNat →
          op.applyBinary (.int base) (.int exponent) = .ok (.int i)) ∧
        ((∀ i : Int64, i.toInt ≠ base.toInt ^ exponent.toInt.toNat) →
          op.applyBinary (.int base) (.int exponent) = .error (refusal ['^']))) ∧
      (2 ^ 32 ≤ exponent.toInt →
        ∃ x, op.applyBinary (.int base) (.int exponent) = .ok (.float x)) := by
  have hcaret : caret.applyBinary (.int base) (.int exponent) = power base exponent := rfl
  refine ⟨caret, rfl, fun hlt => ?_, fun hle => ?_⟩
  · rw [hcaret, power_of_lt h hlt]
    constructor
    · intro i hi
      exact exact_eq_ok_iff.mpr ⟨i, congrArg some hi.symm, rfl⟩
    · intro hnone
      refine exact_eq_error ?_
      rintro ⟨i, hi⟩
      exact hnone i (Option.some.inj hi).symm
  -- An exponent that does not fit is not told from a negative one.
  · have hlarge : ¬ (0 ≤ exponent.toInt ∧ exponent.toInt < Int.pow 2 32) := by
      rintro ⟨-, hlt⟩
      exact absurd (Int.lt_of_lt_of_le hlt hle) (Int.lt_irrefl _)
    rw [hcaret, power, if_neg hlarge]
    exact ⟨_, rfl⟩

theorem applyBinary_caret_lowest :
    0 ≤ (63 : Int64).toInt ∧ ∃ op, OperatorTable.standard.get? ['^'] = some op ∧
      op.applyBinary (.int (-2)) (.int 63) = .ok (.int Int64.minValue) := by
  obtain ⟨op, hop, hsmall, -⟩ :=
    @applyBinary_caret (-2) 63 (by decide)
  exact ⟨by decide, op, hop, (hsmall (by decide)).1 Int64.minValue (by decide)⟩

/-- A power that fits may yet be a float: `1 ^ 4294967296` is one. Exponents of 32 bits and more are
treated like negative ones. -/
theorem not_applyBinary_caret :
    ¬ ∀ (base exponent : Int64) (op : Operator), 0 ≤ exponent.toInt →
      OperatorTable.standard.get? ['^'] = some op →
        (∀ i : Int64, i.toInt = base.toInt ^ exponent.toInt.toNat →
          op.applyBinary (.int base) (.int exponent) = .ok (.int i)) ∧
        ((∀ i : Int64, i.toInt ≠ base.toInt ^ exponent.toInt.toNat) →
          op.applyBinary (.int base) (.int exponent) = .error (refusal ['^'])) := by
  intro hall
  have hone : (1 : Int64).toInt = (1 : Int64).toInt ^ (4294967296 : Int64).toInt.toNat := by
    rw [show (1 : Int64).toInt = 1 from rfl, one_pow]
  have hint := (hall 1 4294967296 caret (by decide) rfl).1 1 hone
  have hfloat : caret.applyBinary (.int 1) (.int 4294967296) = power 1 4294967296 := rfl
  rw [hfloat, power, if_neg (by decide)] at hint
  exact absurd hint (by simp [ofFloat])

end Operator

/-! ## Expressions of integers

A tree of its own for them, and not a condition on trees of equations: it can be mapped to its value
over the unbounded integers, which the operands of an equation cannot. -/

/-- The digits of an integer that fits. -/
structure Numeral where
  digits : Text
  ne_nil : digits ≠ []
  isDigit : ∀ c ∈ digits, c.isDigit = true
  fits : Nat.ofDigitChars 10 digits 0 < 2 ^ 63

namespace Numeral

/-- The number that the digits stand for. -/
def value (n : Numeral) : Nat := Nat.ofDigitChars 10 n.digits 0

theorem isWord (n : Numeral) : n.digits.IsWord :=
  ⟨n.ne_nil, fun c hc => isAlphanumeric_of_isDigit (n.isDigit c hc)⟩

theorem readInteger?_digits (n : Numeral) : readInteger? n.digits = some (n.value : Int) :=
  readInteger?_of_readNat? (if_pos ⟨n.ne_nil, List.all_eq_true.mpr n.isDigit⟩)

theorem exists_asInt? (n : Numeral) :
    ∃ i, (Operand.text n.digits).asInt? = some i ∧ (n.value : Int) = i.toInt := by
  have hbound : Int.pow 2 63 = 2 ^ 63 := rfl
  have hfits : -Int.pow 2 63 ≤ (n.value : Int) ∧ (n.value : Int) < Int.pow 2 63 := by
    have hlt : n.value < 2 ^ 63 := n.fits
    rw [hbound]
    omega
  refine ⟨Int64.ofInt n.value, ?_, (Int64.toInt_ofInt_of_le hfits.1 hfits.2).symm⟩
  rw [Operand.asInt?, n.isWord.trim_eq, readInt64?, n.readInteger?_digits, Option.bind_some]
  exact if_pos hfits

end Numeral

/-- What stands in front of an operand. -/
inductive Sign where
  | plus
  | minus
  | increment
  | decrement

/-- What stands between two operands. -/
inductive Arithmetic where
  | sum
  | difference
  | product
  | quotient
  | remainder
deriving DecidableEq

namespace Sign

def operator : Sign → Operator
  | plus => .plus
  | minus => .minus
  | increment => .ofUnary "++" (Operator.arithmeticUnary "++" (fun a => a + 1) (fun a => a + 1))
  | decrement => .ofUnary "--" (Operator.arithmeticUnary "--" (fun a => a - 1) (fun a => a - 1))

def apply : Sign → Int → Int
  | plus, a => a
  | minus, a => -a
  | increment, a => a + 1
  | decrement, a => a - 1

theorem operator_mem (s : Sign) : s.operator ∈ Operator.standard := by
  cases s <;> simp [operator, Operator.standard]

/-- In front of an integer a sign computes its exact result. -/
theorem applyUnary_eq (s : Sign) {o : Operand} {i : Int64} (h : o.asInt? = some i) :
    s.operator.applyUnary o = Operator.exact s.operator.symbol (some (s.apply i.toInt)) := by
  cases s with
  | plus =>
    have hint : Operator.plus.applyUnary o = .ok (.int i) := Operator.applyUnary_int h rfl rfl
    exact hint.trans (Operator.exact_eq_ok_iff.mpr ⟨i, rfl, rfl⟩).symm
  | minus => exact Operator.applyUnary_int h rfl rfl
  | increment => exact Operator.applyUnary_int h rfl rfl
  | decrement => exact Operator.applyUnary_int h rfl rfl

end Sign

namespace Arithmetic

def operator : Arithmetic → Operator
  | sum => .plus
  | difference => .minus
  | product => .arithmetic "*" 5 (fun a b => some (a.toInt * b.toInt)) (fun a b => a * b)
  | quotient => .arithmetic "/" 5 Operator.quotient? (fun a b => a / b)
  | remainder => .arithmetic "%" 3 Operator.remainder? floatRemainder

/-- The exact result: a quotient is cut off toward zero, and a remainder has the sign of the
dividend. -/
def result? : Arithmetic → Int → Int → Option Int
  | sum, a, b => some (a + b)
  | difference, a, b => some (a - b)
  | product, a, b => some (a * b)
  | quotient, a, b => if b = 0 then none else some (a.tdiv b)
  | remainder, a, b => if b = 0 then none else some (a.tmod b)

/-- What the integer rule computes, before its result is brought back to 64 bits. -/
def ints : Arithmetic → Int64 → Int64 → Option Int
  | sum, a, b => some (a.toInt + b.toInt)
  | difference, a, b => some (a.toInt - b.toInt)
  | product, a, b => some (a.toInt * b.toInt)
  | quotient, a, b => Operator.quotient? a b
  | remainder, a, b => Operator.remainder? a b

theorem operator_mem (op : Arithmetic) : op.operator ∈ Operator.standard := by
  cases op <;> simp [operator, Operator.standard]

theorem applyBinary_eq (op : Arithmetic) {left right : Operand} {i j : Int64}
    (hleft : left.asInt? = some i) (hright : right.asInt? = some j) :
    op.operator.applyBinary left right = Operator.exact op.operator.symbol (op.ints i j) := by
  cases op <;> exact Operator.applyBinary_int hleft hright rfl rfl

/-- The integer rule is exact. Where it does not give the exact result, that does not fit, or it is
a remainder whose quotient does not. -/
theorem ints_eq_some_iff (op : Arithmetic) (a b k : Int64) :
    op.ints a b = some k.toInt ↔ op.result? a.toInt b.toInt = some k.toInt ∧
      (op = remainder → ∃ q : Int64, quotient.result? a.toInt b.toInt = some q.toInt) := by
  cases op with
  | sum => simp [ints, result?]
  | difference => simp [ints, result?]
  | product => simp [ints, result?]
  | quotient => simp [ints, result?, Operator.quotient?]
  | remainder =>
    -- The remainder is computed by way of the quotient, which has to fit as well.
    by_cases hb : b.toInt = 0
    · simp [ints, result?, Operator.remainder?, Operator.quotient?, hb]
    · have hquotient : Operator.quotient? a b = some (a.toInt.tdiv b.toInt) := if_neg hb
      simp only [ints, result?, Operator.remainder?, hquotient, hb, Option.bind_some, if_false,
        Option.map_eq_some_iff, int64?_eq_some_iff, Option.some.injEq, forall_const]
      constructor
      · rintro ⟨q, hq, hk⟩
        exact ⟨hk, q, hq.symm⟩
      · rintro ⟨hk, q, hq⟩
        exact ⟨q, hq.symm, hk⟩

end Arithmetic

/-- An expression of numerals. -/
inductive IntegerTree where
  | numeral (n : Numeral)
  | signed (s : Sign) (tree : IntegerTree)
  | arithmetic (op : Arithmetic) (left right : IntegerTree)

namespace IntegerTree

/-- The value over the unbounded integers, if nothing is divided by zero. -/
def value? : IntegerTree → Option Int
  | numeral n => some n.value
  | signed s t => t.value?.map s.apply
  | arithmetic op l r => l.value?.bind fun a => r.value?.bind fun b => op.result? a b

/-- The tree of the equation that an expression is written as. -/
def tree : IntegerTree → EquationTree
  | numeral n => .operand (.text n.digits)
  | signed s t => .single s.operator t.tree
  | arithmetic op l r => .double op.operator l.tree r.tree

/-- The symbol of the last operator that is applied. -/
def symbol : IntegerTree → Text
  | numeral _ => []
  | signed s _ => s.operator.symbol
  | arithmetic op _ _ => op.operator.symbol

/-- Whether an expression is written as a part of another one. -/
inductive IsPartOf : IntegerTree → IntegerTree → Prop
  | self (t : IntegerTree) : IsPartOf t t
  | signed {part t : IntegerTree} (s : Sign) : IsPartOf part t → IsPartOf part (signed s t)
  | left {part l : IntegerTree} (op : Arithmetic) (r : IntegerTree) :
      IsPartOf part l → IsPartOf part (arithmetic op l r)
  | right {part r : IntegerTree} (op : Arithmetic) (l : IntegerTree) :
      IsPartOf part r → IsPartOf part (arithmetic op l r)

/-- Whether the value of an expression is a 64-bit integer. -/
def Fits (t : IntegerTree) : Prop := ∃ i : Int64, t.value? = some i.toInt

/-- Whether an expression is refused if its operands are not: its value does not fit, or it is a
remainder and the quotient does not fit. -/
def Overflows (t : IntegerTree) : Prop :=
  ¬ t.Fits ∨ ∃ l r, t = arithmetic .remainder l r ∧ ¬ (arithmetic .quotient l r).Fits

variable {t part : IntegerTree}

theorem IsPartOf.trans {whole : IntegerTree} (h : part.IsPartOf t) (ht : t.IsPartOf whole) :
    part.IsPartOf whole := by
  induction ht with
  | self => exact h
  | signed s _ ih => exact .signed s ih
  | left op r _ ih => exact .left op r ih
  | right op l _ ih => exact .right op l ih

/-- The tree of an expression can be printed: its leaves are digits. -/
theorem printable (t : IntegerTree) : t.tree.Printable := by
  induction t with
  | numeral n => exact ⟨n.digits, rfl, EquationFormat.isValue_standard n.isWord⟩
  | signed s t ih => exact ⟨s.operator_mem, by cases s <;> rfl, ih⟩
  | arithmetic op l r ihl ihr => exact ⟨op.operator_mem, by cases op <;> rfl, ihl, ihr⟩

/-! ## Their evaluation

By induction on the expression. An operator whose operands are exact is exact or refused, and what
is refused below refuses everything above it. -/

/-- The equation of an expression comes down to what its tree does. -/
theorem evaluatePlain_tree (t : IntegerTree) :
    evaluatePlain { operators := .standard } t.tree.printed = t.tree.eval := by
  induction t with
  | numeral n => exact EquationTree.evaluatePlain_value (EquationFormat.isValue_standard n.isWord)
  | signed s t ih => exact (signed s t).printable.evaluatePlain_single ih
  | arithmetic op l r ihl ihr =>
    exact (arithmetic op l r).printable.evaluatePlain_double ihl ihr

/-- Whether the equation of an expression comes down to its value. -/
def IsExact (t : IntegerTree) : Prop :=
  ∃ o i, t.tree.eval = .ok o ∧ o.asInt? = some i ∧ t.value? = some i.toInt

/-- Whether the equation of an expression is refused because its value does not fit. -/
def IsRefused (t : IntegerTree) : Prop :=
  t.Overflows ∧ t.tree.eval = .error (Operator.refusal t.symbol)

/-- An expression whose last operator computes exactly is exact or refused. -/
theorem isExact_or_isRefused {n : Option Int} (heval : t.tree.eval = Operator.exact t.symbol n)
    (hn : ∀ k : Int64, n = some k.toInt ↔ t.value? = some k.toInt ∧ ¬ t.Overflows) :
    ¬ t.Overflows ∧ t.IsExact ∨ t.IsRefused := by
  -- Either the exact number fits, or the operator refuses its operands; there is nothing in
  -- between.
  by_cases h : ∃ k : Int64, n = some k.toInt
  · obtain ⟨k, hk⟩ := h
    obtain ⟨hvalue, hfits⟩ := (hn k).mp hk
    have hint := heval.trans (Operator.exact_eq_ok_iff.mpr ⟨k, hk, rfl⟩)
    exact Or.inl ⟨hfits, .int k, k, hint, rfl, hvalue⟩
  · refine Or.inr ⟨?_, heval.trans (Operator.exact_eq_error h)⟩
    by_contra hover
    obtain ⟨hfits, -⟩ := not_or.mp hover
    obtain ⟨k, hk⟩ := not_not.mp hfits
    exact h ⟨k, (hn k).mpr ⟨hk, hover⟩⟩

theorem fits_numeral (n : Numeral) : (numeral n).Fits := by
  obtain ⟨i, -, hi⟩ := n.exists_asInt?
  exact ⟨i, congrArg some hi⟩

theorem isExact_numeral (n : Numeral) : (numeral n).IsExact := by
  obtain ⟨i, hread, hi⟩ := n.exists_asInt?
  exact ⟨_, i, rfl, hread, congrArg some hi⟩

/-- A sign in front of what is exact gives an exact result or is refused. -/
theorem IsExact.signed (s : Sign) (h : t.IsExact) :
    ¬ (signed s t).Overflows ∧ (signed s t).IsExact ∨ (signed s t).IsRefused := by
  obtain ⟨o, i, heval, hread, hvalue⟩ := h
  have hsigned : (IntegerTree.signed s t).value? = some (s.apply i.toInt) := by
    rw [value?, hvalue, Option.map_some]
  refine isExact_or_isRefused (n := some (s.apply i.toInt)) ?_ fun k => ?_
  · rw [tree, EquationTree.eval, heval]
    exact s.applyUnary_eq hread
  · rw [hsigned]
    refine ⟨fun hk => ⟨hk, ?_⟩, And.left⟩
    rintro (hfits | ⟨l, r, heq, -⟩)
    · exact hfits ⟨k, hsigned.trans hk⟩
    · exact absurd heq (by simp)

/-- So does an operator between two of them. A remainder is the one whose refusal is not told by its
own value: it goes with the quotient. -/
theorem IsExact.arithmetic (op : Arithmetic) {l r : IntegerTree} (hl : l.IsExact)
    (hr : r.IsExact) :
    ¬ (arithmetic op l r).Overflows ∧ (arithmetic op l r).IsExact ∨
      (arithmetic op l r).IsRefused := by
  obtain ⟨left, i, hleft, hreadl, hvaluel⟩ := hl
  obtain ⟨right, j, hright, hreadr, hvaluer⟩ := hr
  have hvalue : ∀ op, (IntegerTree.arithmetic op l r).value? = op.result? i.toInt j.toInt := by
    intro op
    rw [value?, hvaluel, hvaluer]
    rfl
  refine isExact_or_isRefused (n := op.ints i j) ?_ fun k => ?_
  · rw [tree, EquationTree.eval, hleft, hright]
    exact op.applyBinary_eq hreadl hreadr
  · rw [hvalue, op.ints_eq_some_iff]
    -- The value fits in both cases, and a remainder is refused for its quotient.
    refine and_congr_right fun hk => ⟨fun hquotient => ?_, fun hover => ?_⟩
    · rintro (hfits | ⟨l', r', heq, hfits⟩)
      · exact hfits ⟨k, (hvalue op).trans hk⟩
      · obtain ⟨rfl, rfl, rfl⟩ := IntegerTree.arithmetic.inj heq
        obtain ⟨q, hq⟩ := hquotient rfl
        exact hfits ⟨q, (hvalue .quotient).trans hq⟩
    · rintro rfl
      by_contra hno
      refine hover (Or.inr ⟨l, r, rfl, ?_⟩)
      rintro ⟨q, hq⟩
      exact hno ⟨q, (hvalue .quotient).symm.trans hq⟩

/-- **What an expression comes to**, by induction on it: its value, or the refusal of a part that
overflows. -/
theorem eval_tree (t : IntegerTree) :
    (∀ part : IntegerTree, part.IsPartOf t → ¬ part.Overflows) ∧ t.IsExact ∨
      ∃ part : IntegerTree, part.IsPartOf t ∧ part.Overflows ∧
        t.tree.eval = .error (Operator.refusal part.symbol) := by
  -- Parts are evaluated from left to right, so the first one that overflows refuses the whole.
  induction t with
  | numeral n =>
    refine Or.inl ⟨?_, isExact_numeral n⟩
    rintro part ⟨⟩ (hfits | ⟨l, r, heq, -⟩)
    · exact hfits (fits_numeral n)
    · exact absurd heq (by simp)
  | signed s t ih =>
    rcases ih with ⟨hparts, hexact⟩ | ⟨part, hpart, hover, heval⟩
    · rcases hexact.signed s with ⟨hself, hexact⟩ | ⟨hover, heval⟩
      · refine Or.inl ⟨?_, hexact⟩
        rintro part (_ | ⟨_, hpart⟩)
        · exact hself
        · exact hparts part hpart
      · exact Or.inr ⟨_, .self _, hover, heval⟩
    · refine Or.inr ⟨part, .signed s hpart, hover, ?_⟩
      rw [tree, EquationTree.eval, heval]
      rfl
  | arithmetic op l r ihl ihr =>
    rcases ihl with ⟨hpartsl, hexactl⟩ | ⟨part, hpart, hover, heval⟩
    · rcases ihr with ⟨hpartsr, hexactr⟩ | ⟨part, hpart, hover, heval⟩
      · rcases hexactl.arithmetic op hexactr with ⟨hself, hexact⟩ | ⟨hover, heval⟩
        · refine Or.inl ⟨?_, hexact⟩
          rintro part (_ | _ | ⟨_, _, hpart⟩ | ⟨_, _, hpart⟩)
          · exact hself
          · exact hpartsl part hpart
          · exact hpartsr part hpart
        · exact Or.inr ⟨_, .self _, hover, heval⟩
      · refine Or.inr ⟨part, .right op l hpart, hover, ?_⟩
        obtain ⟨o, -, hl, -⟩ := hexactl
        rw [tree, EquationTree.eval, hl, heval]
        rfl
    · refine Or.inr ⟨part, .left op r hpart, hover, ?_⟩
      rw [tree, EquationTree.eval, heval]
      rfl

/-- **Integer equations are exact or refused.** The equation of an expression, with parentheses
around every operand that is not a numeral, comes down to an operand that reads as the value of the
expression over the unbounded integers, and so do the equations of all its parts; or else a part
overflows, and the equation is refused by its operator. -/
theorem evaluatePlain_integers (t : IntegerTree) :
    (∀ part : IntegerTree, part.IsPartOf t → ¬ part.Overflows ∧
      ∃ o i, evaluatePlain { operators := .standard } part.tree.printed = .ok o ∧
        o.asInt? = some i ∧ part.value? = some i.toInt) ∨
    ∃ part : IntegerTree, part.IsPartOf t ∧ part.Overflows ∧
      evaluatePlain { operators := .standard } t.tree.printed =
        .error (.unsupportedOperands part.symbol
          "int and int (overflow or division by zero)".toList) := by
  rcases t.eval_tree with ⟨hparts, -⟩ | ⟨part, hpart, hover, heval⟩
  · refine Or.inl fun part hpart => ⟨hparts part hpart, ?_⟩
    rw [part.evaluatePlain_tree]
    rcases part.eval_tree with ⟨-, hexact⟩ | ⟨inner, hinner, hover, -⟩
    · exact hexact
    · exact absurd hover (hparts inner (hinner.trans hpart))
  · refine Or.inr ⟨part, hpart, hover, ?_⟩
    rw [t.evaluatePlain_tree, heval]
    rfl

/-- The remainder of a negative dividend. -/
def negativeRemainder : IntegerTree :=
  arithmetic .remainder
    (signed .minus (numeral ⟨['7'], by decide, by simp, by decide +kernel⟩))
    (numeral ⟨['2'], by decide, by simp, by decide +kernel⟩)

example : negativeRemainder.tree.printed = "(-7)%2".toList ∧ negativeRemainder.value? = some (-1) := by
  decide

end IntegerTree

end MarkupTemplate
