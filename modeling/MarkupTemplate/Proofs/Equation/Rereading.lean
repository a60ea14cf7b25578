import MarkupTemplate.Proofs.Equation.Integers
import MarkupTemplate.Proofs.Number.Literal

/-!
# Integers written into equations

An integer that was computed may be written into another equation, where it is read again. There are
no negative numerals in an equation: a minus sign is an operator on the magnitude behind it. As long
as the magnitude fits in 64 bits, the operator takes its integer rule, and the result is the integer
that was written. The magnitude of the lowest integer does not fit. It is read as a float, and so is
the integer (`exists_reread`, `not_reread`), although its text is read as the integer where it is a
value of its own.

The magnitude is what everything hangs on, so integers are taken apart into their sign and a natural
number first, and the lowest one is told apart there (`exists_magnitude`).
-/

set_option autoImplicit false

namespace MarkupTemplate

/-! ## Magnitudes

A number written in digits is a single value of an equation, however long it is. -/

/-- The digits of a number read as that number if it fits. -/
theorem asInt?_writeNat (k : Nat) : (Operand.text (writeNat k)).asInt? = int64? k := by
  rw [Operand.asInt?, (isWord_writeNat k).trim_eq, readInt64?,
    readInteger?_of_readNat? (readNat?_writeNat k), Option.bind_some]

theorem exists_asFloat?_writeNat (k : Nat) :
    ∃ x, (Operand.text (writeNat k)).asFloat? = some x := by
  have hread : (readInteger? (Text.trim (writeNat k))).isSome = true := by
    rw [(isWord_writeNat k).trim_eq, readInteger?_of_readNat? (readNat?_writeNat k)]
    rfl
  have hliteral := isIntegerLiteral_of_readInteger? hread
  have hforeign := (isSome_readInteger?_of_literal hliteral).mp hread
  exact Option.isSome_iff_exists.mp ((isSome_asFloat?_of_literal hliteral).mpr hforeign)

theorem evaluatePlain_writeNat (k : Nat) :
    evaluatePlain { operators := .standard } (writeNat k) = .ok (.text (writeNat k)) :=
  EquationTree.evaluatePlain_value (EquationFormat.isValue_standard (isWord_writeNat k))

/-- A minus sign is applied to the digits behind it. -/
theorem evaluatePlain_minus_writeNat (k : Nat) :
    evaluatePlain { operators := .standard } ('-' :: writeNat k) =
      Operator.minus.applyUnary (.text (writeNat k)) := by
  have hvalue := EquationFormat.isValue_standard (isWord_writeNat k)
  have hprintable : (EquationTree.single .minus (.operand (.text (writeNat k)))).Printable :=
    ⟨by simp [Operator.standard], rfl, _, rfl, hvalue⟩
  exact hprintable.evaluatePlain_single (evaluatePlain_writeNat k)

/-- In front of digits that do not fit, a minus sign gives a float. -/
theorem applyUnary_minus_writeNat {k : Nat} (h : int64? k = none) :
    ∃ x, (Operand.text (writeNat k)).asFloat? = some x ∧
      Operator.minus.applyUnary (.text (writeNat k)) = .ok (.float (-x)) := by
  obtain ⟨x, hx⟩ := exists_asFloat?_writeNat k
  have hint : (Operand.text (writeNat k)).asInt? = none := (asInt?_writeNat k).trans h
  refine ⟨x, hx, ?_⟩
  simp [Operator.applyUnary, Operator.applyUnaryRules, Operator.minus, Operator.arithmetic,
    Operator.ofBinary, Operator.arithmeticUnary, Operator.ofFloat, hint, hx]

/-! ## Integers

The sign is either missing or an operator in front of the magnitude. -/

/-- Of the integers that are not positive, all but the lowest have a magnitude that fits. -/
theorem exists_magnitude {n : Int64} {k : Nat} (hk : n.toInt = -(k : Int))
    (hn : n ≠ Int64.minValue) : ∃ i : Int64, i.toInt = k := by
  have hlowest : Int64.minValue.toInt = -2 ^ 63 := by decide
  have hne : n.toInt ≠ Int64.minValue.toInt := fun h => hn (Int64.toInt_inj.mp h)
  have hle : -2 ^ 63 ≤ n.toInt := n.le_toInt
  have hfits : -2 ^ 63 ≤ (k : Int) ∧ (k : Int) < 2 ^ 63 := by omega
  exact ⟨Int64.ofInt k, Int64.toInt_ofInt_of_le hfits.1 hfits.2⟩

/-- **An integer written into an equation is read as the integer again, unless it is the lowest
one.** -/
theorem exists_reread (n : Int64) :
    ∃ o, evaluatePlain { operators := .standard } (writeInt64 n) = .ok o ∧
      (o.asInt? = some n ↔ n ≠ Int64.minValue) ∧
      (n = Int64.minValue → ∃ x, (Operand.text "9223372036854775808".toList).asFloat? = some x ∧
        o = .float (-x)) := by
  by_cases hlowest : n = Int64.minValue
  · -- The text is a minus sign and digits that do not fit.
    have hwritten : writeInt64 n = '-' :: writeNat (2 ^ 63) := by
      rw [hlowest]
      rfl
    have hdigits : writeNat (2 ^ 63) = "9223372036854775808".toList := by decide +kernel
    obtain ⟨x, hx, hminus⟩ := applyUnary_minus_writeNat (k := 2 ^ 63) (by decide)
    refine ⟨.float (-x), ?_, ?_, fun _ => ⟨x, hdigits ▸ hx, rfl⟩⟩
    · rw [hwritten, evaluatePlain_minus_writeNat, hminus]
    · exact iff_of_false (by simp [Operand.asInt?]) (not_not.mpr hlowest)
  · have hread : ∀ o : Operand, o.asInt? = some n → (o.asInt? = some n ↔ n ≠ Int64.minValue) :=
      fun o ho => iff_of_true ho hlowest
    cases hn : n.toInt with
    | ofNat k =>
      have hwritten : writeInt64 n = writeNat k := by rw [writeInt64, hn]; rfl
      have hint : (Operand.text (writeNat k)).asInt? = some n := by
        rw [asInt?_writeNat]
        exact int64?_eq_some_iff.mpr hn
      refine ⟨.text (writeNat k), ?_, hread _ hint, fun h => absurd h hlowest⟩
      rw [hwritten, evaluatePlain_writeNat]
    | negSucc k =>
      have hwritten : writeInt64 n = '-' :: writeNat (k + 1) := by rw [writeInt64, hn]; rfl
      obtain ⟨i, hi⟩ := exists_magnitude (k := k + 1) (hn.trans (Int.negSucc_eq k)) hlowest
      have hint : (Operand.text (writeNat (k + 1))).asInt? = some i := by
        rw [asInt?_writeNat]
        exact int64?_eq_some_iff.mpr hi
      have hminus : Operator.minus.applyUnary (.text (writeNat (k + 1))) = .ok (.int n) := by
        refine (Operator.applyUnary_int hint rfl rfl).trans (Operator.exact_eq_ok_iff.mpr ?_)
        refine ⟨n, congrArg some ?_, rfl⟩
        rw [hi, hn, Int.negSucc_eq]
        rfl
      refine ⟨.int n, ?_, hread _ rfl, fun h => absurd h hlowest⟩
      rw [hwritten, evaluatePlain_minus_writeNat, hminus]

/-- The lowest integer is not read as an integer again: it comes back as a float. -/
theorem not_reread :
    ¬∀ n : Int64, ∃ o, evaluatePlain { operators := .standard } (writeInt64 n) = .ok o ∧
      o.asInt? = some n := by
  intro h
  obtain ⟨o, heval, hint⟩ := h Int64.minValue
  obtain ⟨x, -, hminus⟩ := applyUnary_minus_writeNat (k := 2 ^ 63) (by decide)
  have hlowest : evaluatePlain { operators := .standard } (writeInt64 Int64.minValue) =
      .ok (.float (-x)) := (evaluatePlain_minus_writeNat (2 ^ 63)).trans hminus
  obtain rfl := Except.ok.inj (heval.symm.trans hlowest)
  exact absurd hint (by simp [Operand.asInt?])

end MarkupTemplate
