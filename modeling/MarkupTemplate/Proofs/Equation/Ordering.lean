import MarkupTemplate.Proofs.Number.Literal

/-!
# Putting two texts in order

Two texts are ordered as integers or as floats where both spell one, and otherwise by what `measure`
makes of them (`applied_eq`). A text that is an integer literal is measured by the number that it
stands for, and all others by their length.

A literal can be of any length and in digits of any script, but the number it stands for is only
known if it fits in 64 bits and is written in ASCII digits; else it counts as zero
(`applied_literal`). Two literals are only measured if one of them is in digits of another script,
since they are numbers otherwise. The left one then stands for a number and the right one for a
length, so exchanging the two exchanges more than the sides: that is the one case in which `<` and
`>` need not be converses of each other (`applied_converse_iff`).

What two texts are compared to is one function of the pair of integers that they are measured by
(`against`). So the rules on numbers, which take the sides alike, are dealt with once, and all that
can go wrong is the pair.
-/

set_option autoImplicit false

namespace MarkupTemplate

/-! ## Comparisons

The four operators are one definition with two relations, on integers and on floats, so what is
proved of a comparison holds of all four. -/

/-- The ways in which two values are compared. -/
inductive Comparison where
  | less
  | greater
  | atMost
  | atLeast
deriving DecidableEq

namespace Comparison

/-- How the comparison is written. -/
def symbol : Comparison → String
  | less => "<"
  | greater => ">"
  | atMost => "<="
  | atLeast => ">="

/-- What it says of two integers. -/
def ints : Comparison → Int → Int → Bool
  | less, a, b => decide (a < b)
  | greater, a, b => decide (a > b)
  | atMost, a, b => decide (a ≤ b)
  | atLeast, a, b => decide (a ≥ b)

/-- What it says of two floats. -/
def floats : Comparison → Float → Float → Bool
  | less, a, b => decide (a < b)
  | greater, a, b => decide (a > b)
  | atMost, a, b => decide (a ≤ b)
  | atLeast, a, b => decide (a ≥ b)

/-- The comparison that says the same with its sides exchanged. -/
def converse : Comparison → Comparison
  | less => greater
  | greater => less
  | atMost => atLeast
  | atLeast => atMost

/-- The operator of the comparison. -/
def operator (c : Comparison) : Operator := .order c.symbol c.ints c.floats

theorem get?_symbol (c : Comparison) :
    OperatorTable.standard.get? c.symbol.toList = some c.operator := by
  cases c <;> rfl

/-- The converse says of two integers what the comparison says of them the other way round. -/
theorem ints_converse (c : Comparison) (a b : Int) : c.converse.ints b a = c.ints a b := by
  cases c <;> rfl

theorem floats_converse (c : Comparison) (x y : Float) : c.converse.floats y x = c.floats x y := by
  cases c <;> rfl

end Comparison

/-! ## Floats

Floats are compared by their model. A float that is not a number is neither less nor greater than
anything, on either side, so it is no exception. -/

open Float.Model in
/-- Exchanging two floats exchanges less and greater, if the two can be compared at all. -/
theorem unpacked_compare_swap (a b : UnpackedFloat) :
    b.compare a = (a.compare b).map Ordering.swap := by
  have hthen : ∀ (e e' : Int) (m m' : Nat), (compare e' e).then (compare m' m) =
      ((compare e e').then (compare m m')).swap := by
    intro e e' m m'
    rw [Ordering.swap_then, ← Std.OrientedOrd.eq_swap, ← Std.OrientedOrd.eq_swap]
  cases a with
  | notANumber => cases b <;> rfl
  | infinity s =>
    cases b with
    | infinity s' => cases s <;> cases s' <;> rfl
    | _ => cases s <;> rfl
  | zero s =>
    cases b with
    | infinity s' => cases s' <;> rfl
    | finite s' m e hm => cases s' <;> rfl
    | _ => rfl
  | finite s m e hm =>
    cases b with
    | infinity s' => cases s <;> cases s' <;> rfl
    | notANumber => cases s <;> rfl
    | zero s' => cases s <;> rfl
    | finite s' m' e' hm' =>
      -- Of two negative ones the larger magnitude is the less.
      cases s <;> cases s'
      · exact congrArg (fun o => some o.swap) (hthen e e' m m')
      · rfl
      · rfl
      · exact congrArg some (hthen e e' m m')

theorem float_lt_asymm {x y : Float} (h : x < y) : ¬y < x := by
  have hlt : ∀ x y : Float, x < y ↔ x.toModel.unpack.compare y.toModel.unpack = some .lt := by
    intro x y
    show decide (x.toModel.unpack.lt y.toModel.unpack = true) = true ↔ _
    simp [Float.Model.UnpackedFloat.lt]
  rw [hlt] at h ⊢
  rw [unpacked_compare_swap, h]
  simp

/-! ## Two texts -/

namespace Comparison

variable {a b : Text} {p q : Int × Int}

/-- What two readings are compared to, if there are both, and something else otherwise. -/
def readOr {α : Type} (f : α → α → Bool) (otherwise : Bool) : Option α → Option α → Bool
  | some x, some y => f x y
  | _, _ => otherwise

/-- What two texts are compared to: as the most specific type of numbers that both spell, or else as
the integers that they are measured by. -/
def against (c : Comparison) (measured : Int × Int) (a b : Text) : Bool :=
  readOr (fun i j => c.ints i.toInt j.toInt)
    (readOr c.floats (c.ints measured.1 measured.2)
      (Operand.text a).asFloat? (Operand.text b).asFloat?)
    (Operand.text a).asInt? (Operand.text b).asInt?

/-- A rule that needs both readings, with what is left to the rules behind it. -/
theorem or_readOr {α : Type} (f : α → α → Bool) (otherwise : Bool) (x y : Option α) :
    (do some (Operator.bool (f (← x) (← y)))).or (some (Operator.bool otherwise)) =
      some (Operator.bool (readOr f otherwise x y)) := by
  cases x with
  | none => rfl
  | some a => cases y <;> rfl

/-- What the operator with the symbol of a comparison gives for two texts. -/
def applied (c : Comparison) (a b : Text) : Option Applied :=
  (OperatorTable.standard.get? c.symbol.toList).map fun op => op.applyBinary (.text a) (.text b)

theorem applied_eq (c : Comparison) (a b : Text) :
    c.applied a b = some (.ok (.boolean (c.against (Operator.measure a b) a b))) := by
  have hrules : c.operator.applyBinary (.text a) (.text b) =
      ((do some (Operator.bool (c.ints (← (Operand.text a).asInt?).toInt
          (← (Operand.text b).asInt?).toInt))).or
        ((do some (Operator.bool (c.floats (← (Operand.text a).asFloat?)
          (← (Operand.text b).asFloat?)))).or
          (some (Operator.bool
            (c.ints (Operator.measure a b).1 (Operator.measure a b).2))))).getD
        (.error (.unsupportedOperands c.symbol.toList ((Operand.text a).spelledType ++
          " and ".toList ++ (Operand.text b).spelledType))) := rfl
  rw [applied, get?_symbol, Option.map_some, hrules, or_readOr c.floats,
    or_readOr fun i j : Int64 => c.ints i.toInt j.toInt]
  rfl

/-- If exchanging the sides makes no difference to a rule, it makes none to the readings. -/
theorem readOr_swap {α : Type} {f g : α → α → Bool} (hfg : ∀ x y, g y x = f x y)
    (otherwise : Bool) (x y : Option α) : readOr g otherwise y x = readOr f otherwise x y := by
  cases x with
  | none => cases y <;> rfl
  | some x =>
    cases y with
    | none => rfl
    | some y => exact hfg x y

/-- Exchanging the texts and the integers that they are measured by is exchanging the sides. -/
theorem against_converse (c : Comparison) (p : Int × Int) (a b : Text) :
    c.converse.against p.swap b a = c.against p a b := by
  unfold against
  rw [readOr_swap fun i j : Int64 => c.ints_converse i.toInt j.toInt,
    readOr_swap c.floats_converse]
  exact congrArg (fun otherwise => readOr _ (readOr _ otherwise _ _) _ _)
    (c.ints_converse p.1 p.2)

/-- If a rule holds one way round at most, so does what it is part of. -/
theorem readOr_asymm {α : Type} {f : α → α → Bool} (hf : ∀ x y, f x y = true → f y x = false)
    {otherwise otherwise' : Bool} (ho : otherwise = true → otherwise' = false) {x y : Option α}
    (h : readOr f otherwise x y = true) : readOr f otherwise' y x = false := by
  cases x with
  | none =>
    have hother : readOr f otherwise' y none = otherwise' := by cases y <;> rfl
    rw [hother]
    exact ho h
  | some x =>
    cases y with
    | none => exact ho h
    | some y => exact hf x y h

/-- Of two texts at most one is less, as long as they are measured by the same integers. -/
theorem less_asymm (h : less.against p a b = true) : less.against p.swap b a = false := by
  refine readOr_asymm (fun i j hij => ?_) (readOr_asymm (fun x y hxy => ?_) fun hp => ?_) h
  · simp only [ints, decide_eq_true_eq, decide_eq_false_iff_not] at hij ⊢
    omega
  · simp only [floats, decide_eq_true_eq, decide_eq_false_iff_not] at hxy ⊢
    exact float_lt_asymm hxy
  · simp only [ints, Prod.fst_swap, Prod.snd_swap, decide_eq_true_eq,
      decide_eq_false_iff_not] at hp ⊢
    omega

/-- Where two texts are floats it makes no difference what they are measured by. -/
theorem against_of_isSome (c : Comparison) (ha : (Operand.text a).asFloat?.isSome = true)
    (hb : (Operand.text b).asFloat?.isSome = true) (p q : Int × Int) :
    c.against p a b = c.against q a b := by
  obtain ⟨x, hx⟩ := Option.isSome_iff_exists.mp ha
  obtain ⟨y, hy⟩ := Option.isSome_iff_exists.mp hb
  simp only [against, hx, hy, readOr]

/-- Where a text is no number the two are compared as they are measured. -/
theorem against_of_eq_none (c : Comparison)
    (hint : (Operand.text a).asInt? = none ∨ (Operand.text b).asInt? = none)
    (hfloat : (Operand.text a).asFloat? = none ∨ (Operand.text b).asFloat? = none)
    (p : Int × Int) : c.against p a b = c.ints p.1 p.2 := by
  have hother : ∀ {α : Type} (f : α → α → Bool) (otherwise : Bool) {x y : Option α},
      x = none ∨ y = none → readOr f otherwise x y = otherwise := by
    rintro α f otherwise x y (rfl | rfl)
    · rfl
    · cases x <;> rfl
  rw [against, hother _ _ hint, hother _ _ hfloat]

end Comparison

/-! ## A literal and a text without digits

A text without digits is no number, so the two are measured, and it is measured by its length. -/

namespace Comparison

variable {a b t : Text}

/-- A literal is compared with the length of a text without digits, on either side. -/
theorem applied_written (c : Comparison) (d : Literal) (ht : ∀ ch ∈ t, isDecimalDigit ch = false) :
    c.applied d.written t =
        some (.ok (.boolean (c.ints (Operator.literalValue d.written) t.length))) ∧
      c.applied t d.written =
        some (.ok (.boolean (c.ints t.length (Operator.literalValue d.written)))) := by
  have htext := isIntegerLiteral_of_noDigit ht
  have hint : (Operand.text t).asInt? = none := by
    refine asInt?_of_not_literal ?_
    rw [Bool.eq_false_iff]
    intro hsome
    rw [isIntegerLiteral_of_readInteger? hsome] at htext
    exact absurd htext (by simp)
  have hfloat := asFloat?_of_noDigit ht
  -- The text without digits has a length and no number, whichever side it is on.
  have hleft : Operator.measure d.written t = (Operator.literalValue d.written, ↑t.length) :=
    if_pos d.isIntegerLiteral_written
  have hright : Operator.measure t d.written = (↑t.length, Operator.literalValue d.written) := by
    rw [Operator.measure, htext, if_neg (by simp), if_pos d.isIntegerLiteral_written]
  rw [applied_eq, applied_eq, hleft, hright, against_of_eq_none c (.inr hint) (.inr hfloat),
    against_of_eq_none c (.inl hint) (.inl hfloat)]
  exact ⟨rfl, rfl⟩

/-- **An integer literal is compared with the length of a text** that has no digits in it: by the
integer it denotes if that has 64 bits, whatever its sign and the side it stands on, and else as if
it were zero. -/
theorem applied_literal (c : Comparison) (d : Literal)
    (ht : ∀ ch ∈ t, isDecimalDigit ch = false) :
    (d.Fits →
      c.applied d.written t = some (.ok (.boolean (c.ints d.value t.length))) ∧
      c.applied t d.written = some (.ok (.boolean (c.ints t.length d.value)))) ∧
    (¬d.Fits →
      c.applied d.written t = some (.ok (.boolean (c.ints 0 t.length))) ∧
      c.applied t d.written = some (.ok (.boolean (c.ints t.length 0)))) := by
  have happlied := c.applied_written d ht
  refine ⟨fun hfits => ?_, fun hfits => ?_⟩
  · rwa [d.literalValue_of_fits hfits] at happlied
  · rwa [d.literalValue_of_not_fits hfits] at happlied

/-- Fourteen, with its sign. -/
def fourteen : Literal :=
  ⟨['+'], "14".toList, by decide, by decide, List.all_eq_true.mp (by decide)⟩

/-- Two to the power of 63. -/
def tooLarge : Literal :=
  ⟨[], "9223372036854775808".toList, by decide, by decide, List.all_eq_true.mp (by decide)⟩

theorem applied_literal_fourteen :
    (∀ ch ∈ "fourteen ink's".toList, isDecimalDigit ch = false) ∧ fourteen.Fits ∧
      atMost.applied "+14".toList "fourteen ink's".toList = some (.ok (.boolean true)) := by
  have hdigits : ∀ ch ∈ "fourteen ink's".toList, isDecimalDigit ch = false :=
    forall_not_isDecimalDigit (by decide +kernel)
  have hfits : fourteen.Fits := by unfold Literal.Fits; decide +kernel
  exact ⟨hdigits, hfits, ((applied_literal atMost fourteen hdigits).1 hfits).1⟩

/-- A literal that does not fit is not above the length of every text. It counts as zero. -/
theorem not_applied_literal : ¬∀ (c : Comparison) (d : Literal) (t : Text),
    (∀ ch ∈ t, isDecimalDigit ch = false) →
      c.applied d.written t = some (.ok (.boolean (c.ints d.value t.length))) ∧
      c.applied t d.written = some (.ok (.boolean (c.ints t.length d.value))) := by
  intro hall
  have hdigits : ∀ ch ∈ "abc".toList, isDecimalDigit ch = false :=
    forall_not_isDecimalDigit (by decide +kernel)
  have htrue := (hall greater tooLarge "abc".toList hdigits).1
  have hfits : ¬tooLarge.Fits := by unfold Literal.Fits; decide +kernel
  have hfalse := (applied_written greater tooLarge hdigits).1
  rw [tooLarge.literalValue_of_not_fits hfits, htrue] at hfalse
  have hsame : greater.ints tooLarge.value 3 = greater.ints 0 3 := by simpa using hfalse
  exact absurd hsame (by decide +kernel)

/-! ## Converses

Exchanging the sides exchanges what the texts are measured by, unless both are literals. -/

/-- Whether two texts are literals that are not both numbers, so that they are measured. -/
def Clash (a b : Text) : Prop :=
  isIntegerLiteral a = true ∧ isIntegerLiteral b = true ∧ ∃ c ∈ a ++ b, isForeignDigit c = true

/-- Literals that clash are compared as they are measured. -/
theorem against_of_clash (c : Comparison) (h : Clash a b) (p : Int × Int) :
    c.against p a b = c.ints p.1 p.2 := by
  obtain ⟨ha, hb, ch, hmem, hforeign⟩ := h
  have hnone : ∀ t, isIntegerLiteral t = true → ch ∈ t →
      (Operand.text t).asInt? = none ∧ (Operand.text t).asFloat? = none := by
    intro t ht hch
    have hnot : ¬∀ c ∈ t, isForeignDigit c = false := fun hall => by simp [hall ch hch] at hforeign
    refine ⟨asInt?_of_not_literal ?_, ?_⟩
    · rwa [← isSome_readInteger?_of_literal ht, Bool.not_eq_true] at hnot
    · rwa [← isSome_asFloat?_of_literal ht, Option.not_isSome_iff_eq_none] at hnot
  -- The foreign character is in one of the two, and one is enough to rule out both readings.
  rcases List.mem_append.mp hmem with hch | hch
  · obtain ⟨hint, hfloat⟩ := hnone a ha hch
    exact against_of_eq_none c (.inl hint) (.inl hfloat) p
  · obtain ⟨hint, hfloat⟩ := hnone b hb hch
    exact against_of_eq_none c (.inr hint) (.inr hfloat) p

/-- Two texts that do not clash are compared by the same integers on either side. -/
theorem exists_measured (h : ¬Clash a b) : ∃ p : Int × Int, ∀ c : Comparison,
    c.against (Operator.measure a b) a b = c.against p a b ∧
      c.against (Operator.measure b a) b a = c.against p.swap b a := by
  -- Two literals are compared as numbers, and their measures do not matter.
  by_cases hboth : isIntegerLiteral a = true ∧ isIntegerLiteral b = true
  · obtain ⟨ha, hb⟩ := hboth
    have hnone : ∀ t, isIntegerLiteral t = true → (∀ c ∈ t, c ∈ a ++ b) →
        (Operand.text t).asFloat?.isSome = true := by
      intro t ht hsub
      refine (isSome_asFloat?_of_literal ht).mpr fun c hc => ?_
      by_contra hforeign
      exact h ⟨ha, hb, c, hsub c hc, by simpa using hforeign⟩
    have hfloata := hnone a ha fun c hc => List.mem_append_left b hc
    have hfloatb := hnone b hb fun c hc => List.mem_append_right a hc
    exact ⟨(0, 0), fun c => ⟨c.against_of_isSome hfloata hfloatb _ _,
      c.against_of_isSome hfloatb hfloata _ _⟩⟩
  · refine ⟨Operator.measure a b, fun c => ⟨rfl, ?_⟩⟩
    have hswap : Operator.measure b a = (Operator.measure a b).swap := by
      unfold Operator.measure
      cases ha : isIntegerLiteral a <;> cases hb : isIntegerLiteral b <;> simp_all
    rw [hswap]

/-- **The comparisons of texts are converses of each other**, and nothing is less than what is less
than it, but for two integer literals with a digit of another script in one of them. Of these the
number of the left one is compared with the length of the right one. -/
theorem applied_converse_iff (a b : Text) :
    (∀ c : Comparison, c.applied a b = c.converse.applied b a ↔
      (Clash a b → c.ints (Operator.literalValue a) b.length =
        c.ints a.length (Operator.literalValue b))) ∧
    (less.applied a b = some (.ok (.boolean true)) ∧
        less.applied b a = some (.ok (.boolean true)) ↔
      Clash a b ∧ Operator.literalValue a < b.length ∧ Operator.literalValue b < a.length) := by
  simp only [applied_eq, Option.some.injEq, Except.ok.injEq, Operand.boolean.injEq]
  -- Only in a clash is the left side preferred to the right one.
  by_cases hclash : Clash a b
  · have hmem : Clash b a := by
      obtain ⟨ha, hb, c, hc, hforeign⟩ := hclash
      exact ⟨hb, ha, c, List.mem_append.mpr (List.mem_append.mp hc).symm, hforeign⟩
    have hmeasure : ∀ {s t : Text}, Clash s t →
        Operator.measure s t = (Operator.literalValue s, ↑t.length) := fun h => if_pos h.1
    refine ⟨fun c => ?_, ?_⟩
    · rw [c.against_of_clash hclash, c.converse.against_of_clash hmem, hmeasure hclash,
        hmeasure hmem, c.ints_converse, forall_prop_of_true hclash]
    · rw [less.against_of_clash hclash, less.against_of_clash hmem, hmeasure hclash,
        hmeasure hmem, and_iff_right hclash]
      simp [ints]
  · obtain ⟨p, hp⟩ := exists_measured hclash
    refine ⟨fun c => iff_of_true ?_ fun h => absurd h hclash, iff_of_false ?_ fun h => hclash h.1⟩
    · rw [(hp c).1, (hp c.converse).2, c.against_converse]
    · rintro ⟨hless, hgreater⟩
      rw [(hp less).1] at hless
      rw [(hp less).2, less_asymm hless] at hgreater
      exact absurd hgreater (by simp)

/-- Each of two Arabic digits is less than the other one: both are numbers on the left, and lengths
on the right. -/
theorem not_applied_converse : ¬∀ a b : Text,
    (∀ c : Comparison, c.applied a b = c.converse.applied b a) ∧
      ¬(less.applied a b = some (.ok (.boolean true)) ∧
        less.applied b a = some (.ok (.boolean true))) := by
  intro hall
  have hthree : less.against (Operator.measure ['\u0663'] ['\u0660']) ['\u0663'] ['\u0660'] = true := by
    decide +kernel
  have hzero : less.against (Operator.measure ['\u0660'] ['\u0663']) ['\u0660'] ['\u0663'] = true := by
    decide +kernel
  refine (hall ['\u0663'] ['\u0660']).2 ⟨?_, ?_⟩
  · rw [applied_eq, hthree]
  · rw [applied_eq, hzero]

end Comparison

end MarkupTemplate
