import Mathlib.Algebra.Group.Int.Defs
import Mathlib.Data.List.TakeWhile
import MarkupTemplate.Equation.Standard
import MarkupTemplate.Proofs.Tag.Content
import MarkupTemplate.Proofs.Text.Words

/-!
# Integer literals

A text is an integer literal if it is written in decimal digits, of any script and any length, with
a sign in front or without one. Its digits decide what it is besides: a literal in ASCII digits is
an integer of some size and a float, and one with a digit of another script is neither
(`isSome_readInteger?_of_literal`, `isSome_asFloat?_of_literal`). The number that an operator takes
it for is that integer if it has 64 bits, and zero otherwise (`literalValue_of_fits`,
`literalValue_of_not_fits`).

Three readers of one text are compared here: the pattern of a literal, which knows the digits of all
scripts, and the readers of integers and of floats, which know those of ASCII. Comparing texts by
their order asks all three, one after another, so which of them agree decides which branch is taken.
The tables of digits are too long to be unfolded in a proof; what is needed of them is checked for
the ASCII digits and the capital letters once, by evaluation.
-/

set_option autoImplicit false

namespace MarkupTemplate

/-! ## Signs and digits

Each reader takes blanks and one sign away first, and looks at the characters that are left. -/

/-- A text without the sign in front. -/
def unsigned : Text → Text
  | '-' :: t => t
  | '+' :: t => t
  | t => t

theorem mem_of_mem_unsigned {t : Text} {c : Char} (h : c ∈ unsigned t) : c ∈ t := by
  unfold unsigned at h
  split at h
  · exact List.mem_cons_of_mem _ h
  · exact List.mem_cons_of_mem _ h
  · exact h

theorem mem_unsigned {t : Text} {c : Char} (h : c ∈ t) (hminus : c ≠ '-') (hplus : c ≠ '+') :
    c ∈ unsigned t := by
  unfold unsigned
  split
  · exact List.mem_of_ne_of_mem hminus h
  · exact List.mem_of_ne_of_mem hplus h
  · exact h

/-- A literal is a text with digits, and nothing but digits, behind its sign. -/
theorem isIntegerLiteral_iff {t : Text} : isIntegerLiteral t = true ↔
    unsigned (Text.trim t) ≠ [] ∧ ∀ c ∈ unsigned (Text.trim t), isDecimalDigit c = true := by
  have hliteral : isIntegerLiteral t = (!(unsigned (Text.trim t)).isEmpty &&
      (unsigned (Text.trim t)).all isDecimalDigit) := rfl
  rw [hliteral]
  simp

theorem isSome_readNat?_iff {t : Text} :
    (readNat? t).isSome = true ↔ t ≠ [] ∧ ∀ c ∈ t, c.isDigit = true := by
  unfold readNat?
  split
  · next h => simpa using h
  · next h => simpa using h

/-- An integer of any size is read from ASCII digits. -/
theorem isSome_readInteger?_iff {t : Text} : (readInteger? t).isSome = true ↔
    unsigned t ≠ [] ∧ ∀ c ∈ unsigned t, c.isDigit = true := by
  have hsome : (readInteger? t).isSome = (readNat? (unsigned t)).isSome := by
    unfold readInteger? unsigned
    split
    · next digits =>
      show _ = (readNat? digits).isSome
      cases readNat? digits <;> rfl
    · simp
    · simp
  rw [hsome, isSome_readNat?_iff]

/-! ## Digits of any script

The ASCII digits are among the digits, and no digit is a sign, a blank or a letter. -/

theorem isDecimalDigit_of_isDigit {c : Char} (h : c.isDigit = true) : isDecimalDigit c = true := by
  have hcovers : ∀ n ∈ (List.range 10).map (48 + ·), decimalDigitRanges.covers n = true := by
    decide +kernel
  have hrange : 48 ≤ c.toNat ∧ c.toNat ≤ 57 := by
    simpa [Char.isDigit, UInt32.le_iff_toNat_le] using h
  have hmem : c.toNat ∈ (List.range 10).map (48 + ·) :=
    List.mem_map.mpr ⟨c.toNat - 48, List.mem_range.mpr (by omega), by omega⟩
  rw [isDecimalDigit, hcovers _ hmem]

theorem forall_not_isDecimalDigit {t : Text} (h : t.any isDecimalDigit = false) :
    ∀ c ∈ t, isDecimalDigit c = false :=
  fun c hc => Bool.eq_false_iff.mpr (List.any_eq_false.mp h c hc)

theorem ne_of_isDecimalDigit {c d : Char} (h : isDecimalDigit c = true)
    (hd : isDecimalDigit d = false) : c ≠ d := by
  rintro rfl
  rw [h] at hd
  exact absurd hd (by simp)

theorem isBlank_of_isDecimalDigit {c : Char} (h : isDecimalDigit c = true) : isBlank c = false := by
  have hnone : ∀ n ∈ blankCodes, decimalDigitRanges.covers n = false := by decide +kernel
  cases hb : isBlank c with
  | false => rfl
  | true =>
    rw [isDecimalDigit, hnone _ (mem_blankCodes hb)] at h
    exact absurd h (by simp)

/-- The digits of a text are all behind its sign. -/
theorem mem_digits {t : Text} {c : Char} (h : c ∈ t) (hc : isDecimalDigit c = true) :
    c ∈ unsigned (Text.trim t) := by
  refine mem_unsigned ?_ (ne_of_isDecimalDigit hc (by decide))
    (ne_of_isDecimalDigit hc (by decide))
  obtain ⟨lead, tail, ht, hlead, htail⟩ := Text.exists_trim t
  have hblank := isBlank_of_isDecimalDigit hc
  rw [ht, List.mem_append, List.mem_append] at h
  rcases h with (hmem | hmem) | hmem
  · exact absurd (hlead c hmem) (by simp [hblank])
  · exact hmem
  · exact absurd (htail c hmem) (by simp [hblank])

/-- A digit of another script. Numbers have none, but literals may. -/
def isForeignDigit (c : Char) : Bool := isDecimalDigit c && !c.isDigit

/-- A literal is an integer unless there is a digit of another script in it. -/
theorem isSome_readInteger?_of_literal {t : Text} (h : isIntegerLiteral t = true) :
    (readInteger? (Text.trim t)).isSome = true ↔ ∀ c ∈ t, isForeignDigit c = false := by
  obtain ⟨hne, hdigits⟩ := isIntegerLiteral_iff.mp h
  rw [isSome_readInteger?_iff]
  constructor
  · rintro ⟨-, hascii⟩ c hc
    cases hdecimal : isDecimalDigit c with
    | false => simp [isForeignDigit, hdecimal]
    | true => simp [isForeignDigit, hascii c (mem_digits hc hdecimal)]
  · intro hforeign
    refine ⟨hne, fun c hc => ?_⟩
    have hc' := hforeign c (Text.mem_of_mem_trim (mem_of_mem_unsigned hc))
    simpa [isForeignDigit, hdigits c hc] using hc'

theorem isIntegerLiteral_of_readInteger? {t : Text}
    (h : (readInteger? (Text.trim t)).isSome = true) : isIntegerLiteral t = true := by
  obtain ⟨hne, hdigits⟩ := isSome_readInteger?_iff.mp h
  exact isIntegerLiteral_iff.mpr ⟨hne, fun c hc => isDecimalDigit_of_isDigit (hdigits c hc)⟩

/-! ## Literals as floats

A float may have a point, an exponent or be a word. A literal has none of these, so it is a float
just if its digits are those of a float. -/

theorem isSome_readFloat? (t : Text) : (readFloat? t).isSome =
    ((readFloatWord? (unsigned t)).or (readMagnitude? (unsigned t))).isSome := by
  unfold readFloat? unsigned
  dsimp only
  split <;> simp

/-- Digits have no case, so a literal is none of the words that are floats. -/
theorem toLower_of_isDecimalDigit {c : Char} (h : isDecimalDigit c = true) : c.toLower = c := by
  have hnone : ∀ n ∈ (List.range 26).map (65 + ·), decimalDigitRanges.covers n = false := by
    decide +kernel
  unfold Char.toLower
  split
  · next hupper =>
    -- Only the letters from `A` to `Z` are changed, and none of them is a digit.
    have hrange : 65 ≤ c.toNat ∧ c.toNat ≤ 90 := by
      simpa [UInt32.le_iff_toNat_le] using hupper
    have hmem : c.toNat ∈ (List.range 26).map (65 + ·) :=
      List.mem_map.mpr ⟨c.toNat - 65, List.mem_range.mpr (by omega), by omega⟩
    rw [isDecimalDigit, hnone _ hmem] at h
    exact absurd h (by simp)
  · rfl

theorem readFloatWord?_of_digits {t : Text} (h : ∀ c ∈ t, isDecimalDigit c = true) :
    readFloatWord? t = none := by
  have hlower : t.map Char.toLower = t :=
    (List.map_congr_left fun c hc => toLower_of_isDecimalDigit (h c hc)).trans (List.map_id t)
  -- The words are written with letters, so no row of digits is one of them.
  have hletter : ∀ word : Text, (word.any fun c => !isDecimalDigit c) = true → t ≠ word := by
    rintro word hword rfl
    obtain ⟨c, hc, hnot⟩ := List.any_eq_true.mp hword
    rw [h c hc] at hnot
    exact absurd hnot (by simp)
  unfold readFloatWord?
  dsimp only
  rw [hlower, if_neg, if_neg (hletter _ (by decide))]
  rintro (hinf | hinf)
  · exact hletter _ (by decide) hinf
  · exact hletter _ (by decide) hinf

/-- Digits are read as a float if they are all of ASCII. -/
theorem isSome_readMagnitude?_iff {t : Text} (hne : t ≠ [])
    (h : ∀ c ∈ t, isDecimalDigit c = true) :
    (readMagnitude? t).isSome = true ↔ ∀ c ∈ t, c.isDigit = true := by
  have hmark : ∀ c ∈ t, (!(c == 'e' || c == 'E')) = true := by
    intro c hc
    have hsmall : c ≠ 'e' := ne_of_isDecimalDigit (h c hc) (by decide)
    have hlarge : c ≠ 'E' := ne_of_isDecimalDigit (h c hc) (by decide)
    simp [hsmall, hlarge]
  have hread : (readMagnitude? t).isSome = (readMantissa? t).isSome := by
    unfold readMagnitude?
    dsimp only
    rw [List.takeWhile_eq_self_iff.mpr hmark, List.dropWhile_eq_nil_iff.mpr hmark]
    cases readMantissa? t <;> rfl
  rw [hread]
  unfold readMantissa?
  dsimp only
  constructor
  · intro hsome
    cases hrest : t.dropWhile Char.isDigit with
    | nil => exact fun c hc => List.dropWhile_eq_nil_iff.mp hrest c hc
    | cons c rest =>
      -- What stands behind the ASCII digits is a digit too, and no point.
      have hmem : c ∈ t := (List.dropWhile_sublist _).subset (hrest ▸ List.mem_cons_self)
      have hpoint : c ≠ '.' := ne_of_isDecimalDigit (h c hmem) (by decide)
      rw [hrest] at hsome
      simp [hpoint] at hsome
  · intro hdigits
    rw [List.dropWhile_eq_nil_iff.mpr hdigits, List.takeWhile_eq_self_iff.mpr hdigits]
    simpa using isSome_readNat?_iff.mpr ⟨hne, hdigits⟩

/-- A literal is a float unless there is a digit of another script in it. -/
theorem isSome_asFloat?_of_literal {t : Text} (h : isIntegerLiteral t = true) :
    (Operand.text t).asFloat?.isSome = true ↔ ∀ c ∈ t, isForeignDigit c = false := by
  obtain ⟨hne, hdigits⟩ := isIntegerLiteral_iff.mp h
  have hfloat : (readFloat? (Text.trim t)).isSome = true ↔
      ∀ c ∈ unsigned (Text.trim t), c.isDigit = true := by
    rw [isSome_readFloat?, readFloatWord?_of_digits hdigits, Option.none_or]
    exact isSome_readMagnitude?_iff hne hdigits
  rw [← isSome_readInteger?_of_literal h, isSome_readInteger?_iff, and_iff_right hne, ← hfloat,
    Operand.asFloat?, readDigitFloat?]
  -- A float needs a digit that is read as one. If there is none, not all characters are such
  -- digits, as there is at least one character.
  split
  · rfl
  · next hany =>
    rw [hfloat]
    refine iff_of_false (by simp) fun hall => ?_
    obtain ⟨c, hc⟩ := List.exists_mem_of_ne_nil _ hne
    exact hany (List.any_eq_true.mpr ⟨c, mem_of_mem_unsigned hc, hall c hc⟩)

/-! ## The number of a literal

An operator that counts in 64 bits reads a literal into them, and takes zero where that fails. -/

/-- An integer in decimal digits, of any length, with a sign in front or without one. -/
structure Literal where
  sign : Text
  digits : Text
  isSign : sign = [] ∨ sign = ['+'] ∨ sign = ['-']
  ne_nil : digits ≠ []
  isDigit : ∀ c ∈ digits, c.isDigit = true

namespace Literal

def written (d : Literal) : Text := d.sign ++ d.digits

/-- The integer that a literal denotes. -/
def value (d : Literal) : Int :=
  if d.sign = ['-'] then -(Nat.ofDigitChars 10 d.digits 0 : Int)
  else Nat.ofDigitChars 10 d.digits 0

/-- Whether the integer that a literal denotes has 64 bits. -/
def Fits (d : Literal) : Prop := -2 ^ 63 ≤ d.value ∧ d.value < 2 ^ 63

/-- A literal in ASCII digits is read as the integer that it denotes, whatever its size. -/
theorem readInteger?_written (d : Literal) : readInteger? d.written = some d.value := by
  have hread : readNat? d.digits = some (Nat.ofDigitChars 10 d.digits 0) :=
    if_pos ⟨d.ne_nil, List.all_eq_true.mpr d.isDigit⟩
  rcases d.isSign with hsign | hsign | hsign
  · rw [written, value, hsign, List.nil_append, if_neg (by simp)]
    exact readInteger?_of_readNat? hread
  · rw [written, value, hsign, if_neg (by decide)]
    show (readNat? d.digits).map Int.ofNat = _
    rw [hread]
    rfl
  · rw [written, value, hsign, if_pos rfl]
    show (readNat? d.digits).map (fun n => -(n : Int)) = _
    rw [hread]
    rfl

theorem trim_written (d : Literal) : Text.trim d.written = d.written := by
  refine Text.trim_of_isBlank fun c hc => ?_
  rcases List.mem_append.mp hc with hmem | hmem
  · rcases d.isSign with hsign | hsign | hsign <;> simp_all [isBlank]
  · exact isBlank_of_isDecimalDigit (isDecimalDigit_of_isDigit (d.isDigit c hmem))

theorem isIntegerLiteral_written (d : Literal) : isIntegerLiteral d.written = true :=
  isIntegerLiteral_of_readInteger? (by rw [d.trim_written, d.readInteger?_written]; rfl)

/-- A literal that fits stands for the integer that it denotes. -/
theorem literalValue_of_fits {d : Literal} (h : d.Fits) :
    Operator.literalValue d.written = d.value := by
  have hbound : Int.pow 2 63 = 2 ^ 63 := rfl
  have hfits : -Int.pow 2 63 ≤ d.value ∧ d.value < Int.pow 2 63 := hbound ▸ h
  have hint : int64? d.value = some (Int64.ofInt d.value) := if_pos hfits
  rw [Operator.literalValue, d.trim_written, readInt64?, d.readInteger?_written, Option.bind_some,
    hint]
  exact Int64.toInt_ofInt_of_le hfits.1 hfits.2

/-- A literal that does not fit stands for no other number than zero. -/
theorem literalValue_of_not_fits {d : Literal} (h : ¬d.Fits) :
    Operator.literalValue d.written = 0 := by
  have hint : int64? d.value = none := if_neg h
  rw [Operator.literalValue, d.trim_written, readInt64?, d.readInteger?_written, Option.bind_some,
    hint]
  rfl

end Literal

/-! ## Texts without digits

Such a text is no number of any kind. -/

theorem isIntegerLiteral_of_noDigit {t : Text} (h : ∀ c ∈ t, isDecimalDigit c = false) :
    isIntegerLiteral t = false := by
  rw [Bool.eq_false_iff, Ne, isIntegerLiteral_iff]
  rintro ⟨hne, hdigits⟩
  obtain ⟨c, hc⟩ := List.exists_mem_of_ne_nil _ hne
  have hdigit := hdigits c hc
  rw [h c (Text.mem_of_mem_trim (mem_of_mem_unsigned hc))] at hdigit
  exact absurd hdigit (by simp)

/-- A text is read as an integer only if it is a literal. -/
theorem asInt?_of_not_literal {t : Text} (h : (readInteger? (Text.trim t)).isSome = false) :
    (Operand.text t).asInt? = none := by
  have hnone : readInteger? (Text.trim t) = none := by
    rwa [← Option.isNone_iff_eq_none, ← Option.not_isSome, Bool.not_eq_true']
  rw [Operand.asInt?, readInt64?, hnone, Option.bind_none]

theorem asFloat?_of_noDigit {t : Text} (h : ∀ c ∈ t, isDecimalDigit c = false) :
    (Operand.text t).asFloat? = none := by
  have hany : (Text.trim t).any Char.isDigit = false := by
    rw [List.any_eq_false]
    intro c hc hdigit
    have hdecimal := isDecimalDigit_of_isDigit hdigit
    rw [h c (Text.mem_of_mem_trim hc)] at hdecimal
    exact absurd hdecimal (by simp)
  rw [Operand.asFloat?, readDigitFloat?, hany]
  rfl

end MarkupTemplate
