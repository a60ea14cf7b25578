import MarkupTemplate.Number.Integer
import MarkupTemplate.Value

/-!
# Words

A word is made of letters and digits of any script. It has no blank in it, so trimming leaves it
alone, and no character that is a marker, a quote or a parenthesis. Numbers and truth values are
written in words.

Which characters are letters is a table, and too long a one to reason about. That no blank is in it
is checked by evaluation, for the blanks; everything else about words is that a character which is
not a letter or digit is different from all that are.
-/

set_option autoImplicit false

namespace MarkupTemplate

/-! ## Letters and digits -/

/-- The code points of blanks. -/
def blankCodes : List Nat :=
  (List.range 5).map (0x09 + ·) ++ (List.range 11).map (0x2000 + ·) ++
    [0x20, 0x85, 0xA0, 0x1680, 0x2028, 0x2029, 0x202F, 0x205F, 0x3000]

/-- The code point of a blank is in the list. -/
theorem mem_blankCodes {c : Char} (h : isBlank c = true) : c.toNat ∈ blankCodes := by
  unfold isBlank at h
  generalize c.toNat = n at h
  simp only [Bool.or_eq_true, Bool.and_eq_true, decide_eq_true_eq, beq_iff_eq] at h
  simp only [blankCodes, List.mem_append, List.mem_cons, List.mem_map, List.mem_range,
    List.not_mem_nil, or_false]
  by_cases hlow : 0x09 ≤ n ∧ n ≤ 0x0D
  · exact Or.inl (Or.inl ⟨n - 0x09, by omega, by omega⟩)
  · by_cases hhigh : 0x2000 ≤ n ∧ n ≤ 0x200A
    · exact Or.inl (Or.inr ⟨n - 0x2000, by omega, by omega⟩)
    · exact Or.inr (by omega)

theorem isBlank_of_isAlphanumeric {c : Char} (h : isAlphanumeric c = true) : isBlank c = false := by
  have hnone : ∀ n ∈ blankCodes,
      (alphabeticRanges.covers n || numericRanges.covers n) = false := by decide +kernel
  cases hb : isBlank c with
  | false => rfl
  | true =>
    rw [isAlphanumeric, isAlphabetic, hnone _ (mem_blankCodes hb)] at h
    exact absurd h (by simp)

theorem isAlphanumeric_of_isDigit {c : Char} (h : c.isDigit = true) : isAlphanumeric c = true := by
  have hcovers : ∀ n ∈ (List.range 10).map (48 + ·), numericRanges.covers n = true := by
    decide +kernel
  have hrange : 48 ≤ c.toNat ∧ c.toNat ≤ 57 := by
    simpa [Char.isDigit, UInt32.le_iff_toNat_le] using h
  have hmem : c.toNat ∈ (List.range 10).map (48 + ·) :=
    List.mem_map.mpr ⟨c.toNat - 48, List.mem_range.mpr (by omega), by omega⟩
  rw [isAlphanumeric, hcovers _ hmem, Bool.or_true]

/-- A letter or digit is different from whatever is neither. -/
theorem ne_of_isAlphanumeric {c d : Char} (h : isAlphanumeric c = true)
    (hd : isAlphanumeric d = false) : c ≠ d := by
  rintro rfl
  rw [h] at hd
  exact absurd hd (by simp)

theorem isQuote_of_isAlphanumeric {c : Char} (h : isAlphanumeric c = true) : isQuote c = false := by
  have hdouble : c ≠ '"' := ne_of_isAlphanumeric h (by decide)
  have hsingle : c ≠ '\'' := ne_of_isAlphanumeric h (by decide)
  simp [isQuote, hdouble, hsingle]

/-! ## Words -/

namespace Text

/-- Whether a text is made of letters and digits, and is not empty. -/
def IsWord (t : Text) : Prop := t ≠ [] ∧ ∀ c ∈ t, isAlphanumeric c = true

variable {t : Text}

instance : Decidable t.IsWord :=
  decidable_of_iff (t ≠ [] ∧ t.all isAlphanumeric = true)
    (and_congr_right fun _ => List.all_eq_true)

theorem IsWord.notMem (h : t.IsWord) {c : Char} (hc : isAlphanumeric c = false) : c ∉ t := by
  intro hm
  exact ne_of_isAlphanumeric (h.2 c hm) hc rfl

theorem IsWord.isBlank (h : t.IsWord) : ∀ c ∈ t, isBlank c = false :=
  fun c hc => isBlank_of_isAlphanumeric (h.2 c hc)

theorem trim_of_isBlank (h : ∀ c ∈ t, MarkupTemplate.isBlank c = false) : trim t = t := by
  have hkeep : ∀ s : Text, (∀ c ∈ s, MarkupTemplate.isBlank c = false) →
      s.dropWhile MarkupTemplate.isBlank = s := by
    intro s hs
    cases s with
    | nil => rfl
    | cons c s => exact List.dropWhile_cons_of_neg (by simp [hs c List.mem_cons_self])
  rw [trim, trimLeft, trimRight, hkeep t h,
    hkeep t.reverse (fun c hc => h c (List.mem_reverse.mp hc)), List.reverse_reverse]

theorem IsWord.trim_eq (h : t.IsWord) : trim t = t := trim_of_isBlank h.isBlank

theorem IsWord.isBlankText (h : t.IsWord) : isBlankText t = false := by
  cases ht : t with
  | nil => exact absurd ht h.1
  | cons c s =>
    have hc : MarkupTemplate.isBlank c = false := h.isBlank c (ht ▸ List.mem_cons_self)
    simp [Text.isBlankText, hc]

theorem IsWord.dropFirst? (h : t.IsWord) {c : Char} (hc : isAlphanumeric c = false) :
    Text.dropFirst? c t = none := by
  cases hd : Text.dropFirst? c t with
  | none => rfl
  | some rest =>
    have ht := dropFirst?_eq_some_iff.mp hd
    exact absurd (ht ▸ List.mem_cons_self) (h.notMem hc)

theorem IsWord.dropLast? (h : t.IsWord) {c : Char} (hc : isAlphanumeric c = false) :
    Text.dropLast? c t = none := by
  cases hd : Text.dropLast? c t with
  | none => rfl
  | some init =>
    have ht := dropLast?_eq_some_iff.mp hd
    exact absurd (ht ▸ List.mem_append_right init (List.mem_singleton_self c)) (h.notMem hc)

end Text

theorem isWord_writeNat (n : Nat) : (writeNat n).IsWord :=
  ⟨Nat.toDigits_ne_nil, fun _ hc => isAlphanumeric_of_isDigit (isDigit_of_mem_writeNat hc)⟩

theorem isWord_writeBool (b : Bool) : (writeBool b).IsWord := by
  cases b <;> exact ⟨by decide, List.all_eq_true.mp (by decide)⟩

end MarkupTemplate
