import MarkupTemplate.Text.Basic

/-!
# Blank characters

A character is blank if it has the Unicode property `White_Space`; templates, equations and
attribute lists all use this one notion. `trim` takes the blanks off both ends of a text, and a
text is blank exactly when nothing is left of it.
-/

set_option autoImplicit false

namespace MarkupTemplate

/-- The characters with the Unicode property `White_Space`, which are few enough to be listed. -/
def isBlank (c : Char) : Bool :=
  let n := c.toNat
  (0x09 ≤ n && n ≤ 0x0D) || n == 0x20 || n == 0x85 || n == 0xA0 || n == 0x1680 ||
    (0x2000 ≤ n && n ≤ 0x200A) || n == 0x2028 || n == 0x2029 || n == 0x202F || n == 0x205F ||
    n == 0x3000

namespace Text

def trimLeft (t : Text) : Text := t.dropWhile isBlank

def trimRight (t : Text) : Text := (t.reverse.dropWhile isBlank).reverse

/-- The text without the blanks at its two ends. Those inside stay as they are. -/
def trim (t : Text) : Text := trimRight (trimLeft t)

/-- Whether a text has nothing but blanks in it. A text of no characters counts. -/
def isBlankText (t : Text) : Bool := t.all isBlank

@[simp] theorem trim_nil : trim [] = [] := rfl

theorem trimLeft_eq_nil_iff {t : Text} : trimLeft t = [] ↔ isBlankText t = true := by
  induction t with
  | nil => simp [trimLeft, isBlankText]
  | cons c t ih =>
    cases h : isBlank c
    · simp [trimLeft, isBlankText, h]
    · simp_all [trimLeft, isBlankText]

theorem trim_eq_nil_iff {t : Text} : trim t = [] ↔ isBlankText t = true := by
  rw [← trimLeft_eq_nil_iff]
  constructor
  · intro h
    have hr : trimLeft (trimLeft t).reverse = [] := List.reverse_eq_nil_iff.1 h
    have hb := trimLeft_eq_nil_iff.1 hr
    cases hl : trimLeft t with
    | nil => rfl
    | cons c rest =>
      have hc : isBlank c = true := by
        have hm : c ∈ (trimLeft t).reverse := by simp [hl]
        exact List.all_eq_true.1 hb c hm
      have hd := List.head?_dropWhile_not isBlank t
      rw [show t.dropWhile isBlank = c :: rest from hl] at hd
      simp [hc] at hd
  · intro h
    simp [trim, h, trimRight]

end Text

end MarkupTemplate
