import MarkupTemplate.Text.Letters
import MarkupTemplate.Text.Blank

/-!
# Integers

Integers are 64 bits wide and are read and written in decimal ASCII digits. Arithmetic is done on
unbounded integers and brought back by `int64?`, which answers only if the result fits; so nothing
ever wraps around.
-/

set_option autoImplicit false

namespace MarkupTemplate

/-! ## The 64-bit range

The one way from unbounded integers to 64 bits. As there is no other one, a result that does not fit
cannot be mistaken for one that does. -/

/-- The 64-bit integer of the given value, if there is one. `int64?_eq_some_iff` is what proofs go
by: it says which value, and hides how the bounds are written. -/
def int64? (n : Int) : Option Int64 :=
  if -Int.pow 2 63 ≤ n ∧ n < Int.pow 2 63 then some (Int64.ofInt n) else none

theorem int64?_eq_some_iff {n : Int} {i : Int64} : int64? n = some i ↔ i.toInt = n := by
  unfold int64?
  constructor
  · intro h
    split at h
    · next hn =>
      obtain rfl := Option.some.inj h
      exact Int64.toInt_ofInt_of_le hn.1 hn.2
    · exact absurd h (by simp)
  · rintro rfl
    rw [if_pos ⟨i.le_toInt, i.toInt_lt⟩, Int64.ofInt_toInt]

@[simp] theorem int64?_toInt (i : Int64) : int64? i.toInt = some i := int64?_eq_some_iff.2 rfl

/-! ## Reading

Reading takes ASCII digits only. What looks like an integer to a reader of other scripts is told by
`isIntegerLiteral`, and that the two differ is of consequence where texts are compared. -/

/-- The number that a non-empty run of ASCII digits denotes. Leading zeros are fine. -/
def readNat? (t : Text) : Option Nat :=
  if t ≠ [] ∧ t.all Char.isDigit = true then some (Nat.ofDigitChars 10 t 0) else none

/-- An integer of any size: digits after at most one sign. -/
def readInteger? : Text → Option Int
  | '-' :: digits => (readNat? digits).map fun n => -(n : Int)
  | '+' :: digits => (readNat? digits).map Int.ofNat
  | digits => (readNat? digits).map Int.ofNat

/-- The 64-bit integer that a text spells, without blanks around it. -/
def readInt64? (t : Text) : Option Int64 := (readInteger? t).bind int64?

/-- Whether a text is, blanks at its ends aside, nothing but decimal digits of any scripts after
at most one sign. -/
def isIntegerLiteral (t : Text) : Bool :=
  let digits := match Text.trim t with
    | '-' :: digits => digits
    | '+' :: digits => digits
    | digits => digits
  !digits.isEmpty && digits.all isDecimalDigit

/-! ## Writing

The shortest form: no plus sign, and no leading zeros. -/

def writeNat (n : Nat) : Text := Nat.toDigits 10 n

/-- A minus sign if one is needed, then the decimal digits. -/
def writeInteger : Int → Text
  | .ofNat n => writeNat n
  | .negSucc n => '-' :: writeNat (n + 1)

def writeInt64 (i : Int64) : Text := writeInteger i.toInt

/-! ## Reading back

What is written is read as the same number. Each step has its lemma: digits, a sign in front of
them, 64 bits. -/

theorem isDigit_of_mem_writeNat {c : Char} {n : Nat} (h : c ∈ writeNat n) : c.isDigit = true :=
  Nat.isDigit_of_mem_toDigits (by decide) (by decide) h

theorem readNat?_writeNat (n : Nat) : readNat? (writeNat n) = some n := by
  have hd : (writeNat n).all Char.isDigit = true :=
    List.all_eq_true.mpr fun _ => isDigit_of_mem_writeNat
  rw [readNat?, if_pos ⟨Nat.toDigits_ne_nil, hd⟩, writeNat,
    Nat.ofDigitChars_toDigits (by decide) (by decide)]

theorem isDigit_of_readNat? {c : Char} {t : Text} {n : Nat} (h : readNat? (c :: t) = some n) :
    c.isDigit = true := by
  unfold readNat? at h
  split at h
  · next hc => exact List.all_eq_true.1 hc.2 c (by simp)
  · exact absurd h (by simp)

/-- Digits without a sign in front are an integer. -/
theorem readInteger?_of_readNat? {t : Text} {n : Nat} (h : readNat? t = some n) :
    readInteger? t = some (n : Int) := by
  cases t with
  | nil => exact absurd h (by simp [readNat?])
  | cons c rest =>
    have hc := isDigit_of_readNat? h
    have hm : c ≠ '-' := by rintro rfl; exact absurd hc (by decide)
    have hp : c ≠ '+' := by rintro rfl; exact absurd hc (by decide)
    simp [readInteger?, hm, hp, h]

theorem readInteger?_writeInteger (i : Int) : readInteger? (writeInteger i) = some i := by
  cases i with
  | ofNat n => exact readInteger?_of_readNat? (readNat?_writeNat n)
  | negSucc n =>
    simp only [writeInteger, readInteger?, readNat?_writeNat]
    rfl

theorem readInt64?_writeInt64 (i : Int64) : readInt64? (writeInt64 i) = some i := by
  simp [readInt64?, writeInt64, readInteger?_writeInteger]

end MarkupTemplate
