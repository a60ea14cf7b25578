import MarkupTemplate.Text.Basic

/-!
# Strings as codes

A string in JSON spells a row of codes: the characters between its quotes, and after a backslash
letters that stand for a character or four digits that give a code of 16 bits. A character beyond 16
bits is spelled by its digits as two codes, the halves of a surrogate pair.

So not every string spells a text: a half may stand alone. `readCodes` reads any string,
`textOfCodes?` says which text it spells, and where a half stands alone there is none. The two are
kept apart, since a string without a text may stand where nobody asks for it.
-/

set_option autoImplicit false

namespace MarkupTemplate

namespace Json

/-! ## Codes -/

/-- The value of a hexadecimal digit. -/
def hexDigit? (c : Char) : Option Nat :=
  if c.isDigit then some (c.toNat - '0'.toNat)
  else if 'a' ≤ c ∧ c ≤ 'f' then some (c.toNat - 'a'.toNat + 10)
  else if 'A' ≤ c ∧ c ≤ 'F' then some (c.toNat - 'A'.toNat + 10)
  else none

def hexCode? (a b c d : Char) : Option Nat := do
  return (((← hexDigit? a) * 16 + (← hexDigit? b)) * 16 + (← hexDigit? c)) * 16 + (← hexDigit? d)

/-- The character that a letter stands for after a backslash. -/
def escaped? (c : Char) : Option Char :=
  match c with
  | '"' => some '"'
  | '\\' => some '\\'
  | '/' => some '/'
  | 'b' => some '\x08'
  | 'f' => some '\x0c'
  | 'n' => some '\n'
  | 'r' => some '\r'
  | 't' => some '\t'
  | _ => none

/-- The rest of a string after its opening quote: its codes, put behind the ones already read in
reverse, and what follows the closing quote. Control characters have to be escaped. -/
def readCodes : List Nat → Text → Option (List Nat × Text)
  | _, [] => none
  | before, '"' :: rest => some (before.reverse, rest)
  | before, '\\' :: 'u' :: a :: b :: c :: d :: rest =>
    match hexCode? a b c d with
    | none => none
    | some code => readCodes (code :: before) rest
  | before, '\\' :: c :: rest =>
    match escaped? c with
    | none => none
    | some e => readCodes (e.toNat :: before) rest
  | before, c :: rest =>
    if c.toNat < 0x20 ∨ c = '\\' then none else readCodes (c.toNat :: before) rest

/-! ## Texts -/

/-- Whether a code is the first half of a surrogate pair. -/
def isHighHalf (code : Nat) : Bool := 0xD800 ≤ code && code < 0xDC00

/-- Whether a code is the second half of a surrogate pair. -/
def isLowHalf (code : Nat) : Bool := 0xDC00 ≤ code && code < 0xE000

/-- The character that the halves of a pair spell. -/
def pairedChar (high low : Nat) : Char :=
  Char.ofNat (0x10000 + (high - 0xD800) * 0x400 + (low - 0xDC00))

/-- The text that codes spell behind a text given in reverse; none if a half stands alone, or two
stand in the wrong order. -/
def textOfCodes? : Text → List Nat → Option Text
  | before, [] => some before.reverse
  | before, code :: rest =>
    if isHighHalf code then
      match rest with
      | [] => none
      | low :: rest =>
        if isLowHalf low then textOfCodes? (pairedChar code low :: before) rest else none
    else if isLowHalf code then none
    else textOfCodes? (Char.ofNat code :: before) rest

end Json

end MarkupTemplate
