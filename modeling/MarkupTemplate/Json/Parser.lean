import MarkupTemplate.Json.Basic
import MarkupTemplate.Json.Code

/-!
# Reading JSON

A recursive descent over the characters. Strings and numbers are read by recursion on the text;
values, items and fields share one bound on the number of steps, which the length of the text
supplies, as every step takes at least one character.

Reading follows the grammar alone. That a part of the text has no value does not stop it: the part
is read as `illFormed`, and whoever wants its value finds none.
-/

set_option autoImplicit false

namespace MarkupTemplate

namespace Json

/-! ## Tokens

Each function takes the text from where its token begins and gives back what follows it. -/

def isSpace (c : Char) : Bool := c == ' ' || c == '\n' || c == '\t' || c == '\r'

def skipSpace (t : Text) : Text := t.dropWhile isSpace

/-- The text of a string after its opening quote, if it spells one, and what follows the closing
quote. -/
def readString (t : Text) : Option (Option Text × Text) :=
  (readCodes [] t).map fun p => (textOfCodes? [] p.1, p.2)

/-- A fraction after its point is looked for: at least one digit, or no point. -/
def readFraction (t : Text) : Option (Text × Text) :=
  match t with
  | '.' :: rest =>
    let digits := rest.takeWhile Char.isDigit
    if digits.isEmpty then none else some (digits, rest.dropWhile Char.isDigit)
  | _ => some ([], t)

def readExponent (t : Text) : Option (Option Int × Text) :=
  match t with
  | c :: rest =>
    if c == 'e' || c == 'E' then
      let sign := rest.takeWhile fun d => d == '+' || d == '-'
      let rest := rest.drop sign.length
      match readInteger? (sign ++ rest.takeWhile Char.isDigit) with
      | none => none
      | some e => some (some e, rest.dropWhile Char.isDigit)
    else some (none, t)
  | [] => some (none, t)

/-- A number without its sign: no leading zeros. It is kept as it is spelled, and nobody has decided
yet whether it is an integer. -/
def readNumber (negative : Bool) (t : Text) : Option (Numeral × Text) := do
  let whole := t.takeWhile Char.isDigit
  if whole.isEmpty || (whole.head? == some '0' && whole.length != 1) then none
  else
    let (fraction, rest) ← readFraction (t.dropWhile Char.isDigit)
    let (exponent, rest) ← readExponent rest
    return (⟨negative, whole, fraction, exponent⟩, rest)

/-- What follows a word at the start of a text. -/
def afterWord? (word : Text) (t : Text) : Option Text :=
  if word.isPrefixOf t then some (t.drop word.length) else none

/-! ## Values

The three functions call each other and share the bound `n`, which each call makes smaller by
one. -/

/-- The value of a string. -/
def ofSpelled : Option Text → Json
  | some t => .text t
  | none => .illFormed

/-- The value of an object, all of whose keys have to be texts. One key without a text is enough for
the whole object to have no value. -/
def ofSpelledFields (fields : List (Option Text × Json)) : Json :=
  match fields.mapM fun (key, value) => key.map fun key => (key, value) with
  | some fields => .object fields
  | none => .illFormed

mutual

/-- A value at the start of a text, and what follows it. White space in front of it is skipped; what
follows is for the caller to look at. -/
def readValue : Nat → Text → Option (Json × Text)
  | 0, _ => none
  | n + 1, t =>
    match skipSpace t with
    | '"' :: rest => (readString rest).map fun p => (ofSpelled p.1, p.2)
    | '[' :: rest =>
      match skipSpace rest with
      | ']' :: rest => some (.array [], rest)
      | _ => (readItems n rest []).map fun p => (.array p.1, p.2)
    | '{' :: rest =>
      match skipSpace rest with
      | '}' :: rest => some (.object [], rest)
      | _ => (readFields n rest []).map fun p => (ofSpelledFields p.1, p.2)
    | '-' :: rest => (readNumber true rest).map fun p => (.number p.1, p.2)
    | t =>
      match afterWord? "null".toList t, afterWord? "true".toList t, afterWord? "false".toList t with
      | some rest, _, _ => some (.null, rest)
      | none, some rest, _ => some (.bool true, rest)
      | none, none, some rest => some (.bool false, rest)
      | none, none, none => (readNumber false t).map fun p => (.number p.1, p.2)

/-- The items of an array up to its end, after the ones already read in reverse. -/
def readItems : Nat → Text → List Json → Option (List Json × Text)
  | 0, _, _ => none
  | n + 1, t, acc =>
    match readValue n t with
    | none => none
    | some (item, rest) =>
      match skipSpace rest with
      | ',' :: rest => readItems n rest (item :: acc)
      | ']' :: rest => some ((item :: acc).reverse, rest)
      | _ => none

/-- The fields of an object up to its end, after the ones already read in reverse. -/
def readFields : Nat → Text → List (Option Text × Json) →
    Option (List (Option Text × Json) × Text)
  | 0, _, _ => none
  | n + 1, t, acc =>
    match skipSpace t with
    | '"' :: rest =>
      match readString rest with
      | none => none
      | some (key, rest) =>
        match skipSpace rest with
        | ':' :: rest =>
          match readValue n rest with
          | none => none
          | some (value, rest) =>
            match skipSpace rest with
            | ',' :: rest => readFields n rest ((key, value) :: acc)
            | '}' :: rest => some (((key, value) :: acc).reverse, rest)
            | _ => none
        | _ => none
    | _ => none

end

/-- The value a text denotes: one value, with nothing but white space around it. Twice the length of
the text is enough for all steps. -/
def parse? (t : Text) : Option Json :=
  match readValue (2 * t.length + 2) t with
  | some (value, rest) => if (skipSpace rest).isEmpty then some value else none
  | none => none

end Json

end MarkupTemplate
