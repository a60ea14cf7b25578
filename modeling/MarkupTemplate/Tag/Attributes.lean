import MarkupTemplate.Error.Fault
import MarkupTemplate.Markers
import MarkupTemplate.Text.Blank
import MarkupTemplate.Text.Letters

/-!
# Attributes

A tag has positional attributes, `value "quoted value"`, or named ones, `key=value`, never both.
Items stand apart by blanks; quotes, single or double, keep blanks together and are dropped, also
in the middle of a value. The text before the first separator of an item is its key if it has the
form of one, and part of the value otherwise.

Reading is one pass over the characters with the item under way as its state.
-/

set_option autoImplicit false

namespace MarkupTemplate

/-- The attributes of a tag. A tag without attributes is of neither kind, and does for both. -/
inductive Attributes where
  | none
  | positional (values : List Text)
  | named (pairs : List (Text × Text))
deriving DecidableEq, Inhabited

/-- Whether a text can be the key of an attribute: a letter or underscore, then letters, digits,
and the characters `_`, `-`, `:` and `.`. -/
def isKey : Text → Bool
  | [] => false
  | first :: rest =>
    (isAlphabetic first || first == '_') &&
      rest.all fun c => isAlphanumeric c || c == '_' || c == '-' || c == ':' || c == '.'

namespace Attributes

/-! ## Items

The one pass that cuts the text of a tag. `Pending` is its state, and what a character does to it is
`push`. -/

/-- An attribute: a value, under a key if it is named. Whether a tag may have it is seen when all of
them are there. -/
structure Item where
  key : Option Text
  value : Text
deriving DecidableEq

/-- An item under way, and the quote that is open in it. -/
structure Pending where
  quote : Option Char := Option.none
  key : Option Text := Option.none
  value : Text := []

namespace Pending

def item (p : Pending) : Item := ⟨p.key, p.value⟩

/-- Takes in a character of an item. A separator makes a key of what is in front of it only if that
has the form of one and nothing has been a key before; so a value may hold further separators. -/
def push (separator : Char) (p : Pending) (c : Char) : Pending :=
  match p.quote with
  | some q => if c = q then { p with quote := .none } else { p with value := p.value ++ [c] }
  | Option.none =>
    if isQuote c then { p with quote := some c }
    else if c = separator ∧ p.key.isNone ∧ isKey p.value = true then
      { p with key := some p.value, value := [] }
    else { p with value := p.value ++ [c] }

end Pending

/-- The items of a text, continuing with one that is under way. There are none if a quote stays
open, since it is not known then where the tag was meant to end. -/
def items (separator : Char) : Option Pending → Text → Option (List Item)
  | .none, [] => some []
  | some p, [] => if p.quote.isSome then Option.none else some [p.item]
  | .none, c :: rest =>
    if isBlank c then items separator Option.none rest
    else items separator (some (Pending.push separator {} c)) rest
  | some p, c :: rest =>
    if p.quote.isNone ∧ isBlank c = true then
      (items separator Option.none rest).map (p.item :: ·)
    else items separator (some (p.push separator c)) rest

/-! ## Parsing

Only here the two kinds are told apart, and a mixture is refused. -/

def pairsOf (items : List Item) : List (Text × Text) :=
  items.filterMap fun i => i.key.map fun k => (k, i.value)

def valuesOf (items : List Item) : List Text :=
  items.filterMap fun i => if i.key.isNone then some i.value else Option.none

/-- The attributes written in a text, for a tag of the given name. -/
def parse (tag text : Text) (separator : Char) : Except Fault Attributes :=
  match items separator Option.none text with
  | Option.none =>
    .error (.invalidAttributes tag ("unclosed quote in ".toList ++ Fault.quoted text))
  | some items =>
    match valuesOf items, pairsOf items with
    | [], [] => .ok .none
    | values, [] => .ok (.positional values)
    | [], pairs => .ok (.named pairs)
    | _, _ => .error (.mixedAttributes tag)

/-! ## Access

Macros ask for an attribute by name, by place, or by either. Names are compared without ASCII case,
and the first one counts. -/

def values : Attributes → List Text
  | positional values => values
  | _ => []

def pairs : Attributes → List (Text × Text)
  | named pairs => pairs
  | _ => []

def size : Attributes → Nat
  | none => 0
  | positional values => values.length
  | named pairs => pairs.length

/-- The first value under a name, ignoring ASCII case. -/
def find? (name : Text) : List (Text × Text) → Option Text
  | [] => Option.none
  | (key, value) :: pairs => if Text.eqIgnoringCase key name then some value else find? name pairs

def get? (a : Attributes) (name : Text) : Option Text := find? name a.pairs

/-- The named attribute of the given name, or the positional one of the given index. A tag has
attributes of one kind only, so the two cannot contradict each other. -/
def getOr? (a : Attributes) (name : Text) (index : Nat) : Option Text :=
  match a with
  | none => Option.none
  | positional values => values[index]?
  | named pairs => find? name pairs

end Attributes

end MarkupTemplate
