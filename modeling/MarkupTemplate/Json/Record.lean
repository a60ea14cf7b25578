import MarkupTemplate.Json.Basic

/-!
# Records in JSON

A record is read from an object that gives some of its fields, each at most once, or from an array
of its first fields in order. Fields that are not given keep their default, and fields of an object
that the record does not have are passed over.

A record is described by the list of its fields, each with both directions. So the settings and the
markers are one function and two tables.
-/

set_option autoImplicit false

namespace MarkupTemplate

namespace Json

/-- A field of a record: its key, its value in JSON, and how a value in JSON replaces it. -/
structure Field (σ : Type) where
  key : Text
  write : σ → Json
  read : Json → σ → Option σ

namespace Field

variable {σ : Type}

/-- A field that holds one character, written as a text of length one. -/
def ofChar (key : String) (get : σ → Char) (set : Char → σ → σ) : Field σ where
  key := key.toList
  write s := .text [get s]
  read
    | .text [c], s => some (set c s)
    | _, _ => none

/-- A field that holds a text. -/
def ofText (key : String) (get : σ → Text) (set : Text → σ → σ) : Field σ where
  key := key.toList
  write s := .text (get s)
  read
    | .text t, s => some (set t s)
    | _, _ => none

/-- A field that holds a truth value. -/
def ofBool (key : String) (get : σ → Bool) (set : Bool → σ → σ) : Field σ where
  key := key.toList
  write s := .bool (get s)
  read
    | .bool b, s => some (set b s)
    | _, _ => none

/-- Reads the fields that an object gives; `seen` are the keys already met. A key that the record
does not have may come twice. -/
def readObject (fields : List (Field σ)) : List Text → List (Text × Json) → σ → Option σ
  | _, [], s => some s
  | seen, (key, value) :: rest, s =>
    match fields.find? fun f => f.key == key with
    | none => readObject fields seen rest s
    | some f =>
      if seen.contains key then none
      else (f.read value s).bind (readObject fields (key :: seen) rest)

/-- Reads the items of an array into the fields in order. There may be fewer items than fields, and
not more. -/
def readArray : List (Field σ) → List Json → σ → Option σ
  | _, [], s => some s
  | [], _ :: _, _ => none
  | f :: fields, item :: items, s => (f.read item s).bind (readArray fields items)

/-- Reads a record, starting from its defaults. -/
def readRecord (fields : List (Field σ)) (default : σ) : Json → Option σ
  | .object given => readObject fields [] given default
  | .array items => readArray fields items default
  | _ => none

def writeRecord (fields : List (Field σ)) (s : σ) : Json :=
  .object (fields.map fun f => (f.key, f.write s))

end Field

end Json

end MarkupTemplate
