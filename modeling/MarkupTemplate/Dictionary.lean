import MarkupTemplate.Text.Basic

/-!
# Dictionaries

Values under names. A dictionary keeps its entries in the order in which their names came in, and
an entry that is given again keeps its place; `get?_insert` and `get?_erase` say all there is to
know about look-ups.
-/

set_option autoImplicit false

namespace MarkupTemplate

/-- Values under names, in the order of arrival. The order is kept for those who list the entries;
no look-up depends on it. -/
structure Dictionary (α : Type) where
  entries : List (Text × α) := []

namespace Dictionary

variable {α : Type}

def empty : Dictionary α := {}

instance : Inhabited (Dictionary α) := ⟨empty⟩

/-! ## Operations on entries

These work on the bare list, as recursions that follow it. The laws are proved about them, and the
operations on dictionaries are each one of them. -/

/-- The value of the first entry of a name. -/
def lookup (name : Text) : List (Text × α) → Option α
  | [] => none
  | (n, a) :: rest => if n = name then some a else lookup name rest

/-- Puts a value into the first entry of a name, or into a new one at the end, so that an entry
keeps its place when its value changes. -/
def put (name : Text) (value : α) : List (Text × α) → List (Text × α)
  | [] => [(name, value)]
  | (n, a) :: rest => if n = name then (name, value) :: rest else (n, a) :: put name value rest

/-! ## Operations -/

def get? (d : Dictionary α) (name : Text) : Option α := lookup name d.entries

def contains (d : Dictionary α) (name : Text) : Bool := (d.get? name).isSome

/-- Puts a value under a name, in place of the one before. -/
def insert (d : Dictionary α) (name : Text) (value : α) : Dictionary α :=
  ⟨put name value d.entries⟩

def erase (d : Dictionary α) (name : Text) : Dictionary α :=
  ⟨d.entries.filter fun e => e.1 ≠ name⟩

/-- Puts a value under a name, behind all other entries. This is for tables in which what came last
is to be looked at last, also when it was there before. -/
def insertLast (d : Dictionary α) (name : Text) (value : α) : Dictionary α :=
  ⟨(d.erase name).entries ++ [(name, value)]⟩

/-- The dictionary of the given entries; of equal names the last one counts. -/
def ofList (entries : List (Text × α)) : Dictionary α :=
  entries.foldl (fun (d : Dictionary α) e => d.insert e.1 e.2) empty

/-! ## Look-ups after an operation

Every operation is known by what a look-up finds behind it. The cases of the proofs are those of the
recursions: whether the entry in front is the one that is operated on, and whether it is the one
that is looked for. -/

@[simp] theorem get?_empty (name : Text) : (empty : Dictionary α).get? name = none := rfl

theorem lookup_put (entries : List (Text × α)) (name other : Text) (value : α) :
    lookup other (put name value entries) =
      if name = other then some value else lookup other entries := by
  induction entries with
  | nil => simp [put, lookup]
  | cons e rest ih =>
    obtain ⟨n, a⟩ := e
    by_cases hn : n = name
    · subst hn; by_cases ho : n = other <;> simp [put, lookup, ho]
    · by_cases ho : n = other
      · subst ho; simp [put, lookup, hn, Ne.symm hn]
      · simp [put, lookup, hn, ho, ih]

theorem get?_insert (d : Dictionary α) (name other : Text) (value : α) :
    (d.insert name value).get? other = if name = other then some value else d.get? other :=
  lookup_put d.entries name other value

theorem lookup_filter (entries : List (Text × α)) (name other : Text) :
    lookup other (entries.filter fun e => e.1 ≠ name) =
      if name = other then none else lookup other entries := by
  induction entries with
  | nil => simp [lookup]
  | cons e rest ih =>
    obtain ⟨n, a⟩ := e
    by_cases hn : n = name
    · subst hn; by_cases ho : n = other <;> simp_all [lookup]
    · by_cases ho : n = other
      · subst ho; simp [lookup, hn, Ne.symm hn]
      · simp_all [lookup]

theorem get?_erase (d : Dictionary α) (name other : Text) :
    (d.erase name).get? other = if name = other then none else d.get? other :=
  lookup_filter d.entries name other

end Dictionary

end MarkupTemplate
