import MarkupTemplate.Text.Basic

/-!
# Odometers

A loop over all combinations of the elements of some arrays goes through them like an odometer: each
array is a wheel that stands at one of its elements, the last wheel turns fastest, and a wheel that
comes round turns the one in front of it. The loop ends where the first wheel would come round.

`reading` is how often an odometer was advanced since all its wheels stood at their first elements.
It grows by one with each step and stays below the number of combinations (`reading_of_advance?`,
`reading_lt_volume`), so the loop ends.
-/

set_option autoImplicit false

namespace MarkupTemplate

/-- A named array, and at which of its elements it stands. An array without elements cannot be a
wheel, since there is nothing to stand at, so no step of an odometer has to ask for one. -/
structure Wheel where
  name : Text
  values : List Text
  position : Fin values.length

namespace Wheel

/-- The wheel of an array at its first element, if it has one. -/
def first? (array : Text × List Text) : Option Wheel :=
  if h : 0 < array.2.length then some ⟨array.1, array.2, ⟨0, h⟩⟩ else none

/-- What a wheel stands at, under its name. -/
def binding (w : Wheel) : Text × Text := (w.name, w.values.get w.position)

def next? (w : Wheel) : Option Wheel :=
  if h : w.position.val + 1 < w.values.length then
    some { w with position := ⟨w.position.val + 1, h⟩ }
  else none

def rewound (w : Wheel) : Wheel :=
  { w with position := ⟨0, Nat.zero_lt_of_lt w.position.isLt⟩ }

end Wheel

/-- Wheels in a row, the last one turning fastest. -/
abbrev Odometer := List Wheel

namespace Odometer

/-- The odometer of some arrays at their first elements, if all of them have one. -/
def start? : List (Text × List Text) → Option Odometer
  | [] => some []
  | array :: arrays => do
    let w ← Wheel.first? array
    let ws ← start? arrays
    return w :: ws

/-- The odometer one step further: a wheel turns if all those behind it come round. There is no step
if all wheels would come round. The recursion is on the wheels from the left, so what the wheels
behind do is known when a wheel is looked at. -/
def advance? : Odometer → Option Odometer
  | [] => none
  | w :: ws =>
    match advance? ws with
    | some ws => some (w :: ws)
    | none => w.next?.map fun w => w :: ws.map Wheel.rewound

/-- How many combinations an odometer goes through. It depends on the arrays alone, so it stays the
same while the wheels turn. -/
def volume : Odometer → Nat
  | [] => 1
  | w :: ws => w.values.length * volume ws

/-- How many combinations are in front of the one that an odometer stands at: the positions of its
wheels are the digits of that number, each to the base of its own wheel. -/
def reading : Odometer → Nat
  | [] => 0
  | w :: ws => w.position.val * volume ws + reading ws

theorem reading_lt_volume (o : Odometer) : reading o < volume o := by
  induction o with
  | nil => exact Nat.zero_lt_one
  | cons w ws ih =>
    have hle := Nat.mul_le_mul_right (volume ws) w.position.isLt
    rw [Nat.succ_mul] at hle
    simp only [reading, volume]
    omega

@[simp] theorem volume_rewound (o : Odometer) : volume (o.map Wheel.rewound) = volume o := by
  induction o with
  | nil => rfl
  | cons w ws ih => simp only [List.map_cons, volume, ih, Wheel.rewound]

@[simp] theorem reading_rewound (o : Odometer) : reading (o.map Wheel.rewound) = 0 := by
  induction o with
  | nil => rfl
  | cons w ws ih => simp only [List.map_cons, reading, ih, Wheel.rewound, Nat.zero_mul]

/-- An odometer that cannot be advanced stands at its last combination. -/
theorem reading_of_advance?_none {o : Odometer} (h : advance? o = none) :
    reading o + 1 = volume o := by
  induction o with
  | nil => rfl
  | cons w ws ih =>
    simp only [advance?] at h
    cases hws : advance? ws with
    | some ws' => simp [hws] at h
    | none =>
      have hlast := ih hws
      have hend : w.position.val + 1 = w.values.length := by
        have hlt := w.position.isLt
        simp only [hws, Option.map_eq_none_iff, Wheel.next?, dite_eq_right_iff, reduceCtorEq,
          imp_false] at h
        omega
      calc w.position.val * volume ws + reading ws + 1
          = (w.position.val + 1) * volume ws := by rw [Nat.add_assoc, hlast, Nat.succ_mul]
        _ = w.values.length * volume ws := by rw [hend]

/-- One step is one combination further. This is what an odometer is for, and why going through one
comes to an end. -/
theorem reading_of_advance? {o o' : Odometer} (h : advance? o = some o') :
    reading o' = reading o + 1 ∧ volume o' = volume o := by
  induction o generalizing o' with
  | nil => simp [advance?] at h
  | cons w ws ih =>
    simp only [advance?] at h
    cases hws : advance? ws with
    | some ws' =>
      obtain ⟨hreading, hvolume⟩ := ih hws
      simp only [hws, Option.some.injEq] at h
      subst h
      constructor
      · simp only [reading, hreading, hvolume, Nat.add_assoc]
      · simp only [volume, hvolume]
    | none =>
      -- The wheels behind have come round: they stood at their last combination, and are at the
      -- first.
      have hlast := reading_of_advance?_none hws
      simp only [hws, Option.map_eq_some_iff, Wheel.next?] at h
      obtain ⟨w', hw', rfl⟩ := h
      split at hw'
      · obtain rfl := Option.some.inj hw'
        constructor
        · simp only [reading, reading_rewound, volume_rewound, Nat.add_assoc, hlast, Nat.add_zero,
            Nat.succ_mul]
        · simp only [volume, volume_rewound]
      · cases hw'

/-- An odometer and what it becomes by being advanced again and again. What gets smaller is the
number of combinations that are left. -/
def run (o : Odometer) : List Odometer :=
  match _h : advance? o with
  | some o' => o :: run o'
  | none => [o]
termination_by volume o - reading o
decreasing_by
  have hstep := reading_of_advance? _h
  have hlt := reading_lt_volume o
  omega

end Odometer

end MarkupTemplate
