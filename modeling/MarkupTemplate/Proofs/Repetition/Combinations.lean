import Mathlib.Algebra.Group.Nat.Defs
import Mathlib.Data.List.Forall2
import MarkupTemplate.Builtin.Repetition
import MarkupTemplate.Proofs.Engine.Run

/-!
# Loops over all combinations

A loop over all combinations counts its iterations, and the count alone says which elements they are
for: its `digits`, to the lengths of the arrays as bases, are the positions at which the wheels of
the odometer stand. The step lemma is that advancing an odometer makes its digits those of the next
number (`positions_eq_digits` with `reading_of_advance?`); the run lemma is that it passes by the
digits of all numbers below the product of the lengths, in their order (`positions_run`). Digits are
in range, larger numbers have larger digits in lexicographic order, and all positions in range are
the digits of a number, so each combination has its turn, once (`runNestedLoop_combinations`).

Names are looked up in the elements of an iteration without regard to case, and the count has a name
too. So it is asked that the names of the arrays differ from one another and from that of the count:
otherwise the first of two arrays of one name would hide the second.
-/

set_option autoImplicit false

namespace MarkupTemplate

/-! ## Digits

Three facts make the digits of the numbers below the product one listing of all positions: they are
in range, they grow with the number, and none is left out. -/

/-- The digits of a number, each to a base of its own. The last one changes fastest. -/
def digits : List Nat → Nat → List Nat
  | [], _ => []
  | _ :: bases, k => k / bases.prod :: digits bases (k % bases.prod)

section

variable {bases positions : List Nat} {base j k : Nat}

theorem prod_pos_of_lt (h : k < (base :: bases).prod) : 0 < bases.prod := by
  rw [List.prod_cons] at h
  exact Nat.pos_of_ne_zero fun hzero => by simp [hzero] at h

theorem forall₂_digits (h : k < bases.prod) : List.Forall₂ (· < ·) (digits bases k) bases := by
  induction bases generalizing k with
  | nil => exact .nil
  | cons base bases ih =>
    have hpos := prod_pos_of_lt h
    rw [List.prod_cons] at h
    exact .cons (Nat.div_lt_of_lt_mul (by rwa [Nat.mul_comm])) (ih (Nat.mod_lt k hpos))

/-- A larger number has larger digits, in lexicographic order. -/
theorem digits_lt_digits (hjk : j < k) (hk : k < bases.prod) : digits bases j < digits bases k := by
  induction bases generalizing j k with
  | nil =>
    rw [List.prod_nil] at hk
    omega
  | cons base bases ih =>
    have hpos := prod_pos_of_lt hk
    rcases Nat.lt_or_ge (j / bases.prod) (k / bases.prod) with hlt | hge
    · exact .rel hlt
    · -- With the same first digit the numbers differ in what the first digit leaves.
      have hsame : j / bases.prod = k / bases.prod :=
        Nat.le_antisymm (Nat.div_le_div_right (Nat.le_of_lt hjk)) hge
      have hj := Nat.div_add_mod j bases.prod
      have hk := Nat.div_add_mod k bases.prod
      rw [hsame] at hj
      have hrest : j % bases.prod < k % bases.prod := by omega
      rw [digits, digits, hsame]
      exact .cons (ih hrest (Nat.mod_lt k hpos))

/-- All positions in range are the digits of a number. -/
theorem exists_digits (h : List.Forall₂ (· < ·) positions bases) :
    ∃ k < bases.prod, digits bases k = positions := by
  induction h with
  | nil => exact ⟨0, Nat.zero_lt_one, rfl⟩
  | @cons position base positions bases hlt _ ih =>
    obtain ⟨k, hk, hdigits⟩ := ih
    refine ⟨bases.prod * position + k, ?_, ?_⟩
    -- The first digit counts for the product of the other bases.
    · have hle := Nat.mul_le_mul_left bases.prod hlt
      rw [Nat.mul_succ] at hle
      rw [List.prod_cons, Nat.mul_comm base]
      omega
    · rw [digits, Nat.mul_add_div (by omega), Nat.div_eq_of_lt hk, Nat.mul_add_mod,
        Nat.mod_eq_of_lt hk, hdigits, Nat.add_zero]

end

/-! ## Odometers

An odometer is read as a number; its digits are where its wheels stand. -/

namespace Odometer

variable {o o' : Odometer}

/-- The positions of the wheels, from the slowest to the fastest. -/
def positions (o : Odometer) : List Nat := o.map fun w => w.position.val

/-- The arrays of which an odometer takes elements. -/
def arrays (o : Odometer) : List (Text × List Text) := o.map fun w => (w.name, w.values)

/-- How many elements the arrays have. -/
def lengths (arrays : List (Text × List Text)) : List Nat := arrays.map fun a => a.2.length

theorem volume_eq_prod (o : Odometer) : volume o = (lengths (arrays o)).prod := by
  induction o with
  | nil => rfl
  | cons w ws ih =>
    rw [volume, ih]
    rfl

@[simp] theorem arrays_rewound (o : Odometer) : arrays (o.map Wheel.rewound) = arrays o := by
  simp [arrays, Wheel.rewound]

/-- Advancing an odometer turns its wheels and leaves their arrays as they are. -/
theorem arrays_of_advance? (h : advance? o = some o') : arrays o' = arrays o := by
  induction o generalizing o' with
  | nil => simp [advance?] at h
  | cons w ws ih =>
    simp only [advance?] at h
    -- The wheels behind turn on, or they start again and this one turns.
    split at h
    · next ws' hws =>
      obtain rfl := Option.some.inj h
      exact congrArg ((w.name, w.values) :: ·) (ih hws)
    · next hws =>
      obtain ⟨w', hw', rfl⟩ := Option.map_eq_some_iff.mp h
      unfold Wheel.next? at hw'
      split at hw'
      · obtain rfl := Option.some.inj hw'
        exact congrArg ((w.name, w.values) :: ·) (arrays_rewound ws)
      · cases hw'

/-- An odometer stands at the digits of its reading. -/
theorem positions_eq_digits (o : Odometer) :
    positions o = digits (lengths (arrays o)) (reading o) := by
  induction o with
  | nil => rfl
  | cons w ws ih =>
    have hlt := reading_lt_volume ws
    rw [volume_eq_prod] at hlt
    -- The first digit is what the volume of the other wheels goes into the reading.
    have hpos : 0 < (lengths (arrays ws)).prod := by omega
    show w.position.val :: positions ws = digits (w.values.length :: lengths (arrays ws)) _
    rw [digits, reading, volume_eq_prod, Nat.mul_comm, Nat.mul_add_div hpos, Nat.div_eq_of_lt hlt,
      Nat.mul_add_mod, Nat.mod_eq_of_lt hlt, ← ih, Nat.add_zero]

/-- **The run of an odometer** passes by the digits of one number after another, up to the last
one. -/
theorem positions_run (o : Odometer) : (run o).map positions =
    (List.range' (reading o) (volume o - reading o)).map (digits (lengths (arrays o))) := by
  induction o using run.induct with
  | case1 o o' h ih =>
    -- One number less is left behind a step.
    have hlt := reading_lt_volume o'
    obtain ⟨hreading, hvolume⟩ := reading_of_advance? h
    rw [run]
    split
    · next o'' h' =>
      obtain rfl := Option.some.inj (h.symm.trans h')
      obtain ⟨left, hleft⟩ : ∃ left, volume o - reading o = left + 1 :=
        ⟨volume o - reading o - 1, by omega⟩
      have hleft' : volume o' - reading o' = left := by omega
      rw [List.map_cons, ih, hleft, hleft', List.range'_succ, List.map_cons, positions_eq_digits,
        arrays_of_advance? h, hreading]
    · next h' => cases h.symm.trans h'
  | case2 o h =>
    have hone : volume o - reading o = 1 := by
      have hlast := reading_of_advance?_none h
      omega
    rw [run]
    split
    · next h' => cases h.symm.trans h'
    · rw [hone, List.map_singleton, positions_eq_digits]
      rfl

theorem arrays_of_mem_run (h : o' ∈ run o) : arrays o' = arrays o := by
  induction o using run.induct with
  | case1 o next hnext ih =>
    rw [run] at h
    split at h
    · next next' hnext' =>
      obtain rfl := Option.some.inj (hnext.symm.trans hnext')
      rcases List.mem_cons.mp h with rfl | h
      · rfl
      · exact (ih h).trans (arrays_of_advance? hnext)
    · next hnext' => cases hnext.symm.trans hnext'
  | case2 o hnext =>
    rw [run] at h
    split at h
    · next hnext' => cases hnext.symm.trans hnext'
    · rw [List.mem_singleton.mp h]

/-! ## Starting

An odometer starts with all wheels at their first elements, which there have to be. -/

theorem start?_eq_some {as : List (Text × List Text)} (h : start? as = some o) :
    arrays o = as ∧ reading o = 0 := by
  induction as generalizing o with
  | nil =>
    obtain rfl := Option.some.inj h
    exact ⟨rfl, rfl⟩
  | cons a as ih =>
    obtain ⟨w, hw, ws, hws, rfl⟩ : ∃ w, Wheel.first? a = some w ∧ ∃ ws, start? as = some ws ∧
        w :: ws = o := by
      simpa [start?, Option.bind_eq_some_iff] using h
    obtain ⟨harrays, hreading⟩ := ih hws
    unfold Wheel.first? at hw
    split at hw
    · obtain rfl := Option.some.inj hw
      exact ⟨congrArg (a :: ·) harrays, by rw [reading, hreading, Nat.zero_mul]⟩
    · cases hw

theorem exists_start? {as : List (Text × List Text)} (h : ∀ a ∈ as, a.2 ≠ []) :
    ∃ o, start? as = some o := by
  induction as with
  | nil => exact ⟨[], rfl⟩
  | cons a as ih =>
    obtain ⟨ha, has⟩ := List.forall_mem_cons.mp h
    obtain ⟨ws, hws⟩ := ih has
    -- Each wheel starts at the first element of its array.
    have hfirst : Wheel.first? a = some ⟨a.1, a.2, ⟨0, List.length_pos_iff.mpr ha⟩⟩ :=
      dif_pos (List.length_pos_iff.mpr ha)
    exact ⟨_, by rw [start?, hfirst, hws]; rfl⟩

/-- An odometer that starts with arrays goes through all digits. -/
theorem positions_run_start {as : List (Text × List Text)} (h : start? as = some o) :
    (run o).map positions = (List.range (lengths as).prod).map (digits (lengths as)) := by
  obtain ⟨rfl, hreading⟩ := start?_eq_some h
  rw [positions_run, hreading, Nat.sub_zero, ← List.range_eq_range', volume_eq_prod]

/-! ## Elements

What an iteration puts for the name of an array is the element at a digit. -/

/-- The elements of arrays at some positions, if all of these are in range. -/
def elementsAt? : List (Text × List Text) → List Nat → Option Repetition.Bindings
  | [], [] => some []
  | (name, values) :: as, position :: positions => do
    let value ← values[position]?
    let bindings ← elementsAt? as positions
    return (name, value) :: bindings
  | _, _ => none

theorem elementsAt?_positions (o : Odometer) :
    elementsAt? (arrays o) (positions o) = some (o.map Wheel.binding) := by
  induction o with
  | nil => rfl
  | cons w ws ih =>
    have hvalue : w.values[w.position.val]? = some (w.values.get w.position) :=
      List.getElem?_eq_getElem w.position.isLt
    show elementsAt? ((w.name, w.values) :: arrays ws) (w.position.val :: positions ws) = _
    rw [elementsAt?, hvalue, ih]
    rfl

/-- The look-up of a name in the elements finds that of the array with this name. -/
theorem find?_of_elementsAt? {as : List (Text × List Text)} {positions : List Nat}
    {bindings : Repetition.Bindings} (h : elementsAt? as positions = some bindings)
    (hnames : as.Pairwise fun a b => Text.eqIgnoringCase a.1 b.1 = false) {j : Nat}
    {a : Text × List Text} (ha : as[j]? = some a) {name : Text}
    (hname : Text.eqIgnoringCase name a.1 = true) :
    ∃ position value, positions[j]? = some position ∧ a.2[position]? = some value ∧
      Attributes.find? name bindings = some value := by
  fun_induction elementsAt? as positions generalizing bindings j with
  | case1 => simp at ha
  | case2 key values as position positions ih =>
    obtain ⟨value, hvalue, rest, hrest, rfl⟩ : ∃ value, values[position]? = some value ∧ ∃ rest,
        elementsAt? as positions = some rest ∧ (key, value) :: rest = bindings := by
      simpa [Option.bind_eq_some_iff] using h
    obtain ⟨hfirst, hothers⟩ := List.pairwise_cons.mp hnames
    cases j with
    | zero =>
      obtain rfl := Option.some.inj ha
      refine ⟨position, value, rfl, hvalue, ?_⟩
      rw [Attributes.find?, if_pos (by rwa [Text.eqIgnoringCase_comm])]
    | succ j =>
      obtain ⟨position', value', hposition, helement, hfind⟩ := ih hrest hothers ha
      refine ⟨position', value', hposition, helement, ?_⟩
      -- A name that is that of a later array is not that of the first one.
      have hother : Text.eqIgnoringCase key name = false := by
        rw [Text.eqIgnoringCase_comm, Text.eqIgnoringCase_congr hname, Text.eqIgnoringCase_comm]
        exact hfirst a (List.mem_of_getElem? ha)
      rw [Attributes.find?, hother]
      exact hfind
  | case3 => cases h

theorem find?_of_elementsAt?_none {as : List (Text × List Text)} {positions : List Nat}
    {bindings : Repetition.Bindings} (h : elementsAt? as positions = some bindings) {name : Text}
    (hname : ∀ a ∈ as, Text.eqIgnoringCase name a.1 = false) :
    Attributes.find? name bindings = none := by
  fun_induction elementsAt? as positions generalizing bindings with
  | case1 =>
    obtain rfl := Option.some.inj h
    rfl
  | case2 key values as position positions ih =>
    obtain ⟨value, -, rest, hrest, rfl⟩ : ∃ value, values[position]? = some value ∧ ∃ rest,
        elementsAt? as positions = some rest ∧ (key, value) :: rest = bindings := by
      simpa [Option.bind_eq_some_iff] using h
    obtain ⟨hfirst, hothers⟩ := List.forall_mem_cons.mp hname
    rw [Attributes.find?, Text.eqIgnoringCase_comm, hfirst]
    exact ih hrest hothers
  | case3 => cases h

end Odometer

/-! ## Iterations

Each iteration is the body with its elements and its count put in. -/

namespace Repetition

open Odometer

variable {as : List (Text × List Text)}

/-- Without arrays, or with an empty one, there is no iteration. -/
theorem nested_of_empty (h : as = [] ∨ ∃ a ∈ as, a.2 = []) : nested as = [] := by
  unfold nested
  rcases h with rfl | ⟨a, ha, hempty⟩
  · rfl
  · split
    · rfl
    · cases hstart : start? as with
      | none => rfl
      | some o =>
        -- A wheel stands at an element of its array, so that is not empty.
        obtain ⟨rfl, -⟩ := start?_eq_some hstart
        obtain ⟨w, -, rfl⟩ := List.mem_map.mp ha
        have hlt := w.position.isLt
        simp only at hempty
        simp [hempty] at hlt

/-- **The iterations of a loop over all combinations** are for the elements at the digits of their
counts. -/
theorem nested_eq (hne : as ≠ []) (h : ∀ a ∈ as, a.2 ≠ []) : (nested as).map some =
    (List.range (lengths as).prod).map fun k => elementsAt? as (digits (lengths as) k) := by
  obtain ⟨o, hstart⟩ := exists_start? h
  have hpositions := positions_run_start hstart
  obtain ⟨rfl, -⟩ := start?_eq_some hstart
  have hnested : nested (arrays o) = (run o).map fun o => o.map Wheel.binding := by
    rw [nested, if_neg hne, hstart]
  have hsome : (run o).map (fun o => some (o.map Wheel.binding)) =
      (run o).map fun o' => elementsAt? (arrays o) (positions o') := by
    refine List.map_congr_left fun o' ho' => ?_
    rw [← arrays_of_mem_run ho', elementsAt?_positions]
  calc (nested (arrays o)).map some
      = (run o).map fun o => some (o.map Wheel.binding) := by rw [hnested, List.map_map]; rfl
    _ = ((run o).map positions).map (elementsAt? (arrays o)) := by rw [hsome, List.map_map]; rfl
    _ = (List.range (lengths (arrays o)).prod).map fun k =>
          elementsAt? (arrays o) (digits (lengths (arrays o)) k) := by
        rw [hpositions, List.map_map]
        rfl

/-- What a loop puts for a placeholder in an iteration. -/
def lookup (m : Markers) (loop : Text) (bindings : Bindings) (count : Nat) (name : Text) :
    Option Text :=
  if Text.eqIgnoringCase name (m.indexName loop) then some (writeNat count)
  else Attributes.find? name bindings

/-- The bodies are put together in the order of the counts, each with the elements of its own
iteration. -/
theorem unrolled_eq (m : Markers) (t : Tag) (iterations : List Bindings) :
    unrolled m t iterations = (List.range iterations.length).flatMap fun k =>
      m.substitute (lookup m t.name (iterations[k]?.getD []) k) t.bodyText := by
  have hcounts : iterations.zipIdx =
      (List.range iterations.length).map fun k => (iterations[k]?.getD [], k) := by
    refine List.ext_getElem (by simp) fun k hk hk' => ?_
    have hlt : k < iterations.length := by simpa using hk
    simp [hlt]
  rw [unrolled, hcounts, List.flatMap_map]
  rfl

/-- Whether the answers to placeholders are those for the combination of elements at some
positions, in the iteration of the given count. -/
structure AnswersAt (m : Markers) (loop : Text) (as : List (Text × List Text))
    (positions : List Nat) (count : Nat) (lookup : Text → Option Text) : Prop where
  count : ∀ name, Text.eqIgnoringCase name (m.indexName loop) = true →
    lookup name = some (writeNat count)
  element : ∀ (j : Nat) (a : Text × List Text), as[j]? = some a → ∀ name,
    Text.eqIgnoringCase name a.1 = true → ∃ position value, positions[j]? = some position ∧
      a.2[position]? = some value ∧ lookup name = some value
  other : ∀ name, Text.eqIgnoringCase name (m.indexName loop) = false →
    (∀ a ∈ as, Text.eqIgnoringCase name a.1 = false) → lookup name = none

theorem answersAt_of_elementsAt? {m : Markers} {loop : Text} {positions : List Nat}
    {bindings : Bindings} (h : elementsAt? as positions = some bindings)
    (hnames : as.Pairwise fun a b => Text.eqIgnoringCase a.1 b.1 = false)
    (hindex : ∀ a ∈ as, Text.eqIgnoringCase a.1 (m.indexName loop) = false) (count : Nat) :
    AnswersAt m loop as positions count (lookup m loop bindings count) where
  count name hname := if_pos hname
  element j a ha name hname := by
    obtain ⟨position, value, hposition, hvalue, hfind⟩ := find?_of_elementsAt? h hnames ha hname
    have hother : Text.eqIgnoringCase name (m.indexName loop) = false :=
      (Text.eqIgnoringCase_congr hname _).trans (hindex a (List.mem_of_getElem? ha))
    exact ⟨position, value, hposition, hvalue, by rw [lookup, hother]; exact hfind⟩
  other name hcount hname := by
    rw [lookup, hcount]
    exact find?_of_elementsAt?_none h hname

end Repetition

namespace Engine

open Odometer Repetition

variable {fuel : Nat} {t : Tag} {machine machine' : Machine} {as : List (Text × List Text)}

theorem runNestedLoop_of_loopArrays (h : loopArrays fuel t machine = .ok as machine') :
    runNestedLoop fuel t machine = .ok () (machine'.withReader (machine'.parser.reader.append
      (unrolled machine'.parser.settings.markers t (nested as))
      (machine'.parser.settings.markers.macroTitle t.name))) := by
  rw [runNestedLoop, bind_of_ok h]
  rfl

/-- **A loop over all combinations** of elements appends nothing if there is no array or an empty
one. Otherwise it ends behind as many iterations as the lengths of the arrays multiply to. Each is
the body with the count of the iteration, and for each array the element at the digit of the count.
The odometer stands at these digits, which are in range; all positions in range are the digits of
just one count, and they come in lexicographic order. -/
theorem runNestedLoop_combinations (harrays : loopArrays fuel t machine = .ok as machine')
    (hnames : as.Pairwise fun a b => Text.eqIgnoringCase a.1 b.1 = false)
    (hindex : ∀ a ∈ as,
      Text.eqIgnoringCase a.1 (machine'.parser.settings.markers.indexName t.name) = false) :
    ((as = [] ∨ ∃ a ∈ as, a.2 = []) → runNestedLoop fuel t machine = .ok () machine') ∧
    (as ≠ [] → (∀ a ∈ as, a.2 ≠ []) →
      (∃ answer : Nat → Text → Option Text,
        (∀ k < (lengths as).prod, AnswersAt machine'.parser.settings.markers t.name as
          (digits (lengths as) k) k (answer k)) ∧
        runNestedLoop fuel t machine = .ok () (machine'.withReader (machine'.parser.reader.append
          ((List.range (lengths as).prod).flatMap fun k =>
            machine'.parser.settings.markers.substitute (answer k) t.bodyText)
          (machine'.parser.settings.markers.macroTitle t.name)))) ∧
      (∃ o, start? as = some o ∧
        (run o).map positions = (List.range (lengths as).prod).map (digits (lengths as))) ∧
      (∀ positions, List.Forall₂ (· < ·) positions (lengths as) ↔
        ∃ k < (lengths as).prod, digits (lengths as) k = positions) ∧
      ∀ j k, j < k → k < (lengths as).prod →
        digits (lengths as) j < digits (lengths as) k) := by
  have hrun := runNestedLoop_of_loopArrays harrays
  refine ⟨fun hempty => ?_, fun hne hall => ⟨?_, ?_, fun positions => ⟨exists_digits, ?_⟩,
    fun j k => digits_lt_digits⟩⟩
  · rw [hrun, nested_of_empty hempty]
    rfl
  · have hnested := nested_eq hne hall
    have hlength : (nested as).length = (lengths as).prod := by
      simpa using congrArg List.length hnested
    refine ⟨fun k => lookup machine'.parser.settings.markers t.name ((nested as)[k]?.getD []) k,
      fun k hk => ?_, by rw [hrun, unrolled_eq, hlength]⟩
    refine answersAt_of_elementsAt? ?_ hnames hindex k
    -- The iteration of each count is that for the elements at its digits.
    have hlt : k < (nested as).length := by rwa [hlength]
    have hsome : ((nested as).map some)[k]? = some (some (nested as)[k]) := by simp [hlt]
    rw [hnested] at hsome
    simpa [hk, hlt] using hsome
  · obtain ⟨o, hstart⟩ := exists_start? hall
    exact ⟨o, hstart, positions_run_start hstart⟩
  · rintro ⟨k, hk, rfl⟩
    exact forall₂_digits hk

def nestedArrays : List (Text × List Text) :=
  [("a".toList, ["1".toList, "2".toList]), ("B".toList, ["x".toList, "y".toList])]

def nestedTag : Tag :=
  { name := "nestedForEach".toList
    attributes := .named [("a".toList, "1;2".toList), ("B".toList, "x;y".toList)]
    body := some "\x7bA\x7d\x7bb\x7d\x7bnestedForEach:index\x7d ".toList }

theorem runNestedLoop_nestedTag :
    loopArrays 2 nestedTag {} = .ok nestedArrays {} ∧
    nestedArrays.Pairwise (fun a b => Text.eqIgnoringCase a.1 b.1 = false) ∧
    (∀ a ∈ nestedArrays,
      Text.eqIgnoringCase a.1 (({} : Markers).indexName nestedTag.name) = false) ∧
    ∃ answer : Nat → Text → Option Text,
      (∀ k < 4, AnswersAt {} nestedTag.name nestedArrays (digits [2, 2] k) k (answer k)) ∧
      runNestedLoop 2 nestedTag {} = .ok () (Machine.withReader {} (Reader.append {}
        ((List.range 4).flatMap fun k => ({} : Markers).substitute (answer k) nestedTag.bodyText)
        (({} : Markers).macroTitle nestedTag.name))) := by
  have harrays : loopArrays 2 nestedTag {} = .ok nestedArrays {} := rfl
  have hnames : nestedArrays.Pairwise (fun a b => Text.eqIgnoringCase a.1 b.1 = false) := by decide
  have hindex : ∀ a ∈ nestedArrays,
      Text.eqIgnoringCase a.1 (({} : Markers).indexName nestedTag.name) = false := by decide
  obtain ⟨-, hloop⟩ := runNestedLoop_combinations harrays hnames hindex
  exact ⟨harrays, hnames, hindex, (hloop (by decide) (by decide)).1⟩

example : unrolled {} nestedTag (nested nestedArrays) = "1x0 1y1 2x2 2y3 ".toList := by cbv

end Engine

end MarkupTemplate
