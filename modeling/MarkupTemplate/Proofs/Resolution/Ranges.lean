import MarkupTemplate.Proofs.Engine.Resolution
import MarkupTemplate.Proofs.Resolution.Arrays
import MarkupTemplate.Proofs.Text.Words

/-!
# Ranges

An element such as `item[1,3]` counts from one bound to the other, both of them included. Bounds are
64 bits wide, but the counting is done on unbounded integers, so it ends at the greatest and the
least of them like at any other: nothing is left out, and nothing wraps around.

What two bounds of 64 bits can ask for is more than an array can hold. Whether a range `Fits` is
decided when its bounds are known and before its first text is made, so there is no such thing as a
part of a range: either all of its texts come, or the run breaks off (`range_of_isBounded`). The
widest range of all is one that breaks it off (`array_widest`). A bound itself never does
(`int_ne_overflow`), since there are no arrays in its value.

A range is found by its last character alone. So an element with the closing marker at its end never
is a plain text: it counts if its bounds are integers, and is invalid if they are not
(`range_of_not_isBounded`), whatever kept them from being read. Only a bound that does not come to an
end leaves it open.
-/

set_option autoImplicit false

namespace MarkupTemplate

/-! ## Counting

The integers between two bounds, upwards or downwards, are counted by their positions. -/

namespace Engine

/-- There is one integer more than the bounds are apart. -/
theorem length_between (first last : Int) :
    (between first last).length = (first - last).natAbs + 1 := by
  unfold between
  split
  all_goals
    rw [List.length_map, List.length_range]
    omega

theorem getElem?_between (first last : Int) {k : Nat} (hk : k < (between first last).length) :
    (between first last)[k]? = some (if first ≤ last then first + k else first - k) := by
  rw [length_between] at hk
  unfold between
  split
  all_goals
    rw [List.getElem?_map, List.getElem?_range (by omega)]
    rfl

/-- Counting the other way gives the same integers in the opposite order. -/
theorem reverse_between (first last : Int) : (between first last).reverse = between last first := by
  apply List.ext_getElem?
  intro k
  -- Position by position; behind the last one neither has an element.
  by_cases hk : k < (between last first).length
  · have hlength := length_between first last
    have hk' := hk
    rw [length_between] at hk'
    rw [List.getElem?_reverse (by omega), getElem?_between first last (by omega),
      getElem?_between last first hk, hlength]
    split <;> split <;> (congr 1; omega)
  · have hlength : (between first last).length = (between last first).length := by
      rw [length_between, length_between]
      omega
    rw [List.getElem?_eq_none (by rw [List.length_reverse]; omega),
      List.getElem?_eq_none (by omega)]

/-- The texts of a range: a base, and behind it the integers between two bounds. -/
def counted (base : Text) (first last : Int) : List Text :=
  (between first last).map fun i => base ++ writeInteger i

theorem length_counted (base : Text) (first last : Int) :
    (counted base first last).length = (first - last).natAbs + 1 := by
  rw [counted, List.length_map, length_between]

theorem getElem?_counted (base : Text) (first last : Int) {k : Nat}
    (hk : k < (counted base first last).length) : (counted base first last)[k]? =
      some (base ++ writeInteger (if first ≤ last then first + k else first - k)) := by
  rw [counted, List.length_map] at hk
  rw [counted, List.getElem?_map, getElem?_between first last hk]
  rfl

theorem reverse_counted (base : Text) (first last : Int) :
    (counted base first last).reverse = counted base last first := by
  rw [counted, counted, ← List.map_reverse, reverse_between]

end Engine

/-! ## Numerals

The digits and the minus sign. No marker that is looked for in a bound may be one of them. -/

/-- Whether a character occurs in integers as they are written. -/
def isNumeral (c : Char) : Bool := c == '-' || c.isDigit

theorem isNumeral_of_mem_writeInteger {i : Int} {c : Char} (h : c ∈ writeInteger i) :
    isNumeral c = true := by
  cases i with
  | ofNat n => simp [isNumeral, isDigit_of_mem_writeNat (n := n) h]
  | negSucc n =>
    rcases List.mem_cons.mp h with rfl | hc
    · rfl
    · simp [isNumeral, isDigit_of_mem_writeNat hc]

theorem isBlank_of_isNumeral {c : Char} (h : isNumeral c = true) : isBlank c = false := by
  rcases Bool.or_eq_true_iff.mp h with hminus | hdigit
  · rw [beq_iff_eq.mp hminus]
    rfl
  · exact isBlank_of_isAlphanumeric (isAlphanumeric_of_isDigit hdigit)

theorem notMem_writeInteger {c : Char} (hc : isNumeral c = false) (i : Int) :
    c ∉ writeInteger i := by
  intro hmem
  rw [isNumeral_of_mem_writeInteger hmem] at hc
  exact absurd hc (by simp)

theorem trim_writeInteger (i : Int) : Text.trim (writeInteger i) = writeInteger i :=
  Text.trim_of_isBlank fun _ hc => isBlank_of_isNumeral (isNumeral_of_mem_writeInteger hc)

/-! ## Written ranges

A range whose bounds are written as integers, and what keeps its markers apart from them. -/

namespace Markers

/-- The text of a range. -/
def range (m : Markers) (base first last : Text) : Text :=
  base ++ m.rangeOpening :: (first ++ m.rangeSeparator :: last) ++ [m.rangeClosing]

/-- Whether the markers of ranges are told from blanks and from the separator of arrays, and the
markers that are looked for in bounds from what integers are written in. -/
structure SetsRangesOff (m : Markers) : Prop where
  opening : isBlank m.rangeOpening = false
  closing : isBlank m.rangeClosing = false
  separator : m.arraySeparator ∉ [m.rangeOpening, m.rangeSeparator, m.rangeClosing]
  numerals : ∀ c ∈ [m.arraySeparator, m.rangeSeparator, m.argumentOpening, m.actionMark, m.lineMark,
    m.preferenceMark], isNumeral c = false

variable {m : Markers} {base : Text}

theorem setsRangesOff_default : ({} : Markers).SetsRangesOff :=
  ⟨by decide, by decide, by decide, by simp [isNumeral, Char.isDigit]⟩

theorem range_ne_nil (m : Markers) (base first last : Text) : m.range base first last ≠ [] :=
  List.concat_ne_nil _ _

theorem dropLast?_range (m : Markers) (base first last : Text) :
    Text.dropLast? m.rangeClosing (m.range base first last) =
      some (base ++ m.rangeOpening :: (first ++ m.rangeSeparator :: last)) :=
  Text.dropLast?_eq_some_iff.mpr rfl

/-- A range has no blanks around it, if its base has none in front. -/
theorem trim_range (h : m.SetsRangesOff) (hbase : Text.trim base = base) (first last : Text) :
    Text.trim (m.range base first last) = m.range base first last := by
  rw [Text.trim_eq_self_iff]
  constructor
  · cases base with
    | nil =>
      intro c hc
      rw [← Option.some.inj hc]
      exact h.opening
    | cons c base => exact (Text.trim_eq_self_iff.mp hbase).1
  · intro c hc
    rw [range, List.getLast?_concat] at hc
    rw [← Option.some.inj hc]
    exact h.closing

theorem arraySeparator_notMem_range (h : m.SetsRangesOff) (hbase : m.arraySeparator ∉ base)
    (a b : Int64) : m.arraySeparator ∉ m.range base (writeInt64 a) (writeInt64 b) := by
  have hmarkers := h.separator
  have hbound : ∀ i : Int64, m.arraySeparator ∉ writeInt64 i := fun i =>
    notMem_writeInteger (h.numerals _ (by simp)) i.toInt
  simp only [List.mem_cons, List.not_mem_nil, or_false, not_or] at hmarkers
  simp [range, hmarkers, hbase, hbound]

end Markers

namespace Engine

variable {α : Type} {x : Engine α} {machine machine' : Machine} {m : Markers}
  {base first last inner element : Text} {fuel : Nat}

theorem failingAs_eq_ok_iff {f : Fault} {a : α} :
    failingAs f x machine = .ok a machine' ↔ x machine = .ok a machine' := by
  rw [failingAs_eq_recast, recast_eq_ok_iff]

/-! ## Reading ranges

A range is its base, up to the first opening marker, and two bounds with the first separator between
them. -/

theorem rangeParts?_eq_some_iff : rangeParts? m inner = some (base, first, last) ↔
    inner = base ++ m.rangeOpening :: (first ++ m.rangeSeparator :: last) ∧
      m.rangeOpening ∉ base ∧ m.rangeSeparator ∉ first := by
  constructor
  · intro h
    -- Each cut is the first one, so what is in front of it has no marker.
    unfold rangeParts? at h
    split at h
    next base' bounds hopening =>
      obtain ⟨b, hseparator, heq⟩ := Option.map_eq_some_iff.mp h
      obtain ⟨rfl, rfl⟩ := Prod.mk.inj heq
      obtain ⟨rfl, hbase⟩ := Text.eq_of_splitFirst? hopening
      obtain ⟨rfl, hfirst⟩ := Text.eq_of_splitFirst? hseparator
      exact ⟨rfl, hbase, hfirst⟩
    next => exact absurd h (by simp)
  · rintro ⟨rfl, hbase, hfirst⟩
    rw [rangeParts?, Text.splitFirst?_append hbase]
    dsimp only
    rw [Text.splitFirst?_append hfirst]
    rfl

/-- Only the last character of an element is asked whether it is a range. -/
theorem arrayElement_of_dropLast?
    (h : Text.dropLast? machine.parser.settings.markers.rangeClosing element = some inner)
    (fuel held : Nat) :
    arrayElement fuel held element machine = range fuel held element inner machine := by
  rw [arrayElement, bind_of_ok (markers_eq machine), h]

/-- Whether there is room for a range behind the texts that an array has already. -/
def Fits (held : Nat) (a b : Int64) : Prop := held + (a.toInt - b.toInt).natAbs + 1 ≤ capacity

instance (held : Nat) (a b : Int64) : Decidable (Fits held a b) :=
  inferInstanceAs (Decidable (_ ≤ _))

/-- A range fits just if it fits the other way. -/
theorem fits_comm {held : Nat} {a b : Int64} : Fits held a b ↔ Fits held b a := by
  rw [Fits, Fits, ← Int.natAbs_neg, Int.neg_sub]

/-- Whether what is in front of the closing marker of a range is a base and two integers. The
bounds are resolved from left to right. -/
def IsBounded (fuel : Nat) (inner : Text) (machine : Machine) (base : Text) (a b : Int64)
    (machine' : Machine) : Prop :=
  ∃ first last between,
    rangeParts? machine.parser.settings.markers inner = some (base, first, last) ∧
      int fuel first machine = .ok a between ∧ int fuel last between = .ok b machine'

/-- A range that is one gives all of its texts, or none if they do not fit behind the texts that the
array has already. -/
theorem range_of_isBounded {a b : Int64} (h : IsBounded fuel inner machine base a b machine')
    (held : Nat) : range fuel held element inner machine =
      if Fits held a b then .ok (counted base a.toInt b.toInt) machine'
      else .error .overflow machine' := by
  obtain ⟨first, last, between, hparts, hfirst, hlast⟩ := h
  rw [range, bind_of_ok (markers_eq machine), hparts]
  dsimp only
  rw [bind_of_ok (failingAs_eq_ok_iff.mpr hfirst), bind_of_ok (failingAs_eq_ok_iff.mpr hlast)]
  by_cases hfits : Fits held a b
  · rw [if_pos hfits, if_neg (Nat.not_lt.mpr hfits)]
    rfl
  · rw [if_neg hfits, if_pos (Nat.not_le.mp hfits)]
    rfl

theorem failingAs_of_failure {f : Fault} {e : Error}
    (h : x machine = .error (.failure e) machine') :
    failingAs f x machine = .error (.failure { fault := f }) machine' := by
  rw [failingAs, h]

theorem failingAs_of_exhausted {f : Fault} (h : x machine = .error .exhausted machine') :
    failingAs f x machine = .error .exhausted machine' := by
  rw [failingAs, h]

/-- Whether a bound of a range does not come to an end. -/
def ExhaustsBound (fuel : Nat) (inner : Text) (machine machine' : Machine) : Prop :=
  ∃ base first last,
    rangeParts? machine.parser.settings.markers inner = some (base, first, last) ∧
      (int fuel first machine = .error .exhausted machine' ∨
        ∃ a between, int fuel first machine = .ok a between ∧
          int fuel last between = .error .exhausted machine')

/-- Only arrays ask for room, and there are none in the value of a bound. -/
instance : Resolving (fun _ => True) (· ≠ .overflow) where
  fault _ h := by cases h
  strictFault _ _ _ h := by cases h
  operators _ := .inr fun _ h => by cases h
  exhausted h := by cases h
  notices _ _ := trivial
  call _ _ := ⟨trivial, fun _ _ h => by cases h⟩

/-- Reading a bound does not run out of room. -/
theorem int_ne_overflow (fuel : Nat) (raw : Text) (machine machine' : Machine) :
    int fuel raw machine ≠ .error .overflow machine' := by
  have hkeeps : Keeps (fun _ => True) (· ≠ .overflow) (int fuel raw) := keeps_int raw
  exact fun h => (hkeeps machine trivial).2 .overflow machine' h rfl

/-- A range without two integers for its bounds is invalid, whatever the reason is. -/
theorem range_of_not_isBounded (element : Text) (held : Nat)
    (h : ¬∃ base a b machine', IsBounded fuel inner machine base a b machine') :
    (∃ machine', range fuel held element inner machine =
        .error (.failure { fault := .invalidRange element }) machine') ∨
      ∃ machine', ExhaustsBound fuel inner machine machine' ∧
        range fuel held element inner machine = .error .exhausted machine' := by
  rw [range, bind_of_ok (markers_eq machine)]
  cases hparts : rangeParts? machine.parser.settings.markers inner with
  | none => exact Or.inl ⟨machine, rfl⟩
  | some parts =>
    obtain ⟨base, first, last⟩ := parts
    dsimp only
    cases hfirst : int fuel first machine with
    | error stop between =>
      cases stop with
      | failure e => exact Or.inl ⟨between, bind_of_error (failingAs_of_failure hfirst)⟩
      | overflow => exact absurd hfirst (int_ne_overflow fuel first machine between)
      -- A bound that does not come to an end is the one way not to be told that the range is
      -- invalid.
      | exhausted =>
        exact Or.inr ⟨between, ⟨base, first, last, hparts, Or.inl hfirst⟩,
          bind_of_error (failingAs_of_exhausted hfirst)⟩
    | ok a between =>
      rw [bind_of_ok (failingAs_eq_ok_iff.mpr hfirst)]
      cases hlast : int fuel last between with
      | error stop machine' =>
        cases stop with
        | failure e => exact Or.inl ⟨machine', bind_of_error (failingAs_of_failure hlast)⟩
        | overflow => exact absurd hlast (int_ne_overflow fuel last between machine')
        | exhausted =>
          exact Or.inr ⟨machine', ⟨base, first, last, hparts, Or.inr ⟨a, between, hfirst, hlast⟩⟩,
            bind_of_error (failingAs_of_exhausted hlast)⟩
      | ok b machine' =>
        exact absurd ⟨base, a, b, machine', first, last, between, hparts, hfirst, hlast⟩ h

/-! ## Ranges between integers

Bounds that are written as integers are read as these, so what remains is the room. -/

theorem isMarked_writeInteger (h : m.SetsRangesOff) (i : Int) :
    isMarked m (writeInteger i) = false := by
  have hnone : ∀ c ∈ (writeInteger i).head?,
      c ≠ m.actionMark ∧ c ≠ m.lineMark ∧ c ≠ m.preferenceMark := by
    intro c hc
    have hmem := List.mem_of_mem_head? hc
    have hne : ∀ mark, isNumeral mark = false → c ≠ mark := fun mark hmark heq =>
      notMem_writeInteger hmark i (heq ▸ hmem)
    exact ⟨hne _ (h.numerals _ (by simp)), hne _ (h.numerals _ (by simp)),
      hne _ (h.numerals _ (by simp))⟩
  rw [isMarked, Option.any_eq_false]
  intro c hc
  obtain ⟨haction, hline, hpreference⟩ := hnone c hc
  simp [haction, hline, hpreference]

/-- An integer of 64 bits is read as itself, the least and the greatest of them among others. -/
theorem int_writeInt64 (h : machine.parser.settings.markers.SetsRangesOff) (i : Int64)
    (fuel : Nat) : int (fuel + 1) (writeInt64 i) machine = .ok i machine := by
  have htrim : Text.trim (writeInt64 i) = writeInt64 i := trim_writeInteger i.toInt
  have hopening : machine.parser.settings.markers.argumentOpening ∉ writeInt64 i :=
    notMem_writeInteger (h.numerals _ (by simp)) i.toInt
  have hstring : string (fuel + 1) (writeInt64 i) machine = .ok (writeInt64 i) machine := by
    rw [string_of_unmarked htrim (isMarked_writeInteger h i.toInt),
      expand_of_argumentOpening_notMem hopening]
  rw [int, bind_of_ok hstring, htrim, readInt64?_writeInt64]
  rfl

theorem isBounded_written (h : machine.parser.settings.markers.SetsRangesOff)
    (hbase : machine.parser.settings.markers.rangeOpening ∉ base) (a b : Int64) (fuel : Nat) :
    IsBounded (fuel + 1) (base ++ machine.parser.settings.markers.rangeOpening ::
      (writeInt64 a ++ machine.parser.settings.markers.rangeSeparator :: writeInt64 b)) machine
      base a b machine := by
  have hseparator : machine.parser.settings.markers.rangeSeparator ∉ writeInt64 a :=
    notMem_writeInteger (h.numerals _ (by simp)) a.toInt
  exact ⟨writeInt64 a, writeInt64 b, machine, rangeParts?_eq_some_iff.mpr ⟨rfl, hbase, hseparator⟩,
    int_writeInt64 h a fuel, int_writeInt64 h b fuel⟩

theorem array_range (hm : machine.parser.settings.markers = m) (h : m.SetsRangesOff)
    (htrim : Text.trim base = base) (hopening : m.rangeOpening ∉ base)
    (hseparator : m.arraySeparator ∉ base) (a b : Int64) (fuel : Nat) :
    array (fuel + 1) (m.range base (writeInt64 a) (writeInt64 b)) machine =
      if Fits 0 a b then .ok (counted base a.toInt b.toInt) machine
      else .error .overflow machine := by
  subst hm
  have hrange := Markers.trim_range h htrim (writeInt64 a) (writeInt64 b)
  have hink := Text.isBlankText_of_trim_eq (Markers.range_ne_nil _ base _ _) hrange
  have hclosing := Markers.dropLast?_range machine.parser.settings.markers base
    (writeInt64 a) (writeInt64 b)
  rw [array_of_separator_notMem hink (Markers.arraySeparator_notMem_range h hseparator a b), hrange,
    arrayElement_of_dropLast? hclosing,
    range_of_isBounded (isBounded_written h hopening a b fuel)]

/-- **A range stands for the integers between its bounds, both of them included**, in the order in
which it names them, as far as an array has room for them; and an element that ends as a range is
nothing else. The room is the only thing that two 64-bit bounds can ask too much of: the counting
itself is right up to the least and the greatest of them. -/
theorem array_counts_ranges (machine : Machine) (hm : machine.parser.settings.markers = m)
    (h : m.SetsRangesOff) :
    (∀ base a b fuel, Text.trim base = base → m.rangeOpening ∉ base → m.arraySeparator ∉ base →
      (Fits 0 a b →
        ∃ texts, array (fuel + 1) (m.range base (writeInt64 a) (writeInt64 b)) machine =
            .ok texts machine ∧
          texts.length = (a.toInt - b.toInt).natAbs + 1 ∧
          (∀ k, k < texts.length → texts[k]? = some (base ++
            writeInteger (if a.toInt ≤ b.toInt then a.toInt + k else a.toInt - k))) ∧
          array (fuel + 1) (m.range base (writeInt64 b) (writeInt64 a)) machine =
            .ok texts.reverse machine) ∧
      (¬ Fits 0 a b →
        array (fuel + 1) (m.range base (writeInt64 a) (writeInt64 b)) machine =
          .error .overflow machine)) ∧
    ∀ element inner fuel held, Text.dropLast? m.rangeClosing element = some inner →
      (∀ base a b machine', IsBounded fuel inner machine base a b machine' →
        arrayElement fuel held element machine =
          if Fits held a b then .ok (counted base a.toInt b.toInt) machine'
          else .error .overflow machine') ∧
      ((¬∃ base a b machine', IsBounded fuel inner machine base a b machine') →
        (∃ machine', arrayElement fuel held element machine =
          .error (.failure { fault := .invalidRange element }) machine') ∨
        ∃ machine', ExhaustsBound fuel inner machine machine' ∧
          arrayElement fuel held element machine = .error .exhausted machine') := by
  constructor
  · intro base a b fuel htrim hopening hseparator
    have hrange := fun a b : Int64 => array_range hm h htrim hopening hseparator a b fuel
    refine ⟨fun hfits => ?_, fun hfits => by rw [hrange, if_neg hfits]⟩
    refine ⟨counted base a.toInt b.toInt, by rw [hrange, if_pos hfits],
      length_counted base a.toInt b.toInt, fun k hk => getElem?_counted base a.toInt b.toInt hk, ?_⟩
    rw [hrange, if_pos (fits_comm.mp hfits), reverse_counted]
  · intro element inner fuel held hclosing
    subst hm
    rw [arrayElement_of_dropLast? hclosing]
    exact ⟨fun base a b machine' hbounded => range_of_isBounded hbounded held,
      range_of_not_isBounded element held⟩

/-- At the greatest of the integers, upwards and downwards, and with a name in front. -/
theorem array_counts_ranges_default :
    ({} : Machine).parser.settings.markers = {} ∧ ({} : Markers).SetsRangesOff ∧
      Text.trim "item".toList = "item".toList ∧ '[' ∉ "item".toList ∧ ';' ∉ "item".toList ∧
      Fits 0 (Int64.maxValue - 1) Int64.maxValue ∧
      ∃ texts, array 1 (({} : Markers).range "item".toList (writeInt64 (Int64.maxValue - 1))
          (writeInt64 Int64.maxValue)) {} = .ok texts {} ∧ texts.length = 2 ∧
        texts[1]? = some "item9223372036854775807".toList ∧
        array 1 (({} : Markers).range "item".toList (writeInt64 Int64.maxValue)
          (writeInt64 (Int64.maxValue - 1))) {} = .ok texts.reverse {} := by
  have hcounts := array_counts_ranges {} rfl Markers.setsRangesOff_default
  have hfits : Fits 0 (Int64.maxValue - 1) Int64.maxValue := by decide
  obtain ⟨texts, harray, hlength, htexts, hreverse⟩ :=
    (hcounts.1 "item".toList (Int64.maxValue - 1) Int64.maxValue 0 (by decide) (by decide)
      (by decide)).1 hfits
  -- The two greatest integers are next to each other, where counting on would overflow.
  have htwo : texts.length = 2 := by
    rw [hlength]
    decide
  have hsecond := htexts 1 (by rw [htwo]; decide)
  exact ⟨rfl, Markers.setsRangesOff_default, by decide, by decide, by decide, hfits, texts, harray,
    htwo, hsecond.trans (by decide), hreverse⟩

/-! ## Ranges that give nothing

Two machines on which the texts of a range do not come: the range is too wide, or its separator is
the minus sign. -/

/-- From the least integer to the greatest there are more texts than an array has room for. -/
theorem array_widest (fuel : Nat) : array (fuel + 1) (({} : Markers).range "item".toList
    (writeInt64 Int64.minValue) (writeInt64 Int64.maxValue)) {} = .error .overflow {} := by
  have hmarkers : ({} : Machine).parser.settings.markers = {} := rfl
  have hopening : ({} : Markers).rangeOpening ∉ "item".toList := by decide
  have hseparator : ({} : Markers).arraySeparator ∉ "item".toList := by decide
  have hwide : ¬ Fits 0 Int64.minValue Int64.maxValue := by decide
  rw [array_range hmarkers Markers.setsRangesOff_default rfl hopening hseparator, if_neg hwide]

/-- A machine whose bounds are divided by what integers are written with. -/
def hyphenMachine : Machine where
  parser := { settings := { markers := { rangeSeparator := '-' } } }

/-- The minus sign of the first bound divides the bounds, so nothing is in front of it. -/
theorem not_isBounded_hyphen (fuel : Nat) : ¬∃ base a b machine',
    IsBounded (fuel + 1) "item[-1-3".toList hyphenMachine base a b machine' := by
  rintro ⟨base, a, b, machine', first, last, between, hparts, hfirst, -⟩
  obtain ⟨rfl, rfl, rfl⟩ : base = "item".toList ∧ first = [] ∧ last = "1-3".toList := by
    have hparts' := Option.some.inj (hparts.symm.trans (show rangeParts?
      hyphenMachine.parser.settings.markers "item[-1-3".toList =
        some ("item".toList, [], "1-3".toList) from rfl))
    simpa only [Prod.mk.injEq] using hparts'
  have hstring : string (fuel + 1) [] hyphenMachine = .ok [] hyphenMachine := by
    rw [string_of_unmarked rfl rfl, expand_of_argumentOpening_notMem List.not_mem_nil]
  rw [int, bind_of_ok hstring] at hfirst
  cases hfirst

/-- Ranges do not count without conditions: the range from the least integer to the greatest gives
no texts, since there are more of them than an array has room for; and where a marker of ranges is
one of the characters that integers are written with, a range of few texts gives none either. -/
theorem not_array_counts_unconditionally :
    (¬ ∀ (base : Text) (a b : Int64), Text.IsWord base → ∃ fuel texts,
      array (fuel + 1) (({} : Markers).range base (writeInt64 a) (writeInt64 b)) {} =
        .ok texts {} ∧ texts.length = (a.toInt - b.toInt).natAbs + 1) ∧
    ¬ ∀ (machine : Machine) (a b : Int64), Fits 0 a b → ∃ fuel texts,
      array (fuel + 1) (machine.parser.settings.markers.range "item".toList (writeInt64 a)
        (writeInt64 b)) machine = .ok texts machine := by
  constructor
  · intro h
    obtain ⟨fuel, texts, harray, -⟩ :=
      h "item".toList Int64.minValue Int64.maxValue (by decide +kernel)
    rw [array_widest] at harray
    cases harray
  · intro h
    obtain ⟨fuel, texts, harray⟩ := h hyphenMachine (-1) 3 (by decide)
    have helement : array (fuel + 1) "item[-1-3]".toList hyphenMachine =
        range (fuel + 1) 0 "item[-1-3]".toList "item[-1-3".toList hyphenMachine := by
      rw [array_of_separator_notMem rfl (by decide)]
      exact arrayElement_of_dropLast? rfl _ _
    have hwritten : hyphenMachine.parser.settings.markers.range "item".toList (writeInt64 (-1))
        (writeInt64 3) = "item[-1-3]".toList := by decide
    rw [hwritten, helement] at harray
    rcases range_of_not_isBounded "item[-1-3]".toList 0 (not_isBounded_hyphen fuel) with
      ⟨machine', hinvalid⟩ | ⟨machine', -, hexhausted⟩
    · rw [harray] at hinvalid
      cases hinvalid
    · rw [harray] at hexhausted
      cases hexhausted

end Engine

end MarkupTemplate
