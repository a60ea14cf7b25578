import MarkupTemplate.Engine.Values
import MarkupTemplate.Proofs.Engine.Run
import MarkupTemplate.Proofs.Tag.Content
import MarkupTemplate.Proofs.Text.TopLevel

/-!
# Arrays

An array is cut at its separators, and its parts are elements in their own right: ranges, actions,
or texts. A **plain element** is a part that stands for itself. So plain elements that are put
together with the separator in between are read as what they were (`array_joinWith_separator`),
whatever the markers are.

What an element is follows from its ends: its last character makes it a range, and its first one a
call, a line of the dictionary or a preference. So most of this is about the ends of texts that are
put together, which are the ends of the first part and of the last one.
-/

set_option autoImplicit false

namespace MarkupTemplate

/-! ## Ends

The first and last characters of texts, and of parts that are put together. -/

namespace Text

theorem dropFirst?_eq_none {c : Char} {t : Text} (h : t.head? ≠ some c) : dropFirst? c t = none := by
  rw [Option.eq_none_iff_forall_ne_some]
  rintro rest hrest
  rw [dropFirst?_eq_some_iff.mp hrest] at h
  exact h rfl

theorem dropLast?_eq_none {c : Char} {t : Text} (h : t.getLast? ≠ some c) :
    dropLast? c t = none := by
  rw [Option.eq_none_iff_forall_ne_some]
  rintro init hinit
  rw [dropLast?_eq_some_iff.mp hinit] at h
  exact h List.getLast?_concat

theorem isBlankText_of_trim_eq {t : Text} (hne : t ≠ []) (h : trim t = t) :
    isBlankText t = false :=
  Bool.eq_false_iff.mpr fun hblank => hne (h.symm.trans (trim_eq_nil_iff.mpr hblank))

theorem head?_joinWith (separator : Text) {part : Text} (hne : part ≠ []) (parts : List Text) :
    (joinWith separator (part :: parts)).head? = part.head? := by
  by_cases hparts : parts = []
  · rw [hparts]
    rfl
  · rw [joinWith_cons separator part hparts]
    cases part with
    | nil => exact absurd rfl hne
    | cons c part => rfl

theorem joinWith_ne_nil (separator : Text) {part : Text} (hne : part ≠ []) (parts : List Text) :
    joinWith separator (part :: parts) ≠ [] := fun hnil => hne <| by
  rw [← List.head?_eq_none_iff, ← head?_joinWith separator hne parts, hnil, List.head?_nil]

theorem getLast?_joinWith (separator : Text) (parts : List Text) {part : Text} (hne : part ≠ []) :
    (joinWith separator (parts ++ [part])).getLast? = part.getLast? := by
  by_cases hparts : parts = []
  · rw [hparts]
    rfl
  · rw [joinWith_append separator hparts (List.cons_ne_nil part []), List.getLast?_append,
      joinWith, List.getLast?_eq_some_getLast hne]
    rfl

/-- Trimmed parts that are put together are a trimmed text. -/
theorem trim_joinWith (separator : Text) {parts : List Text}
    (h : ∀ part ∈ parts, part ≠ [] ∧ trim part = part) :
    trim (joinWith separator parts) = joinWith separator parts := by
  rw [trim_eq_self_iff]
  constructor
  · cases parts with
    | nil => simp [joinWith]
    | cons part parts =>
      obtain ⟨hne, htrim⟩ := h part List.mem_cons_self
      rw [head?_joinWith separator hne]
      exact (trim_eq_self_iff.mp htrim).1
  · rcases List.eq_nil_or_concat parts with rfl | ⟨parts, part, rfl⟩
    · simp [joinWith]
    · rw [List.concat_eq_append] at h ⊢
      obtain ⟨hne, htrim⟩ := h part (List.mem_append_right parts (List.mem_singleton_self part))
      rw [getLast?_joinWith separator parts hne]
      exact (trim_eq_self_iff.mp htrim).2

end Text

/-! ## Elements

What a part of an array has to be without for being read as itself. -/

namespace Markers

/-- Whether a text is a part of an array, with nothing around it, and not a range. -/
structure IsElement (m : Markers) (t : Text) : Prop where
  ne_nil : t ≠ []
  trim_eq : Text.trim t = t
  level : ∀ c ∈ t, m.isLevel c = true
  separator : m.arraySeparator ∉ t
  closing : t.getLast? ≠ some m.rangeClosing

/-- Whether a text is a part of an array that stands for itself. -/
structure IsPlainElement (m : Markers) (t : Text) : Prop extends m.IsElement t where
  unmarked : Engine.isMarked m t = false

variable {m : Markers} {t : Text}

/-- There is no placeholder in an element, as its characters open nothing. -/
theorem IsElement.argumentOpening_notMem (h : m.IsElement t) : m.argumentOpening ∉ t := fun hmem =>
  absurd (h.level _ hmem) (by simp [isLevel])

end Markers

namespace Engine

variable {machine machine' : Machine} {t raw : Text} {texts : List Text} {fuel : Nat}

/-! ## Reading

An array is read element by element. The number of texts that it has so far makes no difference to
plain elements. -/

/-- A text without an opening marker is resolved to itself. -/
theorem expand_of_argumentOpening_notMem
    (ht : machine.parser.settings.markers.argumentOpening ∉ t) (fuel : Nat) :
    expand (fuel + 1) t machine = .ok t machine := by
  rw [expand, bind_of_ok (markers_eq machine), if_neg ht]
  rfl

/-- A text that begins with no mark is read by resolving it. -/
theorem string_of_unmarked (htrim : Text.trim t = t)
    (hunmarked : isMarked machine.parser.settings.markers t = false) (fuel : Nat) :
    string fuel t machine = expand fuel t machine := by
  have hfirst : ∀ c, isMarked machine.parser.settings.markers [c] = true → t.head? ≠ some c := by
    intro c hmark hhead
    rw [isMarked, hhead] at hunmarked
    exact absurd (hmark.symm.trans hunmarked) (by simp)
  rw [string, stringBy, bind_of_ok (markers_eq machine), htrim,
    Text.dropFirst?_eq_none (hfirst _ (by simp [isMarked])),
    Text.dropFirst?_eq_none (hfirst _ (by simp [isMarked])),
    Text.dropFirst?_eq_none (hfirst _ (by simp [isMarked]))]

theorem array_of_isBlankText (h : Text.isBlankText raw = true) (fuel : Nat) (machine : Machine) :
    array fuel raw machine = .ok [] machine := by
  rw [array, bind_of_ok (markers_eq machine), if_pos h]
  rfl

/-- What is not blank is cut at the separators that stand outside of quotes and placeholders. -/
theorem array_eq (h : Text.isBlankText raw = false) (fuel : Nat) (machine : Machine) :
    array fuel raw machine = arrayElements fuel 0 (machine.parser.settings.markers.splitTop
      machine.parser.settings.markers.arraySeparator {} raw) machine := by
  rw [array, bind_of_ok (markers_eq machine), if_neg (by simp [h])]

theorem array_of_separator_notMem (hblank : Text.isBlankText raw = false)
    (hseparator : machine.parser.settings.markers.arraySeparator ∉ raw) (fuel : Nat) :
    array fuel raw machine = arrayElement fuel 0 (Text.trim raw) machine := by
  have hsingle : arrayElements fuel 0 [raw] = arrayElement fuel 0 (Text.trim raw) := by
    simp [arrayElements]
  rw [array_eq hblank, Markers.splitTop_of_notMem hseparator, hsingle]

/-- An element that begins with no mark, and is no range, is a single text. -/
theorem arrayElement_of_unmarked (htrim : Text.trim t = t)
    (hunmarked : isMarked machine.parser.settings.markers t = false)
    (hclosing : t.getLast? ≠ some machine.parser.settings.markers.rangeClosing) (fuel held : Nat) :
    arrayElement fuel held t machine = (do return [← expand fuel t]) machine := by
  have haction : t.head? ≠ some machine.parser.settings.markers.actionMark := by
    intro hhead
    rw [isMarked, hhead] at hunmarked
    exact absurd hunmarked (by simp)
  rw [arrayElement, bind_of_ok (markers_eq machine), Text.dropLast?_eq_none hclosing,
    Text.dropFirst?_eq_none haction]
  show EStateM.bind (string fuel t) _ machine = EStateM.bind (expand fuel t) _ machine
  rw [EStateM.bind, EStateM.bind, string_of_unmarked htrim hunmarked]

theorem arrayElement_of_isPlainElement (h : machine.parser.settings.markers.IsPlainElement t)
    (fuel held : Nat) : arrayElement (fuel + 1) held t machine = .ok [t] machine := by
  rw [arrayElement_of_unmarked h.trim_eq h.unmarked h.closing,
    bind_of_ok (expand_of_argumentOpening_notMem h.argumentOpening_notMem fuel)]
  rfl

theorem arrayElements_of_isPlainElement
    (h : ∀ t ∈ texts, machine.parser.settings.markers.IsPlainElement t) (fuel held : Nat) :
    arrayElements (fuel + 1) held texts machine = .ok texts machine := by
  induction texts generalizing held with
  | nil => rfl
  | cons t texts ih =>
    obtain ⟨ht, htexts⟩ := List.forall_mem_cons.mp h
    rw [arrayElements, ht.trim_eq, bind_of_ok (arrayElement_of_isPlainElement ht fuel held),
      bind_of_ok (ih htexts _)]
    rfl

/-- **An array of plain elements is read as them.** -/
theorem array_joinWith_separator
    (hseparator : machine.parser.settings.markers.isLevel
      machine.parser.settings.markers.arraySeparator = true)
    (h : ∀ t ∈ texts, machine.parser.settings.markers.IsPlainElement t) (fuel : Nat) :
    array (fuel + 1) (Text.joinWith [machine.parser.settings.markers.arraySeparator] texts)
      machine = .ok texts machine := by
  cases texts with
  | nil => exact array_of_isBlankText rfl (fuel + 1) machine
  | cons t texts =>
    have hink := Text.isBlankText_of_trim_eq
      (Text.joinWith_ne_nil _ (h t List.mem_cons_self).ne_nil texts)
      (Text.trim_joinWith [machine.parser.settings.markers.arraySeparator]
        fun t ht => ⟨(h t ht).ne_nil, (h t ht).trim_eq⟩)
    rw [array_eq hink, Markers.splitTop_joinWith hseparator (List.cons_ne_nil t texts)
      fun t ht => ⟨(h t ht).level, (h t ht).separator⟩]
    exact arrayElements_of_isPlainElement h fuel 0

end Engine

end MarkupTemplate
