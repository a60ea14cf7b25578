/-!
# Text

All template text, every name and every marker sequence is a list of characters. The functions
here cut such lists at a character and put the parts together again; `splitAll` and `joinWith`
undo each other, and `splitFirst?` is the first cut that `splitAll` makes.
-/

set_option autoImplicit false

namespace MarkupTemplate

/-- Template text: a sequence of Unicode scalar values. A list has the recursion that the
definitions follow, and lengths count characters, as the positions in messages do. -/
abbrev Text := List Char

namespace Text

/-! ## Cutting at a character

Each of these stops at the first place that fits, and says by `none` that there is no such place. -/

/-- The text before and after the first `c`, if there is one. -/
def splitFirst? (c : Char) : Text → Option (Text × Text)
  | [] => none
  | d :: rest =>
    if d = c then some ([], rest)
    else (splitFirst? c rest).map fun p => (d :: p.1, p.2)

/-- The parts of a text between the occurrences of `c`. -/
def splitAll (c : Char) : Text → List Text
  | [] => [[]]
  | d :: rest =>
    if d = c then [] :: splitAll c rest
    else
      match splitAll c rest with
      | [] => [[d]]
      | part :: parts => (d :: part) :: parts

/-- The parts one after another, with the separator between neighbours. The separator is a text,
since it may be of any length or none. -/
def joinWith (separator : Text) : List Text → Text
  | [] => []
  | [part] => part
  | part :: parts => part ++ separator ++ joinWith separator parts

/-- The text without its first character, if that is `c`. -/
def dropFirst? (c : Char) : Text → Option Text
  | [] => none
  | d :: rest => if d = c then some rest else none

/-- The text without its last character, if that is `c`. -/
def dropLast? (c : Char) : Text → Option Text
  | [] => none
  | [d] => if d = c then some [] else none
  | d :: e :: rest => (dropLast? c (e :: rest)).map (d :: ·)

/-! ## Putting together

How `joinWith` follows the list of parts. The parts are never none in these laws, as there is one
separator less than there are parts. -/

theorem joinWith_cons (separator part : Text) {parts : List Text} (hne : parts ≠ []) :
    joinWith separator (part :: parts) = part ++ separator ++ joinWith separator parts := by
  cases parts with
  | nil => exact absurd rfl hne
  | cons next parts => rfl

/-- A character in front of the first part is in front of the whole text. -/
theorem joinWith_modifyHead (separator : Text) (c : Char) {parts : List Text} (hne : parts ≠ []) :
    joinWith separator (parts.modifyHead (c :: ·)) = c :: joinWith separator parts := by
  cases parts with
  | nil => exact absurd rfl hne
  | cons part parts => cases parts <;> rfl

theorem joinWith_append (separator : Text) {parts parts' : List Text} (hne : parts ≠ [])
    (hne' : parts' ≠ []) : joinWith separator (parts ++ parts') =
      joinWith separator parts ++ separator ++ joinWith separator parts' := by
  induction parts with
  | nil => exact absurd rfl hne
  | cons part parts ih =>
    by_cases hparts : parts = []
    · rw [hparts, List.singleton_append, joinWith_cons separator part hne']
      rfl
    · rw [List.cons_append, joinWith_cons separator part (by simp [hparts]), ih hparts,
        joinWith_cons separator part hparts]
      simp

theorem mem_joinWith {c : Char} {separator : Text} {parts : List Text}
    (h : c ∈ joinWith separator parts) : c ∈ separator ∨ ∃ part ∈ parts, c ∈ part := by
  fun_induction joinWith separator parts with
  | case1 => exact absurd h (by simp)
  | case2 part => exact Or.inr ⟨part, List.mem_singleton_self part, h⟩
  | case3 part parts _ ih =>
    rcases List.mem_append.mp h with h | h
    · rcases List.mem_append.mp h with h | h
      · exact Or.inr ⟨part, List.mem_cons_self, h⟩
      · exact Or.inl h
    · rcases ih h with h | ⟨part', hmem, h⟩
      · exact Or.inl h
      · exact Or.inr ⟨part', List.mem_cons_of_mem _ hmem, h⟩

/-! ## What the cuts mean

Each cut is characterised by what the text was before, so that no proof has to unfold it again. -/

theorem eq_of_splitFirst? {c : Char} {t before after : Text}
    (h : splitFirst? c t = some (before, after)) : t = before ++ c :: after ∧ c ∉ before := by
  induction t generalizing before with
  | nil => simp [splitFirst?] at h
  | cons d rest ih =>
    by_cases hd : d = c
    · simp only [splitFirst?, hd, if_true, Option.some.injEq, Prod.mk.injEq] at h
      obtain ⟨rfl, rfl⟩ := h
      simp [hd]
    · simp only [splitFirst?, hd, if_false, Option.map_eq_some_iff, Prod.mk.injEq] at h
      obtain ⟨p, hp, rfl, rfl⟩ := h
      obtain ⟨heq, hmem⟩ := ih hp
      exact ⟨by rw [heq]; rfl, by simp [hmem, Ne.symm hd]⟩

theorem splitFirst?_append {c : Char} {s : Text} (h : c ∉ s) (t : Text) :
    splitFirst? c (s ++ c :: t) = some (s, t) := by
  induction s with
  | nil => simp [splitFirst?]
  | cons d s ih =>
    have hd : d ≠ c := fun heq => h (heq ▸ List.mem_cons_self)
    rw [List.cons_append, splitFirst?, if_neg hd, ih (List.not_mem_of_not_mem_cons h)]
    rfl

theorem splitAll_ne_nil (c : Char) (t : Text) : splitAll c t ≠ [] := by
  cases t with
  | nil => simp [splitAll]
  | cons d rest =>
    simp only [splitAll]
    split
    · simp
    · split <;> simp

theorem joinWith_splitAll (c : Char) (t : Text) : joinWith [c] (splitAll c t) = t := by
  induction t with
  | nil => rfl
  | cons d rest ih =>
    cases hs : splitAll c rest with
    | nil => exact absurd hs (splitAll_ne_nil c rest)
    | cons part parts =>
      rw [hs] at ih
      by_cases hd : d = c
      · simp [splitAll, hd, hs, joinWith, ih]
      · cases parts <;> simp_all [splitAll, joinWith]

theorem dropFirst?_eq_some_iff {c : Char} {t rest : Text} :
    dropFirst? c t = some rest ↔ t = c :: rest := by
  cases t with
  | nil => simp [dropFirst?]
  | cons d t => by_cases hd : d = c <;> simp [dropFirst?, hd]

theorem dropLast?_eq_some_iff {c : Char} {t init : Text} :
    dropLast? c t = some init ↔ t = init ++ [c] := by
  fun_induction dropLast? c t generalizing init with
  | case1 => simp
  | case2 => cases init <;> simp_all
  | case3 => cases init <;> simp_all
  | case4 d e rest ih =>
    cases init with
    | nil => simp
    | cons i init =>
      simp only [Option.map_eq_some_iff, List.cons_append, List.cons.injEq]
      constructor
      · rintro ⟨a, ha, rfl, rfl⟩
        exact ⟨rfl, ih.1 ha⟩
      · rintro ⟨rfl, h⟩
        exact ⟨init, ih.2 h, rfl, rfl⟩

end Text

end MarkupTemplate
