import MarkupTemplate.Proofs.Body.Branches
import MarkupTemplate.Proofs.Control.Term
import MarkupTemplate.Proofs.Tag.Setting

/-!
# The shape of control templates

Bodies are captured and cut in two on sight, without a look at what the macros in them do. The
template of a control term has the shape that this needs: it is level for every control macro, and
the search for the tag between branches passes over it. Both are by induction on the term, and come
down to what the look-ahead says about each of the tags.
-/

set_option autoImplicit false

namespace MarkupTemplate

namespace Control

/-- The names of the macros in control terms. -/
def names : List Text := ["if".toList, "loop".toList, "each".toList]

theorem isWord_of_mem_names {name : Text} (h : name ∈ names) : name.IsWord := by
  have hall : names.all (fun name => !name.isEmpty && name.all isAlphanumeric) = true := by
    decide
  have hname := List.all_eq_true.mp hall name h
  rw [Bool.and_eq_true] at hname
  exact ⟨by simpa using hname.1, List.all_eq_true.mp hname.2⟩

/-! ## Tags

Whatever pattern the scanner looks for, each of the tags of a control term opens it, closes it, or
is none of its tags. That is settled once and for all texts that may follow. -/

section

variable {name other setting key value : Text} {strict : Bool}

/-- A word is not found where another letter stands first. -/
theorem afterLetters?_of_first {c d : Char} (h : TagPattern.sameLetter strict c d = false)
    (s t : Text) : TagPattern.afterLetters? strict (d :: s) (c :: t) = none := by
  rw [TagPattern.afterLetters?, if_neg (by simp [h])]

theorem afterLetters?_of_ne (hn : name ∈ names) (ho : other ∈ names) (hne : name ≠ other)
    (t : Text) : TagPattern.afterLetters? strict other (name ++ t) = none := by
  simp only [names, List.mem_cons, List.not_mem_nil, or_false] at hn ho
  rcases hn with rfl | rfl | rfl <;> rcases ho with rfl | rfl | rfl
  all_goals first
    | exact absurd rfl hne
    | exact afterLetters?_of_first (by cases strict <;> decide) _ _

/-- The look-ahead takes the tag for one that has to be closed. -/
theorem opens_macroText (h : IsSetting setting key value) (hname : name.IsWord) (strict : Bool) :
    TagPattern.Opens ⟨name, true, strict⟩ {} (macroText name setting ++ ['>']) := by
  have hnotMem : '<' ∉ name := hname.notMem (by decide)
  refine ⟨?_, fun t => ?_, fun t => ?_⟩
  · simp [macroText, hnotMem, h.notMem.1]
  · exact TagPattern.afterClosing?_eq_none _ (by decide)
  · have hquotes : ({} : Markers).quoteBehind? none (' ' :: setting) = some none := by
      rw [Markers.quoteBehind?, if_neg (by decide)]
      exact h.quotes
    have hopen := (TagPattern.spells_name ⟨name, true, strict⟩).opening? (m := {}) (by decide) t
      (s := ' ' :: setting) rfl hquotes
    obtain ⟨before, c, rfl, hc, hmark⟩ := h.last
    -- The tag does not close itself, as its setting does not end in the closing mark.
    have hlast : lastInk none (' ' :: (before ++ [c])) = some c :=
      lastInk_append_blank hc none (' ' :: before)
        (by simp : ∀ c ∈ ([] : Text), isBlank c = true)
    rw [hlast] at hopen
    have hfalse : (some c == some '/') = false := by simp [hmark]
    simpa [macroText, TagPattern.sign, hfalse] using hopen


/-- A longer word is not found where a shorter one is not. -/
theorem afterLetters?_eq_none_append {s t : Text}
    (h : TagPattern.afterLetters? strict s t = none) (s' : Text) :
    TagPattern.afterLetters? strict (s ++ s') t = none := by
  fun_induction TagPattern.afterLetters? strict s t with
  | case1 => exact absurd h (by simp)
  | case2 => rfl
  | case3 c s d t hc ih =>
    rw [List.cons_append, TagPattern.afterLetters?, if_pos hc]
    exact ih h
  | case4 c s d t hc => rw [List.cons_append, TagPattern.afterLetters?, if_neg hc]

/-- It takes the tag of another macro for nothing. -/
theorem ignores_macroText (strict : Bool) (hn : name ∈ names) (ho : other ∈ names)
    (hne : name ≠ other) (h : IsSetting setting key value) :
    TagPattern.Ignores ⟨other, true, strict⟩ {} (macroText name setting ++ ['>']) := by
  refine ⟨(opens_macroText h (isWord_of_mem_names hn) strict).notMem, fun t => ?_, fun t => ?_⟩
  · exact TagPattern.afterClosing?_eq_none _ (by decide)
  · have hafter : TagPattern.afterName? ⟨other, true, strict⟩ {}
        (macroText name setting ++ ['>'] ++ t) = none := by
      simp only [macroText, List.append_assoc, List.cons_append]
      exact afterLetters?_of_ne hn ho hne _
    rw [TagPattern.opening?, hafter]

/-- The closing tag of a macro, from behind its opening marker. -/
def closingText (name : Text) : Text := '/' :: ':' :: name ++ ['>']

theorem notMem_closingText (hn : name ∈ names) : '<' ∉ closingText name := by
  have hname := (isWord_of_mem_names hn).notMem (c := '<') (by decide)
  simp [closingText, hname]

/-- A closing tag is not the start of a tag. -/
theorem opening?_closingText (p : TagPattern) (hp : p.isMacro = true) (t : Text) :
    p.opening? {} (closingText name ++ t) = none := by
  have hafter : p.afterName? {} (closingText name ++ t) = none := by
    rw [TagPattern.afterName?, if_pos hp]
    rfl
  rw [TagPattern.opening?, hafter]

theorem closes_closingText (hn : name ∈ names) :
    TagPattern.Closes ⟨name, true, strict⟩ {} (closingText name) := by
  refine ⟨notMem_closingText hn, fun t => ?_⟩
  have hclose := (TagPattern.spells_name ⟨name, true, strict⟩).afterClosing? (m := {})
    (by simp : ∀ c ∈ ([] : Text), isBlank c = true) (by decide) t
  simpa [closingText, TagPattern.sign] using hclose

theorem ignores_closingText (strict : Bool) (hn : name ∈ names)
    (hname : ∀ t, TagPattern.afterLetters? strict other (name ++ t) = none) :
    TagPattern.Ignores ⟨other, true, strict⟩ {} (closingText name) := by
  refine ⟨notMem_closingText hn, fun t => ?_, fun t => opening?_closingText _ rfl t⟩
  have hafter : TagPattern.afterName? ⟨other, true, strict⟩ {}
      (':' :: name ++ ['>'] ++ t) = none := by
    simp only [List.append_assoc, List.cons_append]
    exact hname _
  simp only [closingText, TagPattern.afterClosing?, List.cons_append, Text.dropFirst?, if_true,
    Option.bind_some]
  rw [← List.cons_append, ← List.cons_append, hafter]

/-! ## The tag between branches

Its name begins with that of the conditional, so it is looked at by the same pattern. It is no tag
of the conditional all the same, since there the name would have to end. -/

/-- The tag between branches, from behind its opening marker. -/
def elseText : Text := ":if:else/>".toList

/-- The pattern for the tag between branches. -/
def elsePattern (strict : Bool) : TagPattern :=
  ⟨({} : Markers).elseName "if".toList, true, strict⟩

/-- A word in front of both texts is passed over. -/
theorem afterLetters?_self (strict : Bool) (word s t : Text) :
    TagPattern.afterLetters? strict (word ++ s) (word ++ t) =
      TagPattern.afterLetters? strict s t := by
  induction word with
  | nil => rfl
  | cons c word ih =>
    rw [List.cons_append, List.cons_append, TagPattern.afterLetters?,
      if_pos (TagPattern.sameLetter_self strict c), ih]

/-- To every pattern of a control macro the tag between branches is no tag. -/
theorem ignores_elseText (strict : Bool) (hn : name ∈ names) :
    TagPattern.Ignores ⟨name, true, strict⟩ {} elseText := by
  refine ⟨by decide, fun t => TagPattern.afterClosing?_eq_none _ (by decide), fun t => ?_⟩
  by_cases hne : "if".toList = name
  · subst hne
    have hafter : TagPattern.afterName? ⟨"if".toList, true, strict⟩ {} (elseText ++ t) =
        some (":else/>".toList ++ t) := by
      have := afterLetters?_self strict "if".toList [] (":else/>".toList ++ t)
      rw [List.append_nil] at this
      exact this
    rw [TagPattern.opening?, hafter]
    rfl
  · have hafter : TagPattern.afterName? ⟨name, true, strict⟩ {} (elseText ++ t) = none :=
      afterLetters?_of_ne (by decide : "if".toList ∈ names) hn hne (":else/>".toList ++ t)
    rw [TagPattern.opening?, hafter]

/-- For the search it is the tag that divides branches. -/
theorem divides_elseText :
    TagPattern.Divides ⟨"if".toList, true, strict⟩ (elsePattern strict) {} elseText := by
  have hignores := ignores_elseText strict (by decide : "if".toList ∈ names)
  refine ⟨hignores.notMem, hignores.closing, fun t => ?_⟩
  have hopen := (TagPattern.spells_name (elsePattern strict)).opening? (m := {}) (by decide) t
    (s := ['/']) rfl (by decide)
  exact hopen

/-- The tag of a macro is not one between branches. -/
theorem elsePattern_ignores_macroText (strict : Bool) (hn : name ∈ names)
    (h : IsSetting setting key value) :
    (elsePattern strict).Ignores {} (macroText name setting ++ ['>']) := by
  refine ⟨(opens_macroText h (isWord_of_mem_names hn) strict).notMem, fun t => ?_, fun t => ?_⟩
  · exact TagPattern.afterClosing?_eq_none _ (by decide)
  · have hletters : ∀ u, TagPattern.afterLetters? strict ("if".toList ++ ":else".toList)
        (name ++ ' ' :: u) = none := by
      intro u
      by_cases hne : name = "if".toList
      · rw [hne, afterLetters?_self]
        exact afterLetters?_of_first (by cases strict <;> decide) _ _
      · exact afterLetters?_eq_none_append (afterLetters?_of_ne hn (by decide) hne _) _
    have hafter : (elsePattern strict).afterName? {} (macroText name setting ++ ['>'] ++ t) =
        none := by
      simp only [macroText, List.append_assoc, List.cons_append]
      exact hletters _
    rw [TagPattern.opening?, hafter]

/-- The closing tag of a loop does not divide branches. -/
theorem elsePattern_ignores_closingText (strict : Bool) (hn : name ∈ names)
    (hne : name ≠ "if".toList) : (elsePattern strict).Ignores {} (closingText name) :=
  ignores_closingText strict hn fun t =>
    afterLetters?_eq_none_append (afterLetters?_of_ne hn (by decide) hne t) ":else".toList

end

/-! ## Macros

A macro with its body, seen by the pattern of any of the names: the same name counts, another one is
text. -/

section

variable {name setting key value body : Text} {strict : Bool}

/-- A macro is its tag, its body and its closing tag. -/
theorem macroTag_eq : macroTag name setting body =
    '<' :: (macroText name setting ++ ['>']) ++ body ++ '<' :: closingText name := rfl

/-- A macro around a level body is level, for its own name as for another one. -/
theorem level_macroTag {other : Text} (hn : name ∈ names) (ho : other ∈ names)
    (h : IsSetting setting key value)
    (hbody : TagPattern.Level ⟨other, true, strict⟩ {} body) :
    TagPattern.Level ⟨other, true, strict⟩ {} (macroTag name setting body) := by
  rw [macroTag_eq]
  by_cases hne : name = other
  · subst hne
    exact (opens_macroText h (isWord_of_mem_names hn) strict).level hbody (closes_closingText hn)
  · have hopening := (ignores_macroText strict hn ho hne h).level
    have hclosing := (ignores_closingText strict hn (afterLetters?_of_ne hn ho hne)).level
    exact (hopening.append hbody).append hclosing

/-- A conditional may have a tag between branches in its body. -/
theorem uncut_conditional (h : IsSetting setting key value)
    (hbody : TagPattern.Uncut ⟨"if".toList, true, strict⟩ (elsePattern strict) {} 1 body) :
    TagPattern.Uncut ⟨"if".toList, true, strict⟩ (elsePattern strict) {} 0
      (macroTag "if".toList setting body) := by
  have hn : "if".toList ∈ names := by decide
  exact (opens_macroText h (isWord_of_mem_names hn) strict).uncut
    (elsePattern_ignores_macroText strict hn h) hbody (closes_closingText hn)

theorem uncut_loop (hn : name ∈ names) (hne : name ≠ "if".toList) (h : IsSetting setting key value)
    (hbody : TagPattern.Uncut ⟨"if".toList, true, strict⟩ (elsePattern strict) {} 0 body) :
    TagPattern.Uncut ⟨"if".toList, true, strict⟩ (elsePattern strict) {} 0
      (macroTag name setting body) := by
  have hif : "if".toList ∈ names := by decide
  have hopening := (ignores_macroText strict hn hif hne h).uncut 0
    (elsePattern_ignores_macroText strict hn h)
  have hclosing := (ignores_closingText strict hn (afterLetters?_of_ne hn hif hne)).uncut 0
    (elsePattern_ignores_closingText strict hn hne)
  exact (hopening.append hbody).append hclosing

end

/-! ## Settings

The three settings are attributes as templates write them, so what holds of all of those holds of
them. -/

theorem isSetting_test (holds : Bool) :
    IsSetting (testSetting holds) "test".toList (writeBool holds) :=
  isSetting_plain (by decide : isKey "test".toList = true) (isWord_writeBool holds)

theorem isSetting_times (times : Nat) :
    IsSetting (timesSetting times) "times".toList (writeNat times) :=
  isSetting_plain (by decide : isKey "times".toList = true) (isWord_writeNat times)

/-- Of all markers only the separator stands between words. -/
theorem notMem_joinWith {values : List Text} (hv : ∀ value ∈ values, Text.IsWord value) {c : Char}
    (hc : isAlphanumeric c = false) (hne : c ≠ ';') : c ∉ Text.joinWith [';'] values := by
  intro hm
  rcases Text.mem_joinWith hm with hm | ⟨value, hvalue, hm⟩
  · exact hne (List.mem_singleton.mp hm)
  · exact (hv value hvalue).notMem hc hm

theorem isSetting_values {name : Text} {values : List Text} (hk : isKey name = true)
    (hv : ∀ value ∈ values, Text.IsWord value) :
    IsSetting (valuesSetting name values) name (Text.joinWith [';'] values) := by
  have hquote : '"' ∉ Text.joinWith [';'] values := notMem_joinWith hv (by decide) (by decide)
  have hbrace : '{' ∉ Text.joinWith [';'] values := notMem_joinWith hv (by decide) (by decide)
  have htag : '<' ∉ Text.joinWith [';'] values := notMem_joinWith hv (by decide) (by decide)
  have hsetting := isSetting_quoted hk hquote hbrace htag
  simpa [valuesSetting] using hsetting

/-! ## Terms -/

section

variable {given : Values} {vars : List Text} {t : Term} {strict : Bool}

/-- Whether all values that were given are words. -/
def Values.AreWords (given : Values) : Prop := ∀ name value, given name = some value → value.IsWord

theorem notMem_use (hg : given.AreWords) {name : Text} (hk : isKey name = true) :
    '<' ∉ (Term.use name).write given := by
  rw [Term.write]
  cases hvalue : given name with
  | some value => exact (hg name value hvalue).notMem (by decide)
  | none =>
    have hname : '<' ∉ name := fun hm =>
      absurd (isKeyCharacter_of_isKey hk _ hm) (by decide)
    simp [Markers.placeholder, hname]

/-- **Whatever body a term stands in, capturing passes over the term.** -/
theorem level_write {name : Text} (strict : Bool) (hn : name ∈ names) (hg : given.AreWords)
    (hvars : ∀ x ∈ vars, isKey x = true) (h : t.Scoped vars) :
    TagPattern.Level ⟨name, true, strict⟩ {} (t.write given) := by
  -- The names of the variables around a term grow on the way into a loop.
  induction t generalizing vars with
  | empty => exact TagPattern.level_nil
  | text s => exact TagPattern.level_of_notMem h.2.1
  | use x => exact TagPattern.level_of_notMem (notMem_use hg (hvars x h))
  | append first second ihf ihs => exact (ihf hvars h.1).append (ihs hvars h.2)
  | conditional holds body ih =>
    exact level_macroTag (by decide) hn (isSetting_test holds) (ih hvars h)
  | choice holds onTrue onFalse iht ihf =>
    refine level_macroTag (by decide) hn (isSetting_test holds) ?_
    exact ((iht hvars h.1).append (ignores_elseText strict hn).level).append (ihf hvars h.2)
  | repeated times body ih =>
    exact level_macroTag (by decide) hn (isSetting_times times) (ih hvars h.2)
  | forEach x values body ih =>
    obtain ⟨hk, _, hv, hbody⟩ := h
    exact level_macroTag (by decide) hn (isSetting_values hk hv)
      (ih (List.forall_mem_cons.mpr ⟨hk, hvars⟩) hbody)

/-- **A term has no tag between branches that is not between its own ones.** -/
theorem uncut_write (strict : Bool) (hg : given.AreWords) (hvars : ∀ x ∈ vars, isKey x = true)
    (h : t.Scoped vars) :
    TagPattern.Uncut ⟨"if".toList, true, strict⟩ (elsePattern strict) {} 0 (t.write given) := by
  induction t generalizing vars with
  | empty => exact TagPattern.uncut_nil 0
  | text s => exact TagPattern.uncut_of_notMem h.2.1
  | use x => exact TagPattern.uncut_of_notMem (notMem_use hg (hvars x h))
  | append first second ihf ihs => exact (ihf hvars h.1).append (ihs hvars h.2)
  -- A branch stands one deeper than the conditional around it.
  | conditional holds body ih =>
    exact uncut_conditional (isSetting_test holds) ((ih hvars h).mono (Nat.zero_le 1))
  | choice holds onTrue onFalse iht ihf =>
    refine uncut_conditional (isSetting_test holds) ?_
    have htrue := (iht hvars h.1).mono (Nat.zero_le 1)
    exact (htrue.append divides_elseText.uncut).append ((ihf hvars h.2).mono (Nat.zero_le 1))
  | repeated times body ih =>
    exact uncut_loop (by decide) (by decide) (isSetting_times times) (ih hvars h.2)
  | forEach x values body ih =>
    obtain ⟨hk, _, hv, hbody⟩ := h
    exact uncut_loop (by decide) (by decide) (isSetting_values hk hv)
      (ih (List.forall_mem_cons.mpr ⟨hk, hvars⟩) hbody)

end

end Control

end MarkupTemplate
