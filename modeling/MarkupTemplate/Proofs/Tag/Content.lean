import MarkupTemplate.Proofs.Tag.Quotes
import MarkupTemplate.Tag.Basic

/-!
# What is read as a tag

`Tag.parse` takes the blanks off the text of a tag, the macro mark in front and the closing mark at
the end, and cuts the rest behind its first word. Here this is turned round: a macro tag that was
parsed has a text of one form, `Tag.Layout`, in which all that was cut off is back in its place.

The first half of the module is about trimming, which is used all over the library. Its lemmas go by
where the last character stands that is not a blank (`Text.blank_or_exists`), since trimming on the
right is defined by reversing, and a text is more easily taken apart at that character.
-/

set_option autoImplicit false

namespace MarkupTemplate

namespace Text

/-! ## Trimming

A text is blanks, or it has a last character that is not one. -/

theorem trimLeft_append {c : Char} (hc : isBlank c = false) (s t : Text) :
    trimLeft (s ++ c :: t) = trimLeft s ++ c :: t := by
  induction s with
  | nil => simp [trimLeft, hc]
  | cons d s ih =>
    cases hd : isBlank d with
    | true => simpa [trimLeft, hd] using ih
    | false => simp [trimLeft, hd]

theorem trimRight_append {c : Char} (hc : isBlank c = false) (s : Text) {blanks : Text}
    (hb : ∀ c ∈ blanks, isBlank c = true) : trimRight (s ++ c :: blanks) = s ++ [c] := by
  have hrev : ∀ d ∈ blanks.reverse, isBlank d = true :=
    fun d hd => hb d (List.mem_reverse.mp hd)
  rw [trimRight, List.reverse_append, List.reverse_cons, List.append_assoc,
    List.dropWhile_append_of_pos hrev]
  simp [hc]

theorem trim_append {c : Char} (hc : isBlank c = false) (s : Text) {blanks : Text}
    (hb : ∀ c ∈ blanks, isBlank c = true) : trim (s ++ c :: blanks) = trimLeft s ++ [c] := by
  rw [trim, trimLeft_append hc, trimRight_append hc _ hb]

/-- A text ends in blanks, behind its last character that is not blank. -/
theorem blank_or_exists (t : Text) : (∀ c ∈ t, isBlank c = true) ∨
    ∃ s c blanks, t = s ++ c :: blanks ∧ isBlank c = false ∧ ∀ d ∈ blanks, isBlank d = true := by
  induction t with
  | nil => exact Or.inl fun c hc => absurd hc (by simp)
  | cons c t ih =>
    rcases ih with ht | ⟨s, d, blanks, rfl, hd, hb⟩
    · cases hc : isBlank c with
      | true => exact Or.inl (List.forall_mem_cons.mpr ⟨hc, ht⟩)
      | false => exact Or.inr ⟨[], c, t, rfl, hc, ht⟩
    · exact Or.inr ⟨c :: s, d, blanks, rfl, hd, hb⟩

theorem trimLeft_trimLeft (t : Text) : trimLeft (trimLeft t) = trimLeft t := by
  induction t with
  | nil => rfl
  | cons c t ih =>
    cases hc : isBlank c with
    | true => simpa [trimLeft, hc] using ih
    | false => simp [trimLeft, hc]

theorem trim_eq_nil {t : Text} (h : ∀ c ∈ t, isBlank c = true) : trim t = [] :=
  trim_eq_nil_iff.mpr (List.all_eq_true.mpr h)

@[simp] theorem trim_trim (t : Text) : trim (trim t) = trim t := by
  rcases blank_or_exists t with ht | ⟨s, c, blanks, rfl, hc, hb⟩
  · rw [trim_eq_nil ht]
    rfl
  · rw [trim_append hc s hb, trim_append hc _ (by simp), trimLeft_trimLeft]

theorem trim_blanks_append {blanks : Text} (hb : ∀ c ∈ blanks, isBlank c = true) (t : Text) :
    trim (blanks ++ t) = trim t := by
  rw [trim, trim, trimLeft, trimLeft, List.dropWhile_append_of_pos hb]

theorem trim_append_blanks (t : Text) {blanks : Text} (hb : ∀ c ∈ blanks, isBlank c = true) :
    trim (t ++ blanks) = trim t := by
  rcases blank_or_exists t with ht | ⟨s, c, between, rfl, hc, hbetween⟩
  · rw [trim_blanks_append ht, trim_eq_nil ht, trim_eq_nil hb]
  · have hboth : ∀ d ∈ between ++ blanks, isBlank d = true := by
      intro d hd
      rcases List.mem_append.mp hd with hd | hd
      · exact hbetween d hd
      · exact hb d hd
    rw [List.append_assoc, List.cons_append, trim_append hc s hboth, trim_append hc s hbetween]

theorem trimRight_cons {c : Char} (hc : isBlank c = false) (t : Text) :
    trimRight (c :: t) = c :: trimRight t := by
  rcases blank_or_exists t with ht | ⟨s, d, blanks, rfl, hd, hb⟩
  · have hblank : isBlankText t.reverse = true :=
      List.all_eq_true.mpr fun d hd => ht d (List.mem_reverse.mp hd)
    have hnil : trimRight t = [] := List.reverse_eq_nil_iff.mpr (trimLeft_eq_nil_iff.mpr hblank)
    rw [hnil]
    exact trimRight_append hc [] ht
  · rw [trimRight_append hd s hb]
    exact trimRight_append hd (c :: s) hb

/-- Only the blanks behind the last part of a text are its blanks at the end. -/
theorem trim_append_of_ink {c : Char} (hc : isBlank c = false) (s : Text) {t : Text}
    (ht : isBlankText t = false) : trim (c :: s ++ t) = c :: s ++ trimRight t := by
  rcases blank_or_exists t with hblank | ⟨before, d, blanks, rfl, hd, hb⟩
  · rw [isBlankText, List.all_eq_true.mpr hblank] at ht
    cases ht
  · rw [trimRight_append hd before hb, ← List.append_assoc, trim_append hd _ hb, List.cons_append,
      trimLeft, List.dropWhile_cons_of_neg (by simp [hc])]
    simp

end Text

theorem lastInk_append_blank {c : Char} (hc : isBlank c = false) (last : Option Char) (s : Text)
    {blanks : Text} (hb : ∀ c ∈ blanks, isBlank c = true) :
    lastInk last (s ++ c :: blanks) = some c := by
  rw [lastInk_append, lastInk_cons, hc, lastInk_blank _ hb]
  rfl

namespace Text

/-- Trimming takes blanks off both ends, and nothing else. -/
theorem exists_trim (t : Text) : ∃ lead tail, t = lead ++ trim t ++ tail ∧
    (∀ c ∈ lead, isBlank c = true) ∧ ∀ c ∈ tail, isBlank c = true := by
  rcases blank_or_exists t with ht | ⟨s, c, blanks, rfl, hc, hb⟩
  · exact ⟨t, [], by rw [trim_eq_nil ht]; simp, ht, by simp⟩
  · refine ⟨s.takeWhile isBlank, blanks, ?_, ?_, hb⟩
    · have hs : s = s.takeWhile isBlank ++ s.dropWhile isBlank :=
        List.takeWhile_append_dropWhile.symm
      rw [trim_append hc s hb, trimLeft, ← List.append_assoc, ← hs]
      simp
    · intro d hd
      exact (List.all_eq_true.mp List.all_takeWhile) d hd

theorem mem_of_mem_trim {t : Text} {c : Char} (h : c ∈ trim t) : c ∈ t := by
  obtain ⟨lead, tail, hsplit, _⟩ := exists_trim t
  rw [hsplit]
  exact List.mem_append_left tail (List.mem_append_right lead h)

theorem exists_trimRight (t : Text) :
    ∃ tail, t = trimRight t ++ tail ∧ ∀ c ∈ tail, isBlank c = true := by
  refine ⟨(t.reverse.takeWhile isBlank).reverse, ?_, ?_⟩
  · rw [trimRight, ← List.reverse_append, List.takeWhile_append_dropWhile, List.reverse_reverse]
  · intro d hd
    exact (List.all_eq_true.mp List.all_takeWhile) d (List.mem_reverse.mp hd)

theorem trim_trimRight (t : Text) : trim (trimRight t) = trim t := by
  obtain ⟨tail, hsplit, htail⟩ := exists_trimRight t
  have hright := trim_append_blanks (trimRight t) htail
  rw [← hsplit] at hright
  exact hright.symm

theorem isBlank_of_trim {t s : Text} {c : Char} (h : trim t = s ++ [c]) : isBlank c = false := by
  rcases blank_or_exists t with ht | ⟨s', d, blanks, rfl, hd, hb⟩
  · rw [trim_eq_nil ht] at h
    exact absurd h (by simp)
  · rw [trim_append hd s' hb] at h
    obtain rfl : d = c := by simpa using (List.append_inj_right' h rfl)
    exact hd

/-- A text is trimmed just if it neither begins nor ends with a blank. -/
theorem trim_eq_self_iff {t : Text} : trim t = t ↔
    (∀ c ∈ t.head?, isBlank c = false) ∧ ∀ c ∈ t.getLast?, isBlank c = false := by
  constructor
  · intro h
    rcases blank_or_exists t with ht | ⟨s, d, blanks, rfl, hd, hb⟩
    · rw [trim_eq_nil ht] at h
      subst h
      simp
    · rw [trim_append hd s hb] at h
      rw [← h]
      refine ⟨fun c hc => ?_, fun c hc => ?_⟩
      -- The first character of a trimmed text is what taking blanks off stopped at.
      · cases hleft : trimLeft s with
        | nil =>
          rw [hleft] at hc
          obtain rfl : d = c := by simpa using hc
          exact hd
        | cons e rest =>
          have hfirst := List.head?_dropWhile_not isBlank s
          rw [show s.dropWhile isBlank = e :: rest from hleft] at hfirst
          rw [hleft] at hc
          obtain rfl : e = c := by simpa using hc
          simpa using hfirst
      · obtain rfl : d = c := by simpa using hc
        exact hd
  · rintro ⟨hfirst, hlast⟩
    rcases List.eq_nil_or_concat t with rfl | ⟨s, d, rfl⟩
    · rfl
    · rw [List.concat_eq_append] at hfirst hlast ⊢
      have hd : isBlank d = false := hlast d (by simp)
      rw [trim_append hd s (by simp)]
      cases s with
      | nil => rfl
      | cons c s => rw [trimLeft, List.dropWhile_cons_of_neg (by simp [hfirst c (by simp)])]

/-- The last character that is not blank is the last one of the trimmed text. -/
theorem trim_of_lastInk {t : Text} {c : Char} (h : lastInk none t = some c) :
    ∃ s, trim t = s ++ [c] := by
  rcases blank_or_exists t with ht | ⟨s, d, blanks, rfl, hd, hb⟩
  · rw [lastInk_blank _ ht] at h
    exact absurd h (by simp)
  · rw [lastInk_append_blank hd none s hb] at h
    obtain rfl := Option.some.inj h
    exact ⟨_, trim_append hd s hb⟩

end Text

/-- The attributes of a tag are the items in their text, if they are attributes at all. -/
theorem Attributes.exists_items {tag text : Text} {separator : Char} {a : Attributes}
    (h : Attributes.parse tag text separator = .ok a) :
    ∃ read, Attributes.items separator .none text = some read := by
  cases hitems : Attributes.items separator .none text with
  | none =>
    rw [Attributes.parse, hitems] at h
    exact absurd h (by simp)
  | some read => exact ⟨read, rfl⟩

namespace Tag

variable {m : Markers} {raw : Text} {t : Tag}

/-! ## Parsed tags

What the steps of parsing cut off, and where it was. -/

/-- A tag that is parsed has a name, and its quotes are closed behind the name. -/
theorem parse_eq_ok (h : Tag.parse m raw = .ok t) :
    t.name = (cutName (content m raw).1).1 ∧ t.name ≠ [] ∧ t.closed = (content m raw).2 ∧
      (cutName (content m raw).1).2.foldl nextQuote none = none := by
  unfold Tag.parse at h
  simp only at h
  split at h
  · exact absurd h (by simp)
  · next hname =>
    -- The quotes are balanced because the attributes could be cut into items.
    cases hattributes : Attributes.parse (cutName (content m raw).1).1
        (cutName (content m raw).1).2 m.attributeSeparator with
    | error e =>
      rw [hattributes] at h
      exact absurd h (by simp [Except.map])
    | ok attributes =>
      rw [hattributes] at h
      cases h
      obtain ⟨read, hread⟩ := Attributes.exists_items hattributes
      exact ⟨rfl, hname, rfl, Attributes.foldl_nextQuote hread⟩

theorem cutName_append (s : Text) : (cutName s).1 ++ (cutName s).2 = s :=
  List.takeWhile_append_dropWhile

theorem isBlank_of_mem_cutName (s : Text) : ∀ c ∈ (cutName s).2.head?, isBlank c = true := by
  intro c hc
  have hhead := List.head?_dropWhile_not (fun c => !isBlank c) s
  rw [cutName] at hc
  simp only [Option.mem_def] at hc
  rw [hc] at hhead
  simpa using hhead

theorem content_eq {text : Text} (h : Text.trim raw = m.macroMark :: text) :
    content m raw = match Text.dropLast? m.closedMark text with
      | some text => (Text.trimRight text, true)
      | none => (text, false) := by
  cases hdrop : Text.dropLast? m.closedMark text <;> simp [content, h, Text.dropFirst?, hdrop]

/-- How the text of a macro tag is put together: blanks, the mark and the name, the attributes, and
then the closing mark among blanks or blanks alone. -/
structure Layout (m : Markers) (t : Tag) (text lead attributes tail : Text) : Prop where
  text_eq : text = lead ++ m.macroMark :: (t.name ++ (attributes ++ tail))
  lead_blank : ∀ c ∈ lead, isBlank c = true
  apart : ∀ c ∈ attributes.head?, isBlank c = true
  quotes : attributes.foldl nextQuote none = none
  closing : (t.closed = true ∧ isBlank m.closedMark = false ∧ ∃ before behind,
      tail = before ++ m.closedMark :: behind ∧ (∀ c ∈ before, isBlank c = true) ∧
        ∀ c ∈ behind, isBlank c = true) ∨
    (t.closed = false ∧ (∀ c ∈ tail, isBlank c = true) ∧ lastInk none text ≠ some m.closedMark)

/-- **The text of a macro tag has one form.** -/
theorem exists_layout (hsign : (Text.trim raw).head? = some m.macroMark)
    (hparse : Tag.parse m (Text.trim raw) = .ok t) :
    ∃ lead attributes tail, Layout m t raw lead attributes tail := by
  obtain ⟨text, htext⟩ : ∃ text, Text.trim raw = m.macroMark :: text := by
    cases htrim : Text.trim raw with
    | nil => rw [htrim] at hsign; exact absurd hsign (by simp)
    | cons c text =>
      rw [htrim] at hsign
      obtain rfl := Option.some.inj hsign
      exact ⟨text, rfl⟩
  obtain ⟨lead, blanks, hraw, hlead, hblanks⟩ := Text.exists_trim raw
  rw [htext] at hraw
  obtain ⟨hname, hne, hclosed, hquotes⟩ := parse_eq_ok hparse
  rw [content_eq ((Text.trim_trim raw).trans htext)] at hname hclosed hquotes
  -- The closing mark was there or was not, and with it goes whether the tag is closed.
  cases hdrop : Text.dropLast? m.closedMark text with
  | some inner =>
    rw [hdrop] at hname hclosed hquotes
    obtain ⟨before, hinner, hbefore⟩ := Text.exists_trimRight inner
    have hmark := Text.dropLast?_eq_some_iff.mp hdrop
    refine ⟨lead, (cutName (Text.trimRight inner)).2, before ++ m.closedMark :: blanks, ?_, hlead,
      isBlank_of_mem_cutName _, hquotes,
      Or.inl ⟨hclosed, ?_, before, blanks, rfl, hbefore, hblanks⟩⟩
    · rw [hraw, hmark, hname]
      conv => lhs; rw [hinner, ← cutName_append (Text.trimRight inner)]
      simp
    · rw [hmark] at htext
      exact Text.isBlank_of_trim (s := m.macroMark :: inner) htext
  | none =>
    rw [hdrop] at hname hclosed hquotes
    refine ⟨lead, (cutName text).2, blanks, ?_, hlead, isBlank_of_mem_cutName _, hquotes,
      Or.inr ⟨hclosed, hblanks, fun hink => ?_⟩⟩
    · rw [hraw, hname]
      conv => lhs; rw [← cutName_append text]
      simp
    · -- A mark at the end of the text would have been dropped, unless it were all of the name.
      obtain ⟨s, hs⟩ := Text.trim_of_lastInk hink
      rw [htext] at hs
      cases s with
      | nil =>
        obtain ⟨_, rfl⟩ := List.cons.inj hs
        exact absurd hname (by simpa [cutName] using hne)
      | cons c s =>
        obtain ⟨_, rfl⟩ := List.cons.inj hs
        have hsome := (Text.dropLast?_eq_some_iff (c := m.closedMark)).mpr
          (rfl : s ++ [m.closedMark] = s ++ [m.closedMark])
        exact absurd (hdrop.symm.trans hsome) (by simp)

end Tag

end MarkupTemplate
