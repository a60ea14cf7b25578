import MarkupTemplate.Proofs.Tag.Content
import MarkupTemplate.Proofs.Tag.Parts
import MarkupTemplate.Proofs.Text.Words

/-!
# A tag with one named attribute

A setting is a named attribute as a template has it: a key, the separator, and a value that is
written plainly or in quotes. `IsSetting` collects what the readers of tags make of it: the parts of
the tag are its characters, its quotes are closed where it ends, it does not look like the end of a
tag that closes itself, and it is read as that one attribute. `IsSetting.parse` is the tag of such a
setting.

Templates that other modules write have their tags from here. They take a key and a value, get a
setting in one of two ways (`isSetting_plain`, `isSetting_quoted`), and need not look at the readers
of tags again.
-/

set_option autoImplicit false

namespace MarkupTemplate

/-! ## Quoted text

Quotes around a text without that quote are closed behind it, and all in between are characters. -/

namespace Markers

variable {m : Markers} {q : Char} {s : Text}

theorem quoteBehind?_quoted (hq : isQuote q = true) (hs : q ∉ s) :
    m.quoteBehind? none (q :: s ++ [q]) = some none := by
  -- Inside of the quotes nothing ends the tag.
  have hinside : ∀ s : Text, q ∉ s → m.quoteBehind? (some q) (s ++ [q]) = some none := by
    intro s hs
    induction s with
    | nil => simp [quoteBehind?, nextQuote]
    | cons c s ih =>
      rw [List.mem_cons, not_or] at hs
      have hnext : nextQuote (some q) c = some q := if_neg (Ne.symm hs.1)
      rw [List.cons_append, quoteBehind?, if_neg (by simp), hnext]
      exact ih hs.2
  have hnext : nextQuote none q = some q := if_pos hq
  rw [List.cons_append, quoteBehind?, if_neg (by simp [hq]), hnext]
  exact hinside s hs

/-- The parts of a tag that begins with quoted text. -/
theorem tagParts_quoted {nested : Bool} (hq : isQuote q = true) (hm : q ≠ m.argumentOpening)
    (hs : q ∉ s) (ha : m.argumentOpening ∉ s) (t : Text) :
    m.tagParts nested none (q :: s ++ q :: t) =
      (q :: s ++ [q]).map .char ++ m.tagParts nested none t := by
  have hinside : ∀ s : Text, q ∉ s → m.argumentOpening ∉ s →
      m.tagParts nested (some q) (s ++ q :: t) =
        (s ++ [q]).map .char ++ m.tagParts nested none t := by
    intro s hs ha
    induction s with
    | nil => rw [List.nil_append, tagParts, if_neg hm, if_pos rfl]; rfl
    | cons c s ih =>
      rw [List.mem_cons, not_or] at hs ha
      rw [List.cons_append, tagParts, if_neg (Ne.symm ha.1)]
      simp only [if_neg (Ne.symm hs.1)]
      rw [ih hs.2 ha.2]
      rfl
  rw [List.cons_append, tagParts, if_neg hm]
  simp only [hq, if_true]
  rw [hinside s hs ha]
  rfl

end Markers

/-! ## Keys

A character of a key is no blank, no quote and no marker. -/

/-- Whether a character can stand in the key of an attribute. -/
def isKeyCharacter (c : Char) : Bool :=
  isAlphanumeric c || c == '_' || c == '-' || c == ':' || c == '.'

theorem isKeyCharacter_of_isKey {key : Text} (h : isKey key = true) :
    ∀ c ∈ key, isKeyCharacter c = true := by
  cases key with
  | nil => exact absurd h (by simp [isKey])
  | cons first rest =>
    rw [isKey, Bool.and_eq_true] at h
    refine List.forall_mem_cons.mpr ⟨?_, List.all_eq_true.mp h.2⟩
    have hfirst := h.1
    rw [Bool.or_eq_true] at hfirst
    rcases hfirst with hfirst | hfirst
    · simp [isKeyCharacter, isAlphanumeric, hfirst]
    · simp [isKeyCharacter, hfirst]

theorem isBlank_of_isKeyCharacter {c : Char} (h : isKeyCharacter c = true) :
    isBlank c = false := by
  simp only [isKeyCharacter, Bool.or_eq_true, beq_iff_eq] at h
  rcases h with (((h | rfl) | rfl) | rfl) | rfl
  · exact isBlank_of_isAlphanumeric h
  all_goals decide

theorem ne_of_isKeyCharacter {c d : Char} (h : isKeyCharacter c = true)
    (hd : isKeyCharacter d = false) : c ≠ d := by
  rintro rfl
  rw [h] at hd
  exact absurd hd (by simp)

theorem isQuote_of_isKeyCharacter {c : Char} (h : isKeyCharacter c = true) :
    isQuote c = false := by
  have hdouble : c ≠ '"' := ne_of_isKeyCharacter h (by decide)
  have hsingle : c ≠ '\'' := ne_of_isKeyCharacter h (by decide)
  simp [isQuote, hdouble, hsingle]

theorem isPlain_of_isKeyCharacter {c : Char} (h : isKeyCharacter c = true) :
    ({} : Markers).isPlain c = true := by
  have hbrace : c ≠ '{' := ne_of_isKeyCharacter h (by decide)
  have hopening : c ≠ '<' := ne_of_isKeyCharacter h (by decide)
  have hclosing : c ≠ '>' := ne_of_isKeyCharacter h (by decide)
  simp [Markers.isPlain, isQuote_of_isKeyCharacter h, hbrace, hopening, hclosing]

namespace Attributes

variable {key value : Text}

/-! ## Items

How the reader of attributes goes through a key and a value. -/

theorem items_key (hk : isKey key = true) (t : Text) :
    items '=' .none (key ++ '=' :: t) = items '=' (some { key := some key }) t := by
  -- Up to the separator the key grows as a value does.
  have hrun : ∀ s before : Text, (∀ c ∈ s, isKeyCharacter c = true) →
      items '=' (some { value := before }) (s ++ '=' :: t) =
        items '=' (some { value := before ++ s }) ('=' :: t) := by
    intro s
    induction s with
    | nil => intro before _; simp
    | cons c s ih =>
      intro before hs
      obtain ⟨hc, hs⟩ := List.forall_mem_cons.mp hs
      have hne : c ≠ '=' := ne_of_isKeyCharacter hc (by decide)
      have hpush : Pending.push '=' { value := before } c = { value := before ++ [c] } := by
        simp [Pending.push, isQuote_of_isKeyCharacter hc, hne]
      rw [List.cons_append, items, if_neg (by simp [isBlank_of_isKeyCharacter hc]), hpush,
        ih _ hs]
      simp
  cases key with
  | nil => exact absurd hk (by simp [isKey])
  | cons c s =>
    obtain ⟨hc, hs⟩ := List.forall_mem_cons.mp (isKeyCharacter_of_isKey hk)
    have hne : c ≠ '=' := ne_of_isKeyCharacter hc (by decide)
    have hpush : Pending.push '=' {} c = { value := [c] } := by
      simp [Pending.push, isQuote_of_isKeyCharacter hc, hne]
    have hseparator : Pending.push '=' { value := c :: s } '=' = { key := some (c :: s) } := by
      simp [Pending.push, hk, isQuote]
    have hblank : isBlank '=' = false := by decide
    rw [List.cons_append, items, if_neg (by simp [isBlank_of_isKeyCharacter hc]), hpush,
      hrun s [c] hs, List.singleton_append, items, if_neg (by simp [hblank]), hseparator]

/-- A value that is written plainly, up to the end of the text. -/
theorem items_plain (hv : ∀ c ∈ value, isBlank c = false ∧ isQuote c = false) :
    items '=' (some { key := some key }) value = some [⟨some key, value⟩] := by
  -- What was collected grows along the value, so the induction is on all that may be in front.
  have hrun : ∀ s before : Text, (∀ c ∈ s, isBlank c = false ∧ isQuote c = false) →
      items '=' (some { key := some key, value := before }) s =
        some [⟨some key, before ++ s⟩] := by
    intro s
    induction s with
    | nil => intro before _; simp [items, Pending.item]
    | cons c s ih =>
      intro before hs
      obtain ⟨hc, hs⟩ := List.forall_mem_cons.mp hs
      have hpush : Pending.push '=' { key := some key, value := before } c =
          { key := some key, value := before ++ [c] } := by
        simp [Pending.push, hc.2]
      rw [items, if_neg (by simp [hc.1]), hpush, ih _ hs]
      simp
  exact hrun value [] hv

/-- A value that is written in quotes, up to the end of the quotes. -/
theorem items_quoted_append (hv : '"' ∉ value) (t : Text) :
    items '=' (some { key := some key }) ('"' :: value ++ '"' :: t) =
      items '=' (some { key := some key, value }) t := by
  -- Inside of the quotes everything goes into the value.
  have hrun : ∀ s before : Text, '"' ∉ s →
      items '=' (some { quote := some '"', key := some key, value := before }) (s ++ '"' :: t) =
        items '=' (some { key := some key, value := before ++ s }) t := by
    intro s
    induction s with
    | nil => intro before _; simp [items, Pending.push]
    | cons c s ih =>
      intro before hs
      rw [List.mem_cons, not_or] at hs
      have hpush : Pending.push '=' { quote := some '"', key := some key, value := before } c =
          { quote := some '"', key := some key, value := before ++ [c] } := by
        simp [Pending.push, Ne.symm hs.1]
      rw [List.cons_append, items, if_neg (by simp), hpush, ih _ hs.2]
      simp
  have hpush : Pending.push '=' { key := some key } '"' =
      { quote := some '"', key := some key } := by
    simp [Pending.push, isQuote]
  have hblank : isBlank '"' = false := by decide
  rw [List.cons_append, items, if_neg (by simp [hblank]), hpush]
  exact hrun value [] hv

theorem items_quoted (hv : '"' ∉ value) :
    items '=' (some { key := some key }) ('"' :: value ++ ['"']) = some [⟨some key, value⟩] :=
  items_quoted_append hv []

end Attributes

/-! ## Settings

One attribute behind the name of a tag, however it is written. -/

/-- Whether a text is one named attribute, and can stand behind the name of a tag. -/
structure IsSetting (setting key value : Text) : Prop where
  parts : ∀ nested t, ({} : Markers).tagParts nested none (setting ++ '>' :: t) =
    setting.map .char ++ [.closing]
  quotes : ({} : Markers).quoteBehind? none setting = some none
  notMem : '<' ∉ setting ∧ '{' ∉ setting
  last : ∃ before c, setting = before ++ [c] ∧ isBlank c = false ∧ c ≠ '/'
  items : Attributes.items '=' .none setting = some [⟨some key, value⟩]

variable {key value : Text}

theorem tagParts_closing (nested : Bool) (t : Text) :
    ({} : Markers).tagParts nested none ('>' :: t) = [.closing] := by
  rw [Markers.tagParts, if_neg (by decide)]
  rfl

theorem isPlain_key (hk : isKey key = true) :
    ∀ c ∈ key ++ ['='], ({} : Markers).isPlain c = true := by
  intro c hc
  rcases List.mem_append.mp hc with hc | hc
  · exact isPlain_of_isKeyCharacter (isKeyCharacter_of_isKey hk c hc)
  · obtain rfl := List.mem_singleton.mp hc
    decide

theorem notMem_of_isPlain {s : Text} (hs : ∀ c ∈ s, ({} : Markers).isPlain c = true) :
    '<' ∉ s ∧ '{' ∉ s :=
  ⟨fun hm => absurd (hs _ hm) (by decide), fun hm => absurd (hs _ hm) (by decide)⟩

theorem quoteBehind?_of_isPlain {s : Text} (hs : ∀ c ∈ s, ({} : Markers).isPlain c = true) :
    ({} : Markers).quoteBehind? none s = some none := by
  refine Markers.quoteBehind?_plain fun c hc => ?_
  have hplain := hs c hc
  simp only [Markers.isPlain, Bool.and_eq_true, bne_iff_ne, Bool.not_eq_true'] at hplain
  exact ⟨hplain.1.1.2, hplain.2⟩

theorem Text.IsWord.isKeyCharacter (h : value.IsWord) : ∀ c ∈ value, isKeyCharacter c = true := by
  intro c hc
  simp [MarkupTemplate.isKeyCharacter, h.2 c hc]

theorem isSetting_plain (hk : isKey key = true) (hv : value.IsWord) :
    IsSetting (key ++ '=' :: value) key value := by
  have hplain : ∀ c ∈ key ++ '=' :: value, ({} : Markers).isPlain c = true := by
    intro c hc
    rw [List.append_cons] at hc
    rcases List.mem_append.mp hc with hc | hc
    · exact isPlain_key hk c hc
    · exact isPlain_of_isKeyCharacter (hv.isKeyCharacter c hc)
  refine ⟨fun nested t => ?_, quoteBehind?_of_isPlain hplain, notMem_of_isPlain hplain, ?_, ?_⟩
  · rw [Markers.tagParts_append _ (List.all_eq_true.mpr hplain), tagParts_closing]
  · have hlast := List.getLast_mem hv.1
    refine ⟨key ++ '=' :: value.dropLast, value.getLast hv.1, ?_, hv.isBlank _ hlast, ?_⟩
    · rw [List.append_assoc, List.cons_append, List.dropLast_concat_getLast]
    · exact ne_of_isKeyCharacter (hv.isKeyCharacter _ hlast) (by decide)
  · rw [Attributes.items_key hk]
    exact Attributes.items_plain fun c hc =>
      ⟨hv.isBlank c hc, isQuote_of_isKeyCharacter (hv.isKeyCharacter c hc)⟩

/-- In quotes there may be blanks and other characters. -/
theorem isSetting_quoted (hk : isKey key = true) (hquote : '"' ∉ value) (hbrace : '{' ∉ value)
    (htag : '<' ∉ value) : IsSetting (key ++ '=' :: ('"' :: value ++ ['"'])) key value := by
  have hsplit : key ++ '=' :: ('"' :: value ++ ['"']) =
      (key ++ ['=']) ++ ('"' :: value ++ ['"']) := by
    simp
  have hplain := isPlain_key hk
  -- The quotes are the last ink, and no closing mark.
  refine ⟨fun nested t => ?_, ?_, ?_, ⟨key ++ '=' :: '"' :: value, '"', ?_, ?_, ?_⟩, ?_⟩
  · rw [hsplit, List.append_assoc, Markers.tagParts_append _ (List.all_eq_true.mpr hplain),
      List.append_assoc, List.singleton_append,
      Markers.tagParts_quoted (by decide) (by decide) hquote hbrace, tagParts_closing]
    simp
  · rw [hsplit, Markers.quoteBehind?_append, quoteBehind?_of_isPlain hplain, Option.bind_some]
    exact Markers.quoteBehind?_quoted (by decide) hquote
  · obtain ⟨htag', hbrace'⟩ := notMem_of_isPlain hplain
    rw [hsplit]
    exact ⟨List.not_mem_append htag' (by simp [htag]),
      List.not_mem_append hbrace' (by simp [hbrace])⟩
  · simp
  · decide
  · decide
  · rw [Attributes.items_key hk]
    exact Attributes.items_quoted hquote

/-! ## Macro tags

A macro with one attribute, and with a body behind it. -/

/-- The text of a macro tag, between its markers. -/
def macroText (name setting : Text) : Text := ':' :: name ++ ' ' :: setting

/-- The macro tag that this is the text of. -/
def macroOf (name setting key value : Text) : Tag :=
  { name, raw := macroText name setting, attributes := .named [(key, value)], parental := true }

/-- The tag with a body. -/
def Tag.bodied (t : Tag) (body : Text) : Tag := { t with body := some body }

namespace IsSetting

variable {name setting : Text}

/-- The parts of such a tag are its characters. -/
theorem tagParts (h : IsSetting setting key value) (hname : name.IsWord) (nested : Bool)
    (t : Text) : ({} : Markers).tagParts nested none (macroText name setting ++ '>' :: t) =
      (macroText name setting).map .char ++ [.closing] := by
  have hplain : ∀ c ∈ ':' :: name ++ [' '], ({} : Markers).isPlain c = true := by
    intro c hc
    rcases List.mem_append.mp hc with hc | hc
    · rcases List.mem_cons.mp hc with rfl | hc
      · decide
      · exact isPlain_of_isKeyCharacter (hname.isKeyCharacter c hc)
    · obtain rfl := List.mem_singleton.mp hc
      decide
  have hsplit : macroText name setting = (':' :: name ++ [' ']) ++ setting := by
    simp [macroText]
  rw [hsplit, List.append_assoc, Markers.tagParts_append _ (List.all_eq_true.mpr hplain), h.parts]
  simp

/-- The text of the tag has no blanks around it. -/
theorem trim_macroText (h : IsSetting setting key value) :
    Text.trim (macroText name setting) = macroText name setting := by
  obtain ⟨before, c, rfl, hc, _⟩ := h.last
  have hsplit : macroText name (before ++ [c]) = (':' :: name ++ ' ' :: before) ++ [c] := by
    simp [macroText]
  have hcolon : isBlank ':' = false := by decide
  rw [hsplit, Text.trim_append hc _ (by simp), Text.trimLeft, List.cons_append,
    List.dropWhile_cons_of_neg (by simp [hcolon])]

/-- **A macro tag with one attribute is read as that.** -/
theorem parse (h : IsSetting setting key value) (hname : name.IsWord) :
    Tag.parse {} (macroText name setting) = .ok (macroOf name setting key value) := by
  -- The tag does not end in the closing mark.
  have hdrop : Text.dropLast? '/' (name ++ ' ' :: setting) = none := by
    cases hd : Text.dropLast? '/' (name ++ ' ' :: setting) with
    | none => rfl
    | some init =>
      obtain ⟨before, c, rfl, _, hc⟩ := h.last
      have heq := Text.dropLast?_eq_some_iff.mp hd
      rw [← List.cons_append, ← List.append_assoc] at heq
      exact absurd (List.singleton_inj.mp (List.append_inj_right' heq rfl)) hc
  have hcontent : Tag.content {} (macroText name setting) = (name ++ ' ' :: setting, false) := by
    have htrim : Text.trim (macroText name setting) = ':' :: (name ++ ' ' :: setting) :=
      h.trim_macroText
    rw [Tag.content_eq (m := {}) htrim]
    simp only [hdrop]
  have hcut : Tag.cutName (name ++ ' ' :: setting) = (name, ' ' :: setting) := by
    have hkeep : ∀ c ∈ name, (!isBlank c) = true := fun c hc => by simp [hname.isBlank c hc]
    have hblank : isBlank ' ' = true := by decide
    rw [Tag.cutName, List.takeWhile_append_of_pos hkeep, List.dropWhile_append_of_pos hkeep]
    simp [hblank]
  have hattributes : Attributes.parse name (' ' :: setting) '=' = .ok (.named [(key, value)]) := by
    have hitems : Attributes.items '=' .none (' ' :: setting) = some [⟨some key, value⟩] := by
      rw [Attributes.items, if_pos (by decide), h.items]
    simp [Attributes.parse, hitems, Attributes.valuesOf, Attributes.pairsOf]
  simp only [Tag.parse, hcontent, hcut, if_neg hname.1, hattributes]
  rfl

end IsSetting

end MarkupTemplate
