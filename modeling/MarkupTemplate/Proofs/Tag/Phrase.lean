import MarkupTemplate.Builtin.Branching
import MarkupTemplate.Proofs.Control.Shape
import MarkupTemplate.Proofs.Equation.Equality
import MarkupTemplate.Proofs.Tag.Items

/-!
# Conditions in tags

A condition may be written among the attributes of a tag. They are cut apart at blanks, lose their
quotes, and are put together again with single spaces. A **phrase**, words with single spaces
between them, survives that, and so does an equation between two phrases, however many blanks are
around them (`exists_conditionTag`).

What does not survive is left out by `isItemCharacter`: quotes would be dropped, a separator might
end a key, and a closing mark at the end would close the tag. None of these is wrong in a condition
by itself; but a condition with them need not come back as it was written.
-/

set_option autoImplicit false

namespace MarkupTemplate

/-! ## Phrases

Words with single spaces between them are what putting words together gives. -/

namespace Text

/-- Whether a text is made of words of certain characters, with a single space between each two. -/
def IsPhrase (p : Char → Bool) (t : Text) : Prop :=
  ∃ words, words ≠ [] ∧ (∀ w ∈ words, w ≠ [] ∧ ∀ c ∈ w, p c = true) ∧ joinWith [' '] words = t

variable {p q : Char → Bool} {t : Text}

theorem IsPhrase.imp (h : t.IsPhrase p) (hpq : ∀ c, p c = true → q c = true) : t.IsPhrase q := by
  obtain ⟨words, hne, hwords, ht⟩ := h
  exact ⟨words, hne, fun w hw => ⟨(hwords w hw).1, fun c hc => hpq c ((hwords w hw).2 c hc)⟩, ht⟩

theorem isPhrase_of_all (hne : t ≠ []) (h : t.all p = true) : t.IsPhrase p := by
  refine ⟨[t], List.cons_ne_nil t [], fun w hw => ?_, rfl⟩
  rw [List.mem_singleton.mp hw]
  exact ⟨hne, List.all_eq_true.mp h⟩

/-- The characters of a phrase are spaces and those of its words. -/
theorem IsPhrase.eq_or (h : t.IsPhrase p) : ∀ c ∈ t, c = ' ' ∨ p c = true := by
  obtain ⟨words, _, hwords, rfl⟩ := h
  intro c hc
  rcases mem_joinWith hc with hc | ⟨w, hw, hc⟩
  · exact Or.inl (List.mem_singleton.mp hc)
  · exact Or.inr ((hwords w hw).2 c hc)

theorem IsPhrase.ne_nil (h : t.IsPhrase p) : t ≠ [] := by
  obtain ⟨words, hne, hwords, rfl⟩ := h
  cases words with
  | nil => exact absurd rfl hne
  | cons w words =>
    have hw := (hwords w List.mem_cons_self).1
    by_cases hwords : words = []
    · rw [hwords]
      exact hw
    · rw [joinWith_cons [' '] w hwords]
      simp

/-- What is left of a text without the blanks at its end begins with blanks of it. -/
theorem exists_trimRight_eq (t : Text) : ∃ lead, trimRight t = lead ++ trim t ∧
    ∀ c ∈ lead, isBlank c = true := by
  rcases blank_or_exists t with ht | ⟨s, c, blanks, rfl, hc, hb⟩
  · obtain ⟨tail, heq, _⟩ := exists_trimRight t
    refine ⟨trimRight t, by rw [trim_eq_nil ht, List.append_nil], fun c hc => ht c ?_⟩
    rw [heq]
    exact List.mem_append_left _ hc
  · rw [trimRight_append hc s hb, trim_append hc s hb]
    refine ⟨s.takeWhile isBlank, ?_, fun c hc => List.all_eq_true.mp List.all_takeWhile c hc⟩
    rw [trimLeft, ← List.append_assoc, List.takeWhile_append_dropWhile]

theorem isBlank_of_mem_head? {blanks : Text} (hne : blanks ≠ [])
    (hb : ∀ c ∈ blanks, isBlank c = true) (t : Text) :
    ∀ c ∈ (blanks ++ t).head?, isBlank c = true := by
  cases blanks with
  | nil => exact absurd rfl hne
  | cons d blanks =>
    intro c hc
    obtain rfl := Option.some.inj hc
    exact hb _ List.mem_cons_self

end Text

/-! ## Attributes

Each word is an attribute without a key. -/

namespace Attributes

/-- Whether a text, with a blank behind it, is an attribute without a key. -/
def IsItem (w : Text) : Prop :=
  ∀ t, items '=' .none (w ++ t) = items '=' (some { value := w }) t

/-- Whether a character only belongs to the attribute that it stands in, and cannot close the
tag. -/
def isItemCharacter (c : Char) : Bool := !isBlank c && !isQuote c && c != '=' && c != '/'

theorem push_itemCharacter {p : Pending} {c : Char} (hp : p.quote = .none)
    (hc : isItemCharacter c = true) : p.push '=' c = { p with value := p.value ++ [c] } := by
  simp only [isItemCharacter, Bool.and_eq_true, Bool.not_eq_true', bne_iff_ne] at hc
  simp [Pending.push, hp, hc.1.1.2, hc.1.2]

theorem isBlank_of_isItemCharacter {c : Char} (hc : isItemCharacter c = true) :
    isBlank c = false := by
  simp only [isItemCharacter, Bool.and_eq_true, Bool.not_eq_true'] at hc
  exact hc.1.1.1

/-- The value under way takes these characters one after another. -/
theorem items_itemCharacters {s : Text} (hs : ∀ c ∈ s, isItemCharacter c = true)
    (before t : Text) : items '=' (some { value := before }) (s ++ t) =
      items '=' (some { value := before ++ s }) t := by
  induction s generalizing before with
  | nil => simp
  | cons c s ih =>
    obtain ⟨hc, hs⟩ := List.forall_mem_cons.mp hs
    rw [List.cons_append, items, if_neg (by simp [isBlank_of_isItemCharacter hc]),
      push_itemCharacter rfl hc, ih hs]
    simp

theorem isItem_of_characters {w : Text} (hne : w ≠ [])
    (hw : ∀ c ∈ w, isItemCharacter c = true) : IsItem w := by
  intro t
  cases w with
  | nil => exact absurd rfl hne
  | cons c s =>
    obtain ⟨hc, hs⟩ := List.forall_mem_cons.mp hw
    have hfirst : Pending.push '=' {} c = { value := [c] } := push_itemCharacter rfl hc
    rw [List.cons_append, items, if_neg (by simp [isBlank_of_isItemCharacter hc]), hfirst,
      items_itemCharacters hs [c]]
    rfl

/-- A separator without a key in front is part of the value. -/
theorem isItem_equals : IsItem "==".toList := by
  intro t
  have hblank : isBlank '=' = false := by decide
  have hfirst : Pending.push '=' {} '=' = { value := ['='] } := by
    simp [Pending.push, isQuote, isKey]
  -- The second sign would end a key, but a sign is no key.
  have hsecond : Pending.push '=' { value := ['='] } '=' = { value := ['=', '='] } := by
    have hkey : isKey ['='] = false := by decide
    simp [Pending.push, isQuote, hkey]
  have hsplit : "==".toList ++ t = '=' :: '=' :: t := rfl
  rw [hsplit, items, if_neg (by simp [hblank]), hfirst, items, if_neg (by simp [hblank]), hsecond]
  rfl

theorem items_blanks {blanks : Text} (hb : ∀ c ∈ blanks, isBlank c = true) (t : Text) :
    items '=' .none (blanks ++ t) = items '=' .none t := by
  induction blanks with
  | nil => rfl
  | cons c blanks ih =>
    obtain ⟨hc, hb⟩ := List.forall_mem_cons.mp hb
    rw [List.cons_append, items, if_pos hc, ih hb]

/-- An attribute without a key is read up to the blank behind it. -/
theorem items_item {w t : Text} (hw : IsItem w) (ht : ∀ c ∈ t.head?, isBlank c = true) :
    items '=' .none (w ++ t) = (items '=' .none t).map (⟨.none, w⟩ :: ·) := by
  rw [hw]
  cases t with
  | nil => rfl
  | cons c t =>
    have hc : isBlank c = true := ht c rfl
    have hend : (({ value := w } : Pending).quote.isNone = true ∧ isBlank c = true) := ⟨rfl, hc⟩
    rw [items, if_pos hc, items, if_pos hend]
    rfl

/-- Words with single spaces between them are attributes without keys. -/
theorem items_joinWith {words : List Text} (hne : words ≠ []) (hw : ∀ w ∈ words, IsItem w)
    {t : Text} (ht : ∀ c ∈ t.head?, isBlank c = true) :
    items '=' .none (Text.joinWith [' '] words ++ t) =
      (items '=' .none t).map (words.map (fun w => (⟨.none, w⟩ : Item)) ++ ·) := by
  induction words with
  | nil => exact absurd rfl hne
  | cons w words ih =>
    obtain ⟨hw, hwords⟩ := List.forall_mem_cons.mp hw
    -- Behind each word but the last one there is a space.
    by_cases hrest : words = []
    · rw [hrest]
      exact items_item hw ht
    · have hspace : ∀ c ∈ (' ' :: (Text.joinWith [' '] words ++ t)).head?, isBlank c = true :=
        Text.isBlank_of_mem_head? (List.cons_ne_nil ' ' [])
          (List.forall_mem_singleton.mpr (by decide)) _
      rw [Text.joinWith_cons [' '] w hrest, List.append_assoc, List.append_assoc,
        List.singleton_append, items_item hw hspace]
      have hblank : isBlank ' ' = true := by decide
      rw [items, if_pos hblank, ih hrest hwords]
      cases items '=' .none t <;> rfl

theorem items_words {blanks t : Text} {words : List Text} (hb : ∀ c ∈ blanks, isBlank c = true)
    (hne : words ≠ []) (hw : ∀ w ∈ words, IsItem w) (ht : ∀ c ∈ t.head?, isBlank c = true) :
    items '=' .none (blanks ++ (Text.joinWith [' '] words ++ t)) =
      (items '=' .none t).map (words.map (fun w => (⟨.none, w⟩ : Item)) ++ ·) := by
  rw [items_blanks hb, items_joinWith hne hw ht]

end Attributes

/-! ## Conditions

The condition that a text is equal to another one, as the attributes of a conditional. -/

/-- The text of a conditional with the condition that two values are equal. -/
def conditionText (s t : Text) : Text := ":if ".toList ++ equating s t

section

variable {s t : Text} (hs : (Text.trim s).IsPhrase Attributes.isItemCharacter)
  (ht : (Text.trim t).IsPhrase Attributes.isItemCharacter)

include ht

theorem isBlankText_of_isPhrase : Text.isBlankText t = false := by
  cases hblank : Text.isBlankText t with
  | false => rfl
  | true => exact absurd (Text.trim_eq_nil_iff.mpr hblank) ht.ne_nil

/-- Of the blanks around the two texts only those at the very end are lost at first. -/
theorem trim_conditionText :
    Text.trim (conditionText s t) = ":if ".toList ++ (s ++ " == ".toList) ++ Text.trimRight t := by
  have hcolon : isBlank ':' = false := by decide
  have hsplit : conditionText s t = ':' :: ("if ".toList ++ (s ++ " == ".toList)) ++ t := by
    simp [conditionText, equating]
  rw [hsplit, Text.trim_append_of_ink hcolon _ (isBlankText_of_isPhrase ht)]
  rfl

/-- A phrase does not end in the mark of a tag that closes itself. -/
theorem dropLast?_of_isPhrase (before : Text) :
    Text.dropLast? '/' (before ++ Text.trimRight t) = none := by
  obtain ⟨lead, hlead, _⟩ := Text.exists_trimRight_eq t
  cases hdrop : Text.dropLast? '/' (before ++ Text.trimRight t) with
  | none => rfl
  | some init =>
    have hend := Text.dropLast?_eq_some_iff.mp hdrop
    have hlast := congrArg List.getLast? hend
    rw [hlead, ← List.append_assoc, List.getLast?_append, List.getLast?_concat,
      List.getLast?_eq_some_getLast ht.ne_nil, Option.some_or, Option.some.injEq] at hlast
    have hmem : '/' ∈ Text.trim t := hlast ▸ List.getLast_mem ht.ne_nil
    rcases ht.eq_or _ hmem with hspace | hslash
    · exact absurd hspace (by decide)
    · exact absurd hslash (by decide)

include hs

/-- The words of both phrases are attributes, and so is the sign between them. -/
theorem items_condition : ∃ words : List Text, words ≠ [] ∧
    Attributes.items '=' .none (' ' :: (s ++ " == ".toList) ++ Text.trimRight t) =
      some (words.map fun w => (⟨.none, w⟩ : Attributes.Item)) ∧
    Text.joinWith [' '] words = equating (Text.trim s) (Text.trim t) := by
  obtain ⟨lead, tail, hsplit, hlead, htail⟩ := Text.exists_trim s
  obtain ⟨lead', hsplit', hlead'⟩ := Text.exists_trimRight_eq t
  obtain ⟨words, hne, hwords, hjoin⟩ := hs
  obtain ⟨words', hne', hwords', hjoin'⟩ := ht
  have hitems := fun w hw => Attributes.isItem_of_characters (hwords w hw).1 (hwords w hw).2
  have hitems' := fun w hw => Attributes.isItem_of_characters (hwords' w hw).1 (hwords' w hw).2
  have hspace : isBlank ' ' = true := by decide
  have hblanks : ∀ c ∈ ' ' :: lead, isBlank c = true := List.forall_mem_cons.mpr ⟨hspace, hlead⟩
  have hblanks' : ∀ c ∈ ' ' :: lead', isBlank c = true := List.forall_mem_cons.mpr ⟨hspace, hlead'⟩
  have hbehind : ∀ c ∈ tail ++ [' '], isBlank c = true :=
    List.forall_mem_append.mpr ⟨htail, List.forall_mem_singleton.mpr hspace⟩
  -- Three rows of words, each with the blanks in front of it.
  have hwhole : ' ' :: (s ++ " == ".toList) ++ Text.trimRight t =
      (' ' :: lead) ++ (Text.joinWith [' '] words ++ ((tail ++ [' ']) ++
        (Text.joinWith [' '] ["==".toList] ++ ((' ' :: lead') ++
          (Text.joinWith [' '] words' ++ []))))) := by
    rw [hsplit', hjoin, hjoin', List.append_nil, Text.joinWith]
    conv => lhs; rw [hsplit]
    simp
  refine ⟨words ++ "==".toList :: words', by simp [hne], ?_, ?_⟩
  · rw [hwhole, Attributes.items_words hblanks hne hitems
        (Text.isBlank_of_mem_head? (by simp) hbehind _),
      Attributes.items_words hbehind (List.cons_ne_nil _ _)
        (List.forall_mem_singleton.mpr Attributes.isItem_equals)
        (Text.isBlank_of_mem_head? (by simp) hblanks' _),
      Attributes.items_words hblanks' hne' hitems' (by simp)]
    simp [Attributes.items]
  · rw [Text.joinWith_append _ hne (by simp), Text.joinWith_cons _ _ hne', hjoin, hjoin']
    simp [equating]

/-- **The condition that two phrases are equal is read as it was written**, without the blanks
around the phrases. -/
theorem exists_conditionTag : ∃ tag : Tag,
    Tag.parse {} (Text.trim (conditionText s t)) = .ok tag ∧ tag.name = "if".toList ∧
      tag.closed = false ∧ conditionOf tag = equating (Text.trim s) (Text.trim t) := by
  obtain ⟨words, hne, hitems, hjoin⟩ := items_condition hs ht
  obtain ⟨w, words, rfl⟩ := List.exists_cons_of_ne_nil hne
  -- The tag has no closing mark to lose, and its name ends at the first blank.
  have hcontent : Tag.content {} (Text.trim (conditionText s t)) =
      ("if ".toList ++ (s ++ " == ".toList) ++ Text.trimRight t, false) := by
    have htext : Text.trim (Text.trim (conditionText s t)) =
        ':' :: ("if ".toList ++ (s ++ " == ".toList) ++ Text.trimRight t) := by
      rw [Text.trim_trim, trim_conditionText ht]
      rfl
    rw [Tag.content_eq (m := {}) htext, dropLast?_of_isPhrase ht]
  have hname : Tag.cutName ("if ".toList ++ (s ++ " == ".toList) ++ Text.trimRight t) =
      ("if".toList, ' ' :: (s ++ " == ".toList) ++ Text.trimRight t) := by
    have hletters : isBlank 'i' = false ∧ isBlank 'f' = false ∧ isBlank ' ' = true := by decide
    simp [Tag.cutName, hletters]
  let tag : Tag :=
    { name := "if".toList, raw := Text.trim (conditionText s t)
      attributes := .positional (w :: words), parental := true }
  refine ⟨tag, ?_, rfl, rfl, ?_⟩
  · simp only [Tag.parse, hcontent, hname]
    rw [if_neg (by decide), Attributes.parse_values hitems]
    rfl
  · exact hjoin

end

end MarkupTemplate
