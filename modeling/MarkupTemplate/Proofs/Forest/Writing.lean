import MarkupTemplate.Proofs.Engine.Turn
import MarkupTemplate.Proofs.Forest.Nesting
import MarkupTemplate.Proofs.Tag.Items

/-!
# Written tags

How the tags of a document of elements are written, under the usual markers: the attributes behind
the name, each with its value in double quotes. A value may hold any characters but a double quote
and a brace that opens a placeholder; a `>` or a `/` in it does not end the tag.

What is written is read back: the tag ends where it was ended (`tagParts_raw`), it is told from a
closing tag and from a macro (`tagText_raw`), and it has the name, the attributes and the closing
mark that it was given (`parse_raw`).
-/

set_option autoImplicit false

namespace MarkupTemplate

/-! ## Attributes -/

/-- Whether an attribute can be written as `key="value"`. -/
def IsWritable (pair : Text × Text) : Prop :=
  isKey pair.1 = true ∧ '"' ∉ pair.2 ∧ '{' ∉ pair.2

instance (pair : Text × Text) : Decidable (IsWritable pair) :=
  inferInstanceAs (Decidable (_ ∧ _ ∧ _))

/-- Attributes as they are written behind the name of a tag. -/
def settings : List (Text × Text) → Text
  | [] => []
  | (key, value) :: pairs => ' ' :: (key ++ '=' :: ('"' :: value ++ '"' :: settings pairs))

section

variable {pairs : List (Text × Text)} (h : ∀ pair ∈ pairs, IsWritable pair)

include h

theorem tagParts_settings (nested : Bool) (t : Text) :
    ({} : Markers).tagParts nested none (settings pairs ++ t) =
      (settings pairs).map .char ++ ({} : Markers).tagParts nested none t := by
  induction pairs with
  | nil => rfl
  | cons pair pairs ih =>
    obtain ⟨key, value⟩ := pair
    obtain ⟨⟨hkey, hquote, hbrace⟩, hpairs⟩ := List.forall_mem_cons.mp h
    -- A key and its sign are plain, and the value stands in quotes; neither ends the tag.
    have hplain : ∀ c ∈ ' ' :: (key ++ ['=']), ({} : Markers).isPlain c = true :=
      List.forall_mem_cons.mpr ⟨by decide, isPlain_key hkey⟩
    have hsplit : settings ((key, value) :: pairs) ++ t =
        ' ' :: (key ++ ['=']) ++ ('"' :: value ++ '"' :: (settings pairs ++ t)) := by
      simp [settings]
    rw [hsplit, Markers.tagParts_append _ (List.all_eq_true.mpr hplain),
      Markers.tagParts_quoted (by decide) (by decide) hquote hbrace, ih hpairs]
    simp [settings]

/-- Each attribute is read as an item with its name. -/
theorem items_settings : Attributes.items '=' .none (settings pairs) =
    some (pairs.map fun pair => ⟨some pair.1, pair.2⟩) := by
  induction pairs with
  | nil => rfl
  | cons pair pairs ih =>
    obtain ⟨key, value⟩ := pair
    obtain ⟨⟨hkey, hquote, hbrace⟩, hpairs⟩ := List.forall_mem_cons.mp h
    have hblank : isBlank ' ' = true := by decide
    rw [settings, Attributes.items, if_pos hblank, Attributes.items_key hkey,
      Attributes.items_quoted_append hquote]
    -- The item ends at the blank of the next attribute or at the end of the text.
    cases pairs with
    | nil => rfl
    | cons pair pairs =>
      have hmore := ih hpairs
      rw [settings, Attributes.items, if_pos hblank] at hmore
      rw [settings, Attributes.items, if_pos ⟨rfl, hblank⟩, hmore]
      rfl

theorem parse_settings (name : Text) :
    Attributes.parse name (settings pairs) '=' = .ok (.ofPairs pairs) :=
  Attributes.parse_pairs (items_settings h)

end

/-! ## Tags -/

namespace TagToken

/-- The text of a tag between its markers. -/
def raw : TagToken → Text
  | tag name pairs closed => name ++ settings pairs ++ (if closed then ['/'] else [])
  | closing name => '/' :: name

/-- The tag with its markers. -/
def text (t : TagToken) : Text := '<' :: (t.raw ++ ['>'])

/-- Whether a tag can be written: its name is a word, and so can its attributes. -/
def IsWritten : TagToken → Prop
  | tag name pairs _ => name.IsWord ∧ ∀ pair ∈ pairs, IsWritable pair
  | closing name => name.IsWord

instance : (t : TagToken) → Decidable t.IsWritten
  | tag name pairs _ => inferInstanceAs (Decidable (name.IsWord ∧ ∀ pair ∈ pairs, IsWritable pair))
  | closing name => inferInstanceAs (Decidable name.IsWord)

/-- The tag that is read from a written one. -/
def read (name : Text) (pairs : List (Text × Text)) (closed : Bool) : Tag :=
  { name, raw := (tag name pairs closed).raw, attributes := .ofPairs pairs, closed
    parental := !closed }

end TagToken

section

variable {name : Text}

theorem isPlain_name (hname : name.IsWord) : ∀ c ∈ name, ({} : Markers).isPlain c = true :=
  fun c hc => isPlain_of_isKeyCharacter (hname.isKeyCharacter c hc)

theorem tagParts_raw {t : TagToken} (h : t.IsWritten) (nested : Bool) (rest : Text) :
    ({} : Markers).tagParts nested none (t.raw ++ '>' :: rest) = t.raw.map .char ++ [.closing] := by
  have hslash : ∀ c ∈ ['/'], ({} : Markers).isPlain c = true := by
    intro c hc
    rw [List.mem_singleton.mp hc]
    decide
  cases t with
  | closing name =>
    have hplain : ∀ c ∈ '/' :: name, ({} : Markers).isPlain c = true :=
      List.forall_mem_cons.mpr ⟨by decide, isPlain_name h⟩
    rw [TagToken.raw, Markers.tagParts_append _ (List.all_eq_true.mpr hplain), tagParts_closing]
  | tag name pairs closed =>
    obtain ⟨hname, hpairs⟩ := h
    have hend : ∀ mark : Text, (∀ c ∈ mark, ({} : Markers).isPlain c = true) →
        ({} : Markers).tagParts nested none (name ++ settings pairs ++ mark ++ '>' :: rest) =
          (name ++ settings pairs ++ mark).map .char ++ [.closing] := by
      intro mark hmark
      rw [List.append_assoc, List.append_assoc,
        Markers.tagParts_append _ (List.all_eq_true.mpr (isPlain_name hname)),
        tagParts_settings hpairs, Markers.tagParts_append _ (List.all_eq_true.mpr hmark),
        tagParts_closing]
      simp
    cases closed with
    | true => exact hend _ hslash
    | false => exact hend [] (by simp)

/-- A text without blanks at its ends is left alone. -/
theorem trim_of_ends {before : Text} {c : Char} (hfirst : ∀ d ∈ before.head?, isBlank d = false)
    (hlast : isBlank c = false) : Text.trim (before ++ [c]) = before ++ [c] := by
  rw [Text.trim_append hlast before (by simp)]
  cases before with
  | nil => rfl
  | cons d before =>
    have hd : isBlank d = false := hfirst d rfl
    rw [Text.trimLeft, List.dropWhile_cons_of_neg (by simp [hd])]

theorem exists_settings (pair : Text × Text) (pairs : List (Text × Text)) :
    ∃ before, settings (pair :: pairs) = before ++ ['"'] := by
  induction pairs generalizing pair with
  | nil => exact ⟨' ' :: (pair.1 ++ '=' :: '"' :: pair.2), by simp [settings]⟩
  | cons next pairs ih =>
    obtain ⟨before, hbefore⟩ := ih next
    refine ⟨' ' :: (pair.1 ++ '=' :: ('"' :: pair.2 ++ '"' :: before)), ?_⟩
    rw [settings, hbefore]
    simp

/-- A name with its attributes does not end in a blank, nor in the mark of a tag that closes
itself. -/
theorem exists_last (hname : name.IsWord) (pairs : List (Text × Text)) :
    ∃ before c, name ++ settings pairs = before ++ [c] ∧ isBlank c = false ∧ c ≠ '/' := by
  cases pairs with
  | nil =>
    have hmem := List.getLast_mem hname.1
    refine ⟨name.dropLast, name.getLast hname.1, ?_, hname.isBlank _ hmem, ?_⟩
    · rw [settings, List.append_nil, List.dropLast_concat_getLast]
    · exact ne_of_isAlphanumeric (hname.2 _ hmem) (by decide)
  | cons pair pairs =>
    obtain ⟨before, hbefore⟩ := exists_settings pair pairs
    refine ⟨name ++ before, '"', ?_, by decide, by decide⟩
    rw [hbefore, List.append_assoc]

/-- What begins with a name begins with a letter of it. -/
theorem mem_of_head? (hname : name.IsWord) {t : Text} {c : Char} (hc : c ∈ (name ++ t).head?) :
    c ∈ name := by
  cases hcons : name with
  | nil => exact absurd hcons hname.1
  | cons d name =>
    rw [hcons] at hc
    obtain rfl : d = c := Option.some.inj hc
    exact List.mem_cons_self

theorem trim_raw (hname : name.IsWord) (pairs : List (Text × Text)) (closed : Bool) :
    Text.trim (TagToken.tag name pairs closed).raw = (TagToken.tag name pairs closed).raw := by
  have hfirst : ∀ t, ∀ c ∈ (name ++ t).head?, isBlank c = false :=
    fun t c hc => hname.isBlank c (mem_of_head? hname hc)
  cases closed with
  | true => exact trim_of_ends (hfirst _) (by decide)
  | false =>
    obtain ⟨before, c, hlast, hc, _⟩ := exists_last hname pairs
    have hraw : (TagToken.tag name pairs false).raw = before ++ [c] := by
      rw [← hlast]
      exact List.append_nil _
    rw [hraw]
    refine trim_of_ends (fun d hd => ?_) hc
    refine hfirst (settings pairs) d ?_
    rw [hlast, List.head?_append, hd]
    rfl

/-- A tag is not taken for a macro, and the mark at its end is noticed. -/
theorem content_raw (hname : name.IsWord) (pairs : List (Text × Text)) (closed : Bool) :
    Tag.content {} (TagToken.tag name pairs closed).raw = (name ++ settings pairs, closed) := by
  obtain ⟨before, c, hlast, hc, hslash⟩ := exists_last hname pairs
  -- The first character is one of the name, which has no macro mark in it.
  have hfirst : Text.dropFirst? ':' (TagToken.tag name pairs closed).raw = none := by
    cases hd : Text.dropFirst? ':' (TagToken.tag name pairs closed).raw with
    | none => rfl
    | some rest =>
      have hhead : ':' ∈ (name ++ (settings pairs ++ if closed then ['/'] else [])).head? := by
        rw [← List.append_assoc]
        show ':' ∈ (TagToken.tag name pairs closed).raw.head?
        rw [Text.dropFirst?_eq_some_iff.mp hd]
        rfl
      exact absurd (mem_of_head? hname hhead) (hname.notMem (by decide))
  cases closed with
  | true =>
    have hdrop : Text.dropLast? '/' (TagToken.tag name pairs true).raw =
        some (name ++ settings pairs) := Text.dropLast?_eq_some_iff.mpr rfl
    have htrim : Text.trimRight (name ++ settings pairs) = name ++ settings pairs := by
      rw [hlast]
      exact Text.trimRight_append hc before (by simp)
    simp only [Tag.content, trim_raw hname, hfirst, Option.getD_none, hdrop, htrim]
  | false =>
    have hraw : (TagToken.tag name pairs false).raw = name ++ settings pairs := List.append_nil _
    have hdrop : Text.dropLast? '/' (TagToken.tag name pairs false).raw = none := by
      cases hd : Text.dropLast? '/' (TagToken.tag name pairs false).raw with
      | none => rfl
      | some rest =>
        have hend := Text.dropLast?_eq_some_iff.mp hd
        rw [hraw, hlast] at hend
        exact absurd (List.singleton_inj.mp (List.append_inj_right' hend rfl)) hslash
    rw [← hraw]
    simp only [Tag.content, trim_raw hname, hfirst, Option.getD_none, hdrop]

theorem cutName_settings (hname : name.IsWord) (pairs : List (Text × Text)) :
    Tag.cutName (name ++ settings pairs) = (name, settings pairs) := by
  have hkeep : ∀ c ∈ name, (!isBlank c) = true := fun c hc => by simp [hname.isBlank c hc]
  have hblank : isBlank ' ' = true := by decide
  rw [Tag.cutName, List.takeWhile_append_of_pos hkeep, List.dropWhile_append_of_pos hkeep]
  cases pairs with
  | nil => simp [settings]
  | cons pair pairs => simp [settings, hblank]

/-- **A written tag is read back.** -/
theorem parse_raw {pairs : List (Text × Text)} {closed : Bool}
    (h : (TagToken.tag name pairs closed).IsWritten) :
    Tag.parse {} (TagToken.tag name pairs closed).raw =
      .ok (TagToken.read name pairs closed) := by
  obtain ⟨hname, hpairs⟩ := h
  simp only [Tag.parse, content_raw hname, cutName_settings hname, if_neg hname.1,
    parse_settings hpairs]
  rfl

/-- What the tag is about is told by its first character. -/
theorem tagText_raw {pairs : List (Text × Text)} {closed : Bool} (hname : name.IsWord) :
    ({} : Markers).tagText (TagToken.tag name pairs closed).raw =
      .regular (TagToken.tag name pairs closed).raw := by
  have hhead : ∀ c ∈ (TagToken.tag name pairs closed).raw.head?, c ∈ name := by
    intro c hc
    rw [TagToken.raw, List.append_assoc] at hc
    exact mem_of_head? hname hc
  -- The two marks that stand for other kinds of tags are looked for at the start, where the name
  -- is.
  have hslash : '/' ∉ name := hname.notMem (by decide)
  have hcolon : ':' ∉ name := hname.notMem (by decide)
  rw [Markers.tagText, trim_raw hname]
  cases hraw : (TagToken.tag name pairs closed).raw with
  | nil => exact absurd (List.append_eq_nil_iff.mp (List.append_eq_nil_iff.mp hraw).1).1 hname.1
  | cons c rest =>
    rw [hraw] at hhead
    have hc : c ∈ name := hhead c rfl
    have hne : c ≠ '/' := fun heq => hslash (heq ▸ hc)
    have hne' : c ≠ ':' := fun heq => hcolon (heq ▸ hc)
    simp [Text.dropFirst?, hne, hne']

theorem tagText_closing (hname : name.IsWord) :
    ({} : Markers).tagText (TagToken.closing name).raw = .closing name := by
  have htrim : Text.trim ('/' :: name) = '/' :: name := by
    obtain ⟨before, c, hlast, hc, _⟩ := exists_last hname []
    rw [settings, List.append_nil] at hlast
    rw [hlast, ← List.cons_append]
    refine trim_of_ends (fun d hd => ?_) hc
    obtain rfl : '/' = d := Option.some.inj hd
    decide
  rw [TagToken.raw, Markers.tagText, htrim]
  simp [Text.dropFirst?, hname.trim_eq]

theorem head?_raw_ne {t : TagToken} (h : t.IsWritten) (rest : Text) :
    (t.raw ++ rest).head? ≠ some '!' := by
  cases t with
  | closing name => simp [TagToken.raw]
  | tag name pairs closed =>
    intro hmark
    rw [TagToken.raw, List.append_assoc, List.append_assoc] at hmark
    exact h.1.notMem (by decide) (mem_of_head? h.1 hmark)

end

end MarkupTemplate
