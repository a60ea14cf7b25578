import MarkupTemplate.Proofs.Body.Capture
import MarkupTemplate.Text.Letters

/-!
# Bodies as templates write them

`NestedBody` is how bodies look in templates: text, tags of the name that close themselves, and tags
of the name with such a body and a closing tag. Its tags have attributes in which a marker of the
end of a tag may stand inside of quotes. All of these texts are level (`NestedBody.level`), so the
closing tag that belongs to a body is the one behind it (`NestedBody.takeBody`).

This takes markers that are not letters, blanks or quotes and not each other, as the usual ones are.
Without it a name might be read as a marker. Tags of other names need no word here: they are text to
this pattern, unless a tag marker begins the name in question by chance, and then they count.
-/

set_option autoImplicit false

namespace MarkupTemplate

/-- Whether the markers of tags can be told from each other, and from what tags are made of. -/
structure Markers.Apart (m : Markers) : Prop where
  nodup : [m.tagOpening, m.tagClosing, m.closedMark, m.macroMark].Nodup
  plain : ∀ c ∈ [m.tagOpening, m.tagClosing, m.closedMark, m.macroMark],
    isQuote c = false ∧ isBlank c = false ∧ isAlphabetic c = false

theorem Markers.Apart.ne {m : Markers} (h : m.Apart) :
    m.tagOpening ≠ m.tagClosing ∧ m.tagOpening ≠ m.closedMark ∧ m.tagOpening ≠ m.macroMark ∧
      m.tagClosing ≠ m.closedMark ∧ m.tagClosing ≠ m.macroMark ∧ m.closedMark ≠ m.macroMark := by
  have := h.nodup
  simp only [List.nodup_cons, List.mem_cons, List.not_mem_nil, or_false, not_or] at this
  exact ⟨this.1.1, this.1.2.1, this.1.2.2, this.2.1.1, this.2.1.2, this.2.2.1⟩

/-- The usual markers can be told from each other. -/
theorem Markers.apart_standard : ({} : Markers).Apart := by
  refine ⟨by decide, ?_⟩
  simp only [List.forall_mem_cons, List.not_mem_nil, false_implies, implies_true, and_true]
  decide

namespace TagPattern

variable {p : TagPattern} {m : Markers}

/-- A tag without its closing mark, from a spelling of the name and attributes. -/
def openingTag (p : TagPattern) (m : Markers) (word attributes : Text) : Text :=
  m.tagOpening :: (p.sign m word ++ (attributes ++ [m.tagClosing]))

/-- A tag that closes itself. -/
def closedTag (p : TagPattern) (m : Markers) (word attributes blanks : Text) : Text :=
  p.openingTag m word (attributes ++ m.closedMark :: blanks)

/-- A closing tag. -/
def closingTag (p : TagPattern) (m : Markers) (word blanks : Text) : Text :=
  m.tagOpening :: m.closedMark :: (p.sign m word ++ (blanks ++ [m.tagClosing]))

/-- Whether a word is made of letters and taken for the name. -/
def SpellsInLetters (p : TagPattern) (word : Text) : Prop :=
  p.Spells word ∧ ∀ c ∈ word, isAlphabetic c = true

end TagPattern

/-- Whether a text can stand behind the name of a tag: apart from the name, with its quotes closed,
without an end of the tag outside of them and without the start of another tag. -/
structure Markers.AreAttributes (m : Markers) (t : Text) : Prop where
  apart : ∀ c ∈ t.head?, isBlank c = true
  quotes : m.quoteBehind? none t = some none
  noTag : m.tagOpening ∉ t

namespace TagPattern

/-- Text without tags, and tags of the name in it that close themselves or are closed. -/
inductive NestedBody (p : TagPattern) (m : Markers) : Text → Prop
  | text {s : Text} : m.tagOpening ∉ s → NestedBody p m s
  | append {s t : Text} : NestedBody p m s → NestedBody p m t → NestedBody p m (s ++ t)
  | closed {word attributes blanks : Text} :
      p.SpellsInLetters word → m.AreAttributes attributes → (∀ c ∈ blanks, isBlank c = true) →
        NestedBody p m (p.closedTag m word attributes blanks)
  | nested {word attributes body word' blanks : Text} :
      p.SpellsInLetters word → m.AreAttributes attributes →
        lastInk none attributes ≠ some m.closedMark → NestedBody p m body →
        p.SpellsInLetters word' → (∀ c ∈ blanks, isBlank c = true) →
        NestedBody p m (p.openingTag m word attributes ++ body ++ p.closingTag m word' blanks)

variable {p : TagPattern} {m : Markers} {word attributes blanks : Text}

/-! ## The parts of a tag

What the look-ahead makes of the sign, the name and the attributes, one after another. -/

theorem SpellsInLetters.notMem (h : p.SpellsInLetters word) {c : Char}
    (hc : isAlphabetic c = false) : c ∉ word := by
  intro hm
  rw [h.2 c hm] at hc
  exact absurd hc (by simp)

theorem notMem_of_isBlank (hb : ∀ c ∈ blanks, isBlank c = true) {c : Char}
    (hc : isBlank c = false) : c ∉ blanks := by
  intro hm
  rw [hb c hm] at hc
  exact absurd hc (by simp)

/-- The sign of a macro and its name begin no tag. -/
theorem notMem_sign (hm : m.Apart) (h : p.SpellsInLetters word) :
    m.tagOpening ∉ p.sign m word := by
  have hw : m.tagOpening ∉ word := h.notMem (hm.plain _ (by simp)).2.2
  unfold sign
  split
  · rw [List.mem_cons, not_or]
    exact ⟨hm.ne.2.2.1, hw⟩
  · exact hw

/-- A name is not taken for the start of a closing tag. -/
theorem afterClosing?_sign (hm : m.Apart) (hn : p.name ≠ []) (h : p.SpellsInLetters word)
    (t : Text) : p.afterClosing? m (p.sign m word ++ t) = none := by
  unfold sign
  -- The first character is the macro mark or a letter, and neither is the closing mark.
  split
  · exact afterClosing?_eq_none _ hm.ne.2.2.2.2.2.symm
  · cases word with
    | nil =>
      cases hname : p.name with
      | nil => exact absurd hname hn
      | cons c name =>
        have := h.1
        simp [Spells, hname, afterLetters?] at this
    | cons c word =>
      refine afterClosing?_eq_none _ fun heq => ?_
      have := (hm.plain m.closedMark (by simp)).2.2
      rw [← heq, h.2 c List.mem_cons_self] at this
      exact absurd this (by simp)

theorem head_endsName (ha : m.AreAttributes attributes) {t : Text}
    (ht : t.head?.any (endsName m) = true) :
    (attributes ++ t).head?.any (endsName m) = true := by
  cases attributes with
  | nil => exact ht
  | cons c attributes =>
    have : isBlank c = true := ha.apart c rfl
    simp [endsName, this]

/-- Whether a tag opens a body shows in the last thing in it. -/
theorem opensBody_sign (hm : m.Apart) (hw : p.SpellsInLetters word) {s : Text}
    (hs : (s ++ [m.tagClosing]).head?.any (endsName m) = true)
    (hq : m.quoteBehind? none s = some none) (t : Text) :
    p.opensBody m (p.sign m word ++ (s ++ [m.tagClosing]) ++ t) =
      !(lastInk none s == some m.closedMark) := by
  have hopen := hw.1.opening? (hm.plain m.tagClosing (by simp)).1 t hs hq
  rw [opensBody, List.append_assoc, List.append_assoc, List.singleton_append, hopen]

/-- The mark of a tag that closes itself, with blanks behind it, leaves all quotes closed. -/
theorem quoteBehind?_closed (hm : m.Apart) (ha : m.AreAttributes attributes)
    (hb : ∀ c ∈ blanks, isBlank c = true) :
    m.quoteBehind? none (attributes ++ m.closedMark :: blanks) = some none := by
  rw [Markers.quoteBehind?_append, ha.quotes, Option.bind_some]
  refine Markers.quoteBehind?_plain (List.forall_mem_cons.mpr ⟨?_, fun c hc => ?_⟩)
  · exact ⟨(hm.plain _ (by simp)).1, hm.ne.2.2.2.1.symm⟩
  · refine ⟨isQuote_of_isBlank (hb c hc), ?_⟩
    rintro rfl
    exact absurd (hb _ hc) (by simp [(hm.plain m.tagClosing (by simp)).2.1])

/-- The last thing in a tag that closes itself is the closing mark. -/
theorem lastInk_closed (hm : m.Apart) (hb : ∀ c ∈ blanks, isBlank c = true) :
    lastInk none (attributes ++ m.closedMark :: blanks) = some m.closedMark := by
  have hmark : isBlank m.closedMark = false := (hm.plain _ (by simp)).2.1
  rw [lastInk_append, lastInk_cons, hmark, lastInk_blank _ hb]
  rfl

/-! ## Level bodies

By induction on how the body is written. The two kinds of tags are the steps, and texts next to each
other were dealt with for all level texts. -/

theorem notMem_openingTag (hm : m.Apart) (hw : p.SpellsInLetters word) {s : Text}
    (hs : m.tagOpening ∉ s) : m.tagOpening ∉ p.sign m word ++ (s ++ [m.tagClosing]) := by
  simp only [List.mem_append, List.mem_singleton, not_or]
  exact ⟨notMem_sign hm hw, hs, hm.ne.1⟩

theorem level_closedTag (hm : m.Apart) (hn : p.name ≠ []) (hw : p.SpellsInLetters word)
    (ha : m.AreAttributes attributes) (hb : ∀ c ∈ blanks, isBlank c = true) :
    p.Level m (p.closedTag m word attributes blanks) := by
  have hs : m.tagOpening ∉ attributes ++ m.closedMark :: blanks := by
    simp only [List.mem_append, List.mem_cons, not_or]
    exact ⟨ha.noTag, hm.ne.2.1, notMem_of_isBlank hb (hm.plain _ (by simp)).2.1⟩
  -- It is no closing tag, as the name follows its opening at once, and its closing mark keeps it
  -- from opening anything.
  refine level_of_not_opensBody (notMem_openingTag hm hw hs) (fun t => ?_) (fun t => ?_)
  · rw [List.append_assoc]
    exact afterClosing?_sign hm hn hw _
  · have hhead : (attributes ++ m.closedMark :: blanks ++ [m.tagClosing]).head?.any
        (endsName m) = true := by
      rw [List.append_assoc]
      exact head_endsName ha (by simp [endsName])
    rw [opensBody_sign hm hw hhead (quoteBehind?_closed hm ha hb), lastInk_closed hm hb]
    simp

/-- A closing tag is recognised, with blanks in it, and what stands behind it is left. -/
theorem afterClosing?_closingTag (hm : m.Apart) (hw : p.SpellsInLetters word)
    (hb : ∀ c ∈ blanks, isBlank c = true) (t : Text) :
    p.afterClosing? m (m.closedMark :: (p.sign m word ++ (blanks ++ [m.tagClosing])) ++ t) =
      some t := by
  have := hw.1.afterClosing? hb (hm.plain m.tagClosing (by simp)).2.1 t
  simpa only [List.cons_append, List.append_assoc, List.singleton_append, List.nil_append]
    using this

/-- **A body as templates write it is level.** -/
theorem NestedBody.level (hm : m.Apart) (hn : p.name ≠ []) {body : Text}
    (h : p.NestedBody m body) : p.Level m body := by
  induction h with
  | text hs => exact level_of_notMem hs
  | append _ _ ihs iht => exact ihs.append iht
  | closed hw ha hb => exact level_closedTag hm hn hw ha hb
  | nested hw ha hlast _ hw' hb ih =>
    refine ih.nested (notMem_openingTag hm hw ha.noTag) ?_ (fun t => ?_) (fun t => ?_) (fun t => ?_)
    · rw [List.mem_cons, not_or]
      exact ⟨hm.ne.2.1, notMem_openingTag hm hw' (notMem_of_isBlank hb (hm.plain _ (by simp)).2.1)⟩
    · rw [List.append_assoc]
      exact afterClosing?_sign hm hn hw _
    · rw [opensBody_sign hm hw (head_endsName ha (by simp [endsName])) ha.quotes]
      simpa using hlast
    · exact afterClosing?_closingTag hm hw' hb t

/-- **The body in front of a closing tag is what is captured.** -/
theorem NestedBody.takeBody (hm : m.Apart) (hn : p.name ≠ []) {body : Text}
    (h : p.NestedBody m body) (hw : p.SpellsInLetters word) (hb : ∀ c ∈ blanks, isBlank c = true)
    (t : Text) : p.takeBody m 0 (body ++ p.closingTag m word blanks ++ t) = some (body, t) := by
  rw [List.append_assoc, h.level hm hn, closingTag, List.cons_append,
    takeBody_end (afterClosing?_closingTag hm hw hb t)]
  simp

end TagPattern

end MarkupTemplate
