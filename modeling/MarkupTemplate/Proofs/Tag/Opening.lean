import MarkupTemplate.Tag.Pattern

/-!
# Looking ahead over a tag

`TagPattern.endOfTag?` looks for the marker that ends a tag. On the way to it only two things count:
whether the place is inside quotes, and the last character that was not blank. Both are walked over
a text from its start, so they come apart at every cut (`quoteBehind?_append`, `lastInk_append`),
and so does the look-ahead itself (`endOfTag?_append`).

The rest of the module is about the start of a tag. The letters of a name may be spelled in any way
that the pattern takes for the name; `Spells` is what counts as its spelling.

Placeholders and comments mean nothing to the look-ahead, and they mean nothing here either: a text
is a row of characters, and the first marker outside of quotes ends the tag.
-/

set_option autoImplicit false

namespace MarkupTemplate

theorem isBlank_of_isQuote {c : Char} (h : isQuote c = true) : isBlank c = false := by
  simp only [isQuote, Bool.or_eq_true, beq_iff_eq] at h
  rcases h with rfl | rfl <;> decide

theorem isQuote_of_isBlank {c : Char} (h : isBlank c = true) : isQuote c = false := by
  cases hq : isQuote c with
  | false => rfl
  | true => exact absurd h (by simp [isBlank_of_isQuote hq])

/-! ## Quotes

The two walks, and what they make of a text that is cut in two. -/

/-- The quote that is open behind a character, given the one in front of it. -/
def nextQuote : Option Char → Char → Option Char
  | some q, c => if c = q then none else some q
  | none, c => if isQuote c then some c else none

/-- The quote that is open behind a text, if the text does not end a tag outside of quotes. -/
def Markers.quoteBehind? (m : Markers) : Option Char → Text → Option (Option Char)
  | quote, [] => some quote
  | quote, c :: t =>
    if quote = none ∧ isQuote c = false ∧ c = m.tagClosing then none
    else quoteBehind? m (nextQuote quote c) t

/-- The last character of a text that is not blank, or the one in front of it. -/
def lastInk (last : Option Char) (t : Text) : Option Char :=
  t.foldl (fun last c => if isBlank c then last else some c) last

/-- The walk goes on behind a cut with the quote that is open there, unless the tag has ended. -/
theorem Markers.quoteBehind?_append (m : Markers) (quote : Option Char) (s t : Text) :
    m.quoteBehind? quote (s ++ t) = (m.quoteBehind? quote s).bind (m.quoteBehind? · t) := by
  induction s generalizing quote with
  | nil => rfl
  | cons c s ih =>
    simp only [List.cons_append, quoteBehind?]
    split
    · rfl
    · exact ih _

theorem lastInk_append (last : Option Char) (s t : Text) :
    lastInk last (s ++ t) = lastInk (lastInk last s) t :=
  List.foldl_append

theorem lastInk_cons (last : Option Char) (c : Char) (t : Text) :
    lastInk last (c :: t) = lastInk (if isBlank c then last else some c) t :=
  List.foldl_cons ..

theorem lastInk_blank (last : Option Char) {t : Text} (h : ∀ c ∈ t, isBlank c = true) :
    lastInk last t = last := by
  induction t with
  | nil => rfl
  | cons c t ih =>
    obtain ⟨hc, ht⟩ := List.forall_mem_cons.mp h
    rw [lastInk_cons, if_pos hc, ih ht]

/-- A text with a character that is not blank has its last one, whatever stands in front. -/
theorem lastInk_of_none {last : Option Char} {t : Text} {c : Char} (h : lastInk none t = some c) :
    lastInk last t = some c := by
  induction t generalizing last with
  | nil => exact absurd h (by simp [lastInk])
  | cons d t ih =>
    rw [lastInk_cons] at h ⊢
    cases hd : isBlank d with
    | true =>
      rw [hd] at h
      exact ih h
    | false =>
      rw [hd] at h
      exact h

/-- Text without quotes and without the marker that ends a tag stays outside of quotes. -/
theorem Markers.quoteBehind?_plain {m : Markers} {t : Text}
    (h : ∀ c ∈ t, isQuote c = false ∧ c ≠ m.tagClosing) : m.quoteBehind? none t = some none := by
  induction t with
  | nil => rfl
  | cons c t ih =>
    obtain ⟨hc, ht⟩ := List.forall_mem_cons.mp h
    have hq : nextQuote none c = none := by simp [nextQuote, hc.1]
    rw [quoteBehind?, if_neg (fun hc' => hc.2 hc'.2.2), hq, ih ht]

namespace TagPattern

/-! ## The end of a tag

With the quotes closed, the first marker behind a text is the end. -/

/-- The look-ahead goes on behind a text with what the walks over it give. -/
theorem endOfTag?_append {m : Markers} {quote quote' : Option Char} (last : Option Char)
    {s : Text} (t : Text) (h : m.quoteBehind? quote s = some quote') :
    endOfTag? m quote last (s ++ t) = endOfTag? m quote' (lastInk last s) t := by
  induction s generalizing quote last with
  | nil =>
    obtain rfl := Option.some.inj h
    rfl
  | cons c s ih =>
    rw [Markers.quoteBehind?] at h
    split at h
    · exact absurd h (by simp)
    · next hc =>
      cases quote with
      | some q => exact ih _ h
      | none =>
        -- Outside of quotes a quote opens one and is no blank, and the marker would end the tag.
        cases hq : isQuote c with
        | true =>
          simp only [List.cons_append, endOfTag?, hq, if_true]
          have hb : isBlank c = false := isBlank_of_isQuote hq
          have := ih (some c) h
          simpa [nextQuote, hq, lastInk_cons, hb] using this
        | false =>
          have hclose : c ≠ m.tagClosing := fun heq => hc ⟨rfl, hq, heq⟩
          have := ih (if isBlank c then last else some c) h
          simpa [endOfTag?, nextQuote, hq, hclose, lastInk_cons] using this

theorem endOfTag?_closing {m : Markers} (h : isQuote m.tagClosing = false) (last : Option Char)
    (t : Text) : endOfTag? m none last (m.tagClosing :: t) =
      some (last == some m.closedMark, t) := by
  simp [endOfTag?, h]

/-- Where the look-ahead for the end of a tag ends. -/
theorem endOfTag?_eq_some {m : Markers} (hm : isQuote m.tagClosing = false) (last : Option Char)
    {s : Text} (t : Text) (h : m.quoteBehind? none s = some none) :
    endOfTag? m none last (s ++ m.tagClosing :: t) =
      some (lastInk last s == some m.closedMark, t) := by
  rw [endOfTag?_append last _ h, endOfTag?_closing hm]

/-! ## Names

A pattern takes words for its name that differ from it in case, if it is lenient. -/

/-- Whether the pattern takes a word for its name. -/
def Spells (p : TagPattern) (word : Text) : Prop := afterLetters? p.strict p.name word = some []

/-- A name as a tag has it, with its macro mark. -/
def sign (p : TagPattern) (m : Markers) (word : Text) : Text :=
  if p.isMacro then m.macroMark :: word else word

theorem sameLetter_self (strict : Bool) (c : Char) : sameLetter strict c c = true := by
  cases strict <;> simp [sameLetter]

theorem spells_name (p : TagPattern) : p.Spells p.name := by
  unfold Spells
  induction p.name with
  | nil => rfl
  | cons c name ih => rw [afterLetters?, if_pos (sameLetter_self _ c), ih]

/-- What is behind the letters of a name is left as it is. -/
theorem afterLetters?_append {strict : Bool} {name word : Text}
    (h : afterLetters? strict name word = some []) (t : Text) :
    afterLetters? strict name (word ++ t) = some t := by
  induction name generalizing word with
  | nil =>
    obtain rfl : word = [] := Option.some.inj h
    rfl
  | cons c name ih =>
    cases word with
    | nil => exact absurd h (by simp [afterLetters?])
    | cons d word =>
      rw [afterLetters?] at h
      split at h
      · next hd => rw [List.cons_append, afterLetters?, if_pos hd, ih h]
      · exact absurd h (by simp)

variable {p : TagPattern} {m : Markers} {word : Text}

theorem Spells.afterName? (h : p.Spells word) (t : Text) :
    p.afterName? m (p.sign m word ++ t) = some t := by
  unfold TagPattern.afterName? sign
  split
  · rw [List.cons_append, Text.dropFirst?_eq_some_iff.mpr rfl]
    exact afterLetters?_append h t
  · exact afterLetters?_append h t

/-- The look-ahead over an opening tag, given its text up to the marker that ends it. -/
theorem Spells.opening? (h : p.Spells word) (hm : isQuote m.tagClosing = false) {s : Text}
    (t : Text) (hs : (s ++ [m.tagClosing]).head?.any (endsName m) = true)
    (hq : m.quoteBehind? none s = some none) :
    p.opening? m (p.sign m word ++ (s ++ m.tagClosing :: t)) =
      some (lastInk none s == some m.closedMark, t) := by
  have hhead : (s ++ m.tagClosing :: t).head?.any (endsName m) = true := by
    cases s with
    | nil => exact hs
    | cons c s => exact hs
  rw [TagPattern.opening?, h.afterName?]
  simp only [hhead, if_true]
  exact endOfTag?_eq_some hm none t hq

/-- The look-ahead over a closing tag, which may have blanks behind its name. -/
theorem Spells.afterClosing? (h : p.Spells word) {blanks : Text}
    (hb : ∀ c ∈ blanks, isBlank c = true) (hm : isBlank m.tagClosing = false) (t : Text) :
    p.afterClosing? m (m.closedMark :: p.sign m word ++ (blanks ++ m.tagClosing :: t)) =
      some t := by
  rw [TagPattern.afterClosing?, List.cons_append, Text.dropFirst?_eq_some_iff.mpr rfl,
    Option.bind_some, h.afterName?]
  have htrim : Text.trimLeft (blanks ++ m.tagClosing :: t) = m.tagClosing :: t := by
    rw [Text.trimLeft, List.dropWhile_append_of_pos hb, List.dropWhile_cons_of_neg (by simp [hm])]
  simp only [htrim]
  exact Text.dropFirst?_eq_some_iff.mpr rfl

theorem afterClosing?_eq_none {c : Char} (t : Text) (h : c ≠ m.closedMark) :
    p.afterClosing? m (c :: t) = none := by
  simp [TagPattern.afterClosing?, Text.dropFirst?, h]

end TagPattern

end MarkupTemplate
