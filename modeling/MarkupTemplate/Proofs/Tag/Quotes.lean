import MarkupTemplate.Proofs.Tag.Opening
import MarkupTemplate.Tag.Attributes

/-!
# Quotes of attributes

Attributes are read with the same walk over quotes as tags are (`Attributes.foldl_nextQuote`). The
walk never forgets: from two different quotes it cannot come to the same one
(`foldl_nextQuote_inj`). So if the attributes of a tag, read alone, have all their quotes closed,
and the tag has too, then no quote was open where the attributes begin.

This is needed because a tag is cut in two readings. Its end is found with the quotes of the whole
tag, its name and mark among them; its attributes are read from the text behind the name, as if no
quote could be open there.
-/

set_option autoImplicit false

namespace MarkupTemplate

/-- Whether a state of the walk is one that the walk can be in: no quote, or a character that is
one. -/
def IsOpenQuote (quote : Option Char) : Prop := ∀ c ∈ quote, isQuote c = true

theorem IsOpenQuote.nextQuote {quote : Option Char} (h : IsOpenQuote quote) (c : Char) :
    IsOpenQuote (nextQuote quote c) := by
  intro d hd
  cases quote with
  | some q =>
    by_cases hc : c = q
    · simp [MarkupTemplate.nextQuote, hc] at hd
    · simp only [MarkupTemplate.nextQuote, if_neg hc, Option.mem_def, Option.some.injEq] at hd
      exact hd ▸ h q rfl
  | none =>
    cases hc : isQuote c with
    | true =>
      simp only [MarkupTemplate.nextQuote, hc, if_true, Option.mem_def, Option.some.injEq] at hd
      exact hd ▸ hc
    | false => simp [MarkupTemplate.nextQuote, hc] at hd

theorem IsOpenQuote.foldl {quote : Option Char} (h : IsOpenQuote quote) (t : Text) :
    IsOpenQuote (t.foldl MarkupTemplate.nextQuote quote) := by
  induction t generalizing quote with
  | nil => exact h
  | cons c t ih => exact ih (h.nextQuote c)

theorem isOpenQuote_none : IsOpenQuote none := by
  intro c hc
  exact absurd hc (by simp)

/-- A character that closes a quote opens one elsewhere, and no other does away with a quote. -/
theorem nextQuote_none_ne {q c : Char} (hq : isQuote q = true) :
    nextQuote none c ≠ nextQuote (some q) c := by
  intro heq
  by_cases hc : c = q
  · subst hc
    simp [nextQuote, hq] at heq
  · cases hcq : isQuote c with
    | true =>
      simp only [nextQuote, hcq, if_true, if_neg hc, Option.some.injEq] at heq
      exact hc heq
    | false => simp [nextQuote, hcq, if_neg hc] at heq

/-- From two states that the walk can be in, no character leads to the same one. -/
theorem nextQuote_inj {quote quote' : Option Char} (h : IsOpenQuote quote)
    (h' : IsOpenQuote quote') {c : Char} (heq : nextQuote quote c = nextQuote quote' c) :
    quote = quote' := by
  cases quote with
  | none =>
    cases quote' with
    | none => rfl
    | some q' => exact absurd heq (nextQuote_none_ne (h' q' rfl))
  | some q =>
    cases quote' with
    | none => exact absurd heq.symm (nextQuote_none_ne (h q rfl))
    | some q' =>
      -- A character closes one of two different quotes at most.
      by_cases hc : c = q
      · by_cases hc' : c = q'
        · rw [← hc, ← hc']
        · simp [nextQuote, if_pos hc, if_neg hc'] at heq
      · by_cases hc' : c = q'
        · simp [nextQuote, if_neg hc, if_pos hc'] at heq
        · simpa [nextQuote, if_neg hc, if_neg hc'] using heq

/-- Nor does a text, which is one character after another. -/
theorem foldl_nextQuote_inj {quote quote' : Option Char} (h : IsOpenQuote quote)
    (h' : IsOpenQuote quote') {t : Text}
    (heq : t.foldl nextQuote quote = t.foldl nextQuote quote') : quote = quote' := by
  induction t generalizing quote quote' with
  | nil => exact heq
  | cons c t ih => exact nextQuote_inj h h' (ih (h.nextQuote c) (h'.nextQuote c) heq)

theorem foldl_nextQuote_plain {quote : Option Char} (h : IsOpenQuote quote) {t : Text}
    (ht : ∀ c ∈ t, isQuote c = false) : t.foldl nextQuote quote = quote := by
  induction t with
  | nil => rfl
  | cons c t ih =>
    obtain ⟨hc, ht⟩ := List.forall_mem_cons.mp ht
    have hstep : nextQuote quote c = quote := by
      cases quote with
      | none => simp [nextQuote, hc]
      | some q =>
        -- The open quote is itself a quote, so a plain character does not close it.
        have hne : c ≠ q := by
          intro heq
          rw [heq, h q rfl] at hc
          exact absurd hc (by simp)
        simp [nextQuote, hne]
    rw [List.foldl_cons, hstep, ih ht]

/-- Where the tag has not ended, the walk of the look-ahead is the walk over quotes. -/
theorem Markers.eq_of_quoteBehind? {m : Markers} {quote quote' : Option Char} {t : Text}
    (h : m.quoteBehind? quote t = some quote') : quote' = t.foldl nextQuote quote := by
  induction t generalizing quote with
  | nil => exact (Option.some.inj h).symm
  | cons c t ih =>
    rw [quoteBehind?] at h
    split at h
    · exact absurd h (by simp)
    · exact ih h

theorem Attributes.Pending.quote_push (separator : Char) (p : Pending) (c : Char) :
    (p.push separator c).quote = nextQuote p.quote c := by
  unfold push
  cases hq : p.quote with
  | some q =>
    by_cases hc : c = q
    · simp [nextQuote, hc]
    · simp [nextQuote, hc]
  | none =>
    cases hc : isQuote c with
    | true => simp [nextQuote, hc]
    | false =>
      simp only [nextQuote, hc, Bool.false_eq_true, if_false]
      split <;> simp

theorem Attributes.foldl_nextQuote {separator : Char} {p : Option Pending} {t : Text}
    {read : List Item} (h : items separator p t = some read) :
    t.foldl nextQuote (p.bind Pending.quote) = Option.none := by
  fun_induction items separator p t generalizing read with
  | case1 => rfl
  | case2 p hq => exact absurd h (by simp)
  | case3 p hq => simpa using hq
  | case4 c rest hc ih =>
    have hstep : nextQuote (Option.none.bind Pending.quote) c = Option.none := by
      simp [nextQuote, isQuote_of_isBlank hc]
    rw [List.foldl_cons, hstep]
    exact ih h
  | case5 c rest hc ih =>
    have := ih h
    rw [Option.bind_some, Pending.quote_push] at this
    exact this
  | case6 p c rest hc ih =>
    -- A blank outside of quotes ends an item.
    obtain ⟨read', hread', _⟩ := Option.map_eq_some_iff.mp h
    have hstep : nextQuote ((some p).bind Pending.quote) c = Option.none := by
      have hp : p.quote = Option.none := by simpa using hc.1
      simp [nextQuote, hp, isQuote_of_isBlank hc.2]
    rw [List.foldl_cons, hstep]
    exact ih hread'
  | case7 p c rest hc ih =>
    have := ih h
    rw [Option.bind_some, Pending.quote_push] at this
    exact this

end MarkupTemplate
