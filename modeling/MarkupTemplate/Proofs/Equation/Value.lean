import MarkupTemplate.Equation.Evaluation
import MarkupTemplate.Proofs.Text.Words

/-!
# Values in an equation

A text without quotes, parentheses, placeholders and operators is a single value, and an equation
that is nothing else comes down to it.

That is the case that all settings of macros come to in the end, and the leaf of every equation that
is put together from others. Blanks inside of a value belong to it; at its ends there are none.
-/

set_option autoImplicit false

namespace MarkupTemplate

namespace EquationFormat

variable {f : EquationFormat}

/-- Whether a character, where no quotes are open, only belongs to a value. -/
structure IsPlain (f : EquationFormat) (c : Char) : Prop where
  quote : isQuote c = false
  opening : c ≠ '('
  closing : c ≠ ')'
  placeholder : c ≠ f.argumentOpening
  operator : f.operators.ofChar? c = none

/-- Whether a text is a single value: plain characters without blanks at the ends. -/
structure IsValue (f : EquationFormat) (t : Text) : Prop where
  ne_nil : t ≠ []
  trim_eq : Text.trim t = t
  plain : ∀ c ∈ t, f.IsPlain c

/-- A letter or a digit is plain if it is no marker and no operator. -/
theorem isPlain_of_isAlphanumeric {c : Char} (hf : isAlphanumeric f.argumentOpening = false)
    (hop : f.operators.ofChar? c = none) (hc : isAlphanumeric c = true) : f.IsPlain c where
  quote := isQuote_of_isAlphanumeric hc
  opening := ne_of_isAlphanumeric hc (by decide)
  closing := ne_of_isAlphanumeric hc (by decide)
  placeholder := ne_of_isAlphanumeric hc hf
  operator := hop

/-- A word is a value, if no letter of it is an operator. -/
theorem isValue_of_isWord {t : Text} (hf : isAlphanumeric f.argumentOpening = false)
    (hop : ∀ c ∈ t, f.operators.ofChar? c = none) (ht : t.IsWord) : f.IsValue t where
  ne_nil := ht.1
  trim_eq := ht.trim_eq
  plain c hc := isPlain_of_isAlphanumeric hf (hop c hc) (ht.2 c hc)

theorem IsValue.isBlank_head {c : Char} {t : Text} (h : f.IsValue (c :: t)) :
    isBlank c = false := by
  cases hblank : isBlank c with
  | false => rfl
  | true =>
    have hleft : Text.trimLeft (c :: t) = t.dropWhile isBlank := List.dropWhile_cons_of_pos hblank
    have hdrop := (List.dropWhile_sublist (l := t) isBlank).length_le
    have hright := (List.dropWhile_sublist (l := (t.dropWhile isBlank).reverse) isBlank).length_le
    have hlen := congrArg List.length h.trim_eq
    unfold Text.trim Text.trimRight at hlen
    rw [hleft, List.length_reverse, List.length_cons] at hlen
    rw [List.length_reverse] at hright
    omega

end EquationFormat

namespace EquationToken

variable {f : EquationFormat}

/-- Plain characters are collected; `value` is what has been collected before. -/
theorem tokensAfter_plain {equation t : Text} (ht : ∀ c ∈ t, f.IsPlain c) (value rest : Text)
    (hvalue : value = [] → ∀ c ∈ t.head?, isBlank c = false) :
    tokensAfter f equation value false (t ++ rest) =
      tokensAfter f equation (value ++ t) false rest := by
  induction t generalizing value with
  | nil => rw [List.nil_append, List.append_nil]
  | cons c t ih =>
    obtain ⟨hc, ht⟩ := List.forall_mem_cons.mp ht
    have hkept : (!isBlank c || (!value.isEmpty && !false)) = true := by
      by_cases hempty : value = []
      · simp [hvalue hempty c rfl]
      · simp [hempty]
    have hquote := hc.quote
    rw [List.cons_append, tokensAfter, if_neg (by simp [hquote]), if_neg hc.opening,
      if_neg hc.closing, if_neg hc.placeholder, hc.operator]
    simp only [hkept, if_true]
    rw [ih ht _ (by simp), List.append_assoc, List.singleton_append]

theorem ofValue_of_isValue {t : Text} (ht : f.IsValue t) : ofValue t false = [word t] := by
  unfold ofValue
  rw [ht.trim_eq, if_neg (by simp), if_neg ht.ne_nil]

theorem tokensAfter_value {equation t : Text} (ht : f.IsValue t) (rest : Text) :
    tokensAfter f equation [] false (t ++ rest) = tokensAfter f equation t false rest := by
  refine tokensAfter_plain ht.plain [] rest fun _ c hc => ?_
  cases t with
  | nil => exact absurd rfl ht.ne_nil
  | cons d t =>
    obtain rfl := Option.some.inj hc
    exact ht.isBlank_head

theorem tokens_of_isValue {t : Text} (ht : f.IsValue t) : tokens f t = [word t] := by
  have htokens : tokensAfter f t [] false (t ++ []) = tokensAfter f t t false [] :=
    tokensAfter_value ht []
  rw [List.append_nil] at htokens
  rw [tokens, htokens, tokensAfter, ofValue_of_isValue ht]

end EquationToken

/-- An equation that is a single value comes down to it. -/
theorem EquationElement.settle_operand (t : OperatorTable) (equation : Text) (o : Operand) :
    settle t equation [.operand o] = .ok o := by
  have hmerge : merge t [] [.operand o] = [.operand o] := rfl
  have hclassify : classify equation false [.operand o] = .ok [.operand o] := rfl
  have hreduce : reduce equation [.operand o] = .ok o := by
    rw [reduce]
  rw [settle, hmerge, hclassify]
  exact hreduce

end MarkupTemplate
