import MarkupTemplate.Equation.Operator
import MarkupTemplate.Text.Nested

/-!
# The tokens of an equation

An equation is cut into values, single-character operators and groups in parentheses, which carry
the tokens of the equation inside. Quotes keep what is between them as it is, also next to other
characters of a value; a placeholder is kept whole, whatever is inside. Blanks belong to a value
only between its unquoted characters.

An equation that cannot be cut up to its end has its fault as its last token, so that what precedes
it is still known.
-/

set_option autoImplicit false

namespace MarkupTemplate

/-- What an equation may refer to: the operators, and the markers that enclose a placeholder. -/
structure EquationFormat where
  operators : OperatorTable
  argumentOpening : Char := '{'
  argumentClosing : Char := '}'
deriving Inhabited

/-- A part of an equation. -/
inductive EquationToken where
  /-- A value as it is written, without the blanks at its ends. -/
  | word (t : Text)
  /-- A value with quotes in it. -/
  | quoted (t : Text)
  | operator (op : Operator)
  /-- The equation in a pair of parentheses. -/
  | group (equation : Text) (tokens : List EquationToken)
  /-- What keeps the rest from being cut up. -/
  | fault (f : Fault)

namespace EquationToken

/-! ## What is taken in one piece

A group and a placeholder are each cut out as a whole. That what is cut out is shorter than what it
is cut from is what lets `tokensAfter` recurse on it. -/

/-- The text up to the parenthesis that closes a group, and what follows it. `depth` counts the
parentheses open inside the group; inside quotes none counts. Placeholders mean nothing here: a
parenthesis in one counts like any other. -/
def takeGroup : Nat → Option Char → Text → Option (Text × Text)
  | _, _, [] => none
  | depth, some q, c :: rest =>
    (takeGroup depth (if c = q then none else some q) rest).map fun p => (c :: p.1, p.2)
  | depth, none, c :: rest =>
    if isQuote c then (takeGroup depth (some c) rest).map fun p => (c :: p.1, p.2)
    else if c = '(' then (takeGroup (depth + 1) none rest).map fun p => (c :: p.1, p.2)
    else if c = ')' then
      match depth with
      | 0 => some ([], rest)
      | depth + 1 => (takeGroup depth none rest).map fun p => (c :: p.1, p.2)
    else (takeGroup depth none rest).map fun p => (c :: p.1, p.2)

/-- A placeholder after its opening marker, up to the closing marker that belongs to it, and what
follows; all of the text if it is not closed, which is no fault here and will be one when the value
is resolved. -/
def takePlaceholder (opening closing : Char) (t : Text) : Text × Text :=
  match Text.takeNested opening closing 0 t with
  | (inner, some rest) => (inner ++ [closing], rest)
  | (inner, none) => (inner, [])

/-- A character that stays inside a group goes in front of what is found behind it. -/
theorem cons_eq_of_found {c : Char} {t inner rest : Text} {found : Option (Text × Text)}
    (ih : ∀ {inner : Text}, found = some (inner, rest) → t = inner ++ ')' :: rest)
    (h : (found.map fun p => (c :: p.1, p.2)) = some (inner, rest)) :
    c :: t = inner ++ ')' :: rest := by
  obtain ⟨p, rfl, heq⟩ := Option.map_eq_some_iff.mp h
  obtain ⟨rfl, rfl⟩ := Prod.mk.inj heq
  rw [ih rfl, List.cons_append]

theorem eq_of_takeGroup {depth : Nat} {quote : Option Char} {t inner rest : Text}
    (h : takeGroup depth quote t = some (inner, rest)) : t = inner ++ ')' :: rest := by
  -- Only the parenthesis of the group itself ends the search, and every other character stays.
  fun_induction takeGroup depth quote t generalizing inner with
  | case1 => simp at h
  | case2 _ _ _ _ ih => exact cons_eq_of_found ih h
  | case3 _ _ _ _ ih => exact cons_eq_of_found ih h
  | case4 _ _ _ ih => exact cons_eq_of_found ih h
  | case5 =>
    obtain ⟨rfl, rfl⟩ := Prod.mk.inj (Option.some.inj h)
    rfl
  | case6 _ _ _ _ ih => exact cons_eq_of_found ih h
  | case7 _ _ _ _ _ _ ih => exact cons_eq_of_found ih h

theorem takePlaceholder_append (opening closing : Char) (t : Text) :
    (takePlaceholder opening closing t).1 ++ (takePlaceholder opening closing t).2 = t := by
  unfold takePlaceholder
  split
  · next h => simp [Text.eq_of_takeNested h]
  · next h => simp [Text.eq_of_takeNested_none h]

/-! ## Cutting

One pass from left to right with the value under way as the state. Whatever ends a value settles it
by `ofValue`. -/

/-- The value token of collected characters; nothing for blanks without quotes. A pair of quotes
with nothing in it is a value, the empty one. -/
def ofValue (value : Text) (hasQuotes : Bool) : List EquationToken :=
  if hasQuotes then [quoted value]
  else if Text.trim value = [] then []
  else [word (Text.trim value)]

/-- The tokens of the rest of an equation, after the characters of a value under way. Blanks are
kept once a value has begun, unless it has quotes: then they are dropped, also between unquoted
characters. The whole equation comes along for the messages. -/
def tokensAfter (f : EquationFormat) (equation value : Text) (hasQuotes : Bool) :
    Text → List EquationToken
  | [] => ofValue value hasQuotes
  | c :: t =>
    if isQuote c then
      match _h : Text.splitFirst? c t with
      | some (inner, rest) => tokensAfter f equation (value ++ inner) true rest
      | none => [.fault (.malformedEquation equation "unclosed quote".toList)]
    else if c = '(' then
      match _h : takeGroup 0 none t with
      | some (inner, rest) =>
        ofValue value hasQuotes ++ group inner (tokensAfter f inner [] false inner) ::
          tokensAfter f equation [] false rest
      | none => ofValue value hasQuotes ++ [.fault (.unbalancedParenthesis equation)]
    else if c = ')' then [.fault (.unbalancedParenthesis equation)]
    else if c = f.argumentOpening then
      match _h : takePlaceholder f.argumentOpening f.argumentClosing t with
      | (inner, rest) => tokensAfter f equation (value ++ c :: inner) hasQuotes rest
    else
      match f.operators.ofChar? c with
      | some op =>
        ofValue value hasQuotes ++ operator op :: tokensAfter f equation [] false t
      | none =>
        let kept := !isBlank c || (!value.isEmpty && !hasQuotes)
        tokensAfter f equation (if kept then value ++ [c] else value) hasQuotes t
termination_by t => t.length
decreasing_by
  all_goals simp only [List.length_cons]
  · have := congrArg List.length (Text.eq_of_splitFirst? _h).1
    simp only [List.length_append, List.length_cons] at this
    omega
  · have := congrArg List.length (eq_of_takeGroup _h)
    simp only [List.length_append, List.length_cons] at this
    omega
  · have := congrArg List.length (eq_of_takeGroup _h)
    simp only [List.length_append, List.length_cons] at this
    omega
  · have := congrArg List.length (takePlaceholder_append f.argumentOpening f.argumentClosing t)
    rw [_h] at this
    simp only [List.length_append] at this
    omega
  all_goals omega

/-- The tokens of an equation. -/
def tokens (f : EquationFormat) (equation : Text) : List EquationToken :=
  tokensAfter f equation [] false equation

end EquationToken

end MarkupTemplate
