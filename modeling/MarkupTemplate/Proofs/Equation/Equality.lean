import MarkupTemplate.Proofs.Engine.Run
import MarkupTemplate.Proofs.Equation.Printed
import MarkupTemplate.Proofs.Tag.Content
import MarkupTemplate.Proofs.Text.Nested

/-!
# Testing two values for equality

An equation that says that two values are equal comes down to a truth value, whatever the values are
looked up as (`evaluate_equating`). Texts are compared as truth values, as integers or as floats
where both spell one, and letter by letter otherwise. So the blanks at their ends only count where
texts spell nothing (`isEqual_trim_iff`).

What is needed of the two sides is that each is taken for one value wherever it stands, and that is
all that is asked (`Collected`). A word and a placeholder are such texts, for different reasons, and
the equation between them is cut up once for both.
-/

set_option autoImplicit false

namespace MarkupTemplate

/-! ## The operator

The rules of the operator are tried one after another. What comes of that is written as one
function, with the reading that was tried last innermost. -/

/-- The operator that tests for equality. -/
def Operator.equals : Operator := equality "==" true (· == ·)

theorem Operator.equals_mem : equals ∈ standard := by
  simp [standard, equals]

namespace Operand

/-- Whether two readings are equal, if there are both, and something else otherwise. -/
def sameOr {α : Type} [BEq α] (otherwise : Bool) : Option α → Option α → Bool
  | some a, some b => a == b
  | _, _ => otherwise

/-- Whether two operands are equal: as the most specific type that both can be read as. -/
def isEqual (left right : Operand) : Bool :=
  sameOr (sameOr (sameOr (left.display == right.display) left.asFloat? right.asFloat?)
    left.asInt? right.asInt?) left.asBool? right.asBool?

/-- A rule that needs both readings, with what is left to the rules behind it. -/
theorem or_sameOr {α : Type} [BEq α] (x y : Option α) (otherwise : Bool) :
    (do some (Operator.bool (((← x) == (← y)) == true))).or (some (Operator.bool otherwise)) =
      some (Operator.bool (sameOr otherwise x y)) := by
  cases x with
  | none => rfl
  | some a =>
    cases y with
    | none => rfl
    | some b => simp [sameOr]

theorem applyBinary_equals (left right : Operand) :
    Operator.equals.applyBinary left right = .ok (.boolean (left.isEqual right)) := by
  have hrules : Operator.equals.applyBinary left right =
      ((do some (Operator.bool (((← left.asBool?) == (← right.asBool?)) == true))).or
        ((do some (Operator.bool (((← left.asInt?) == (← right.asInt?)) == true))).or
          ((do some (Operator.bool (((← left.asFloat?) == (← right.asFloat?)) == true))).or
            (some (Operator.bool ((left.display == right.display) == true)))))).getD
        (.error (.unsupportedOperands "==".toList
          (left.spelledType ++ " and ".toList ++ right.spelledType))) := rfl
  rw [hrules, or_sameOr, or_sameOr, or_sameOr, beq_true]
  rfl

/-- Whether a text spells a truth value or a number. -/
def Spells (t : Text) : Prop := ∀ s, parse t ≠ text s

/-- A text spells something if it has one of the three readings, blanks at its ends aside. -/
theorem spells_iff {t : Text} : Spells t ↔ (readBool? (Text.trim t)).isSome = true ∨
    (readInt64? (Text.trim t)).isSome = true ∨ (readDigitFloat? (Text.trim t)).isSome = true := by
  simp only [Spells, parse]
  cases readBool? (Text.trim t) with
  | some b => simp
  | none =>
    cases readInt64? (Text.trim t) with
    | some i => simp
    | none => cases readDigitFloat? (Text.trim t) <;> simp

/-- Of two equal readings it does not matter what the texts would be compared to without them. -/
theorem sameOr_of_isSome {α : Type} [BEq α] {x : Option α} (h : x.isSome = true)
    (otherwise otherwise' : Bool) : sameOr otherwise x x = sameOr otherwise' x x := by
  cases x with
  | none => cases h
  | some a => rfl

/-- **The blanks at the ends of two texts make no difference**, unless the texts differ in nothing
else and spell nothing. -/
theorem isEqual_trim_iff {s t : Text} :
    (text s).isEqual (text t) = (text (Text.trim s)).isEqual (text (Text.trim t)) ↔
      (Text.trim s = Text.trim t → s = t ∨ Spells s) := by
  simp only [isEqual, asBool?, asInt?, asFloat?, display, Text.trim_trim, spells_iff]
  by_cases htrim : Text.trim s = Text.trim t
  · rw [← htrim]
    constructor
    · intro hsame _
      cases hbool : readBool? (Text.trim s) with
      | some b => exact Or.inr (Or.inl rfl)
      | none =>
        cases hint : readInt64? (Text.trim s) with
        | some i => exact Or.inr (Or.inr (Or.inl rfl))
        | none =>
          cases hfloat : readDigitFloat? (Text.trim s) with
          | some x => exact Or.inr (Or.inr (Or.inr rfl))
          | none =>
            simp only [hbool, hint, hfloat, sameOr, beq_self_eq_true, beq_iff_eq] at hsame
            exact Or.inl hsame
    · intro h
      rcases h rfl with rfl | hbool | hint | hfloat
      · simp
      · exact sameOr_of_isSome hbool _ _
      · rw [sameOr_of_isSome hint]
      · rw [sameOr_of_isSome hfloat]
  · have hne : s ≠ t := fun heq => htrim (heq ▸ rfl)
    rw [beq_eq_false_iff_ne.mpr htrim, beq_eq_false_iff_ne.mpr hne]
    exact iff_of_true rfl fun h => absurd h htrim

end Operand

/-! ## Equations

The equation is cut into two words and an operator, and the operator settles it. -/

/-- The equation that says that two values are equal. -/
def equating (s t : Text) : Text := s ++ " == ".toList ++ t

namespace EquationToken

variable {s t a b : Text}

/-- Whether a text is taken for a value as it is, wherever it stands. -/
structure Collected (s : Text) : Prop where
  ne_nil : s ≠ []
  trim_eq : Text.trim s = s
  collect : ∀ equation rest, tokensAfter { operators := .standard } equation [] false (s ++ rest) =
    tokensAfter { operators := .standard } equation s false rest

theorem collected_of_isValue (h : EquationFormat.IsValue { operators := .standard } s) :
    Collected s :=
  ⟨h.ne_nil, h.trim_eq, fun _ => tokensAfter_value h⟩

theorem collected_placeholder {name : Text} (hname : name.IsWord) :
    Collected ('{' :: (name ++ ['}'])) := by
  have hbrace : isBlank '{' = false := by decide
  have hend : isBlank '}' = false := by decide
  refine ⟨by simp, ?_, fun equation rest => ?_⟩
  · rw [← List.cons_append, Text.trim_append hend _ (by simp), Text.trimLeft,
      List.dropWhile_cons_of_neg (by simp [hbrace])]
  · have htake : takePlaceholder '{' '}' (name ++ '}' :: rest) = (name ++ ['}'], rest) := by
      rw [takePlaceholder, Text.takeNested_of_notMem (by decide) (hname.notMem (by decide))
        (hname.notMem (by decide))]
    have hquote : isQuote '{' = false := by decide
    rw [List.cons_append, List.append_assoc, List.singleton_append, tokensAfter,
      if_neg (by simp [hquote]), if_neg (by decide), if_neg (by decide), if_pos rfl]
    simp only [htake, List.nil_append]

/-- At the end of what is collected, the blanks behind it are taken off. -/
theorem Collected.ofValue (h : Collected s) {blanks : Text}
    (hb : ∀ c ∈ blanks, isBlank c = true) : ofValue (s ++ blanks) false = [word s] := by
  have htrim : Text.trim (s ++ blanks) = s := (Text.trim_append_blanks s hb).trans h.trim_eq
  rw [EquationToken.ofValue, if_neg (by simp), htrim, if_neg h.ne_nil]

/-- The tokens of the equation: its two sides, and the characters of the sign between them. -/
theorem tokens_equating (hs : Collected s) (ht : Collected t) :
    tokens { operators := .standard } (equating s t) = word s ::
      ((OperatorTable.standard.spelling Operator.equals.symbol).map operator ++ [word t]) := by
  have hblank : EquationFormat.IsPlain { operators := .standard } ' ' :=
    ⟨by decide, by decide, by decide, by decide, by decide⟩
  have hsigns := OperatorTable.standard_isSign _ Operator.equals_mem
  have hspace : ∀ c ∈ [' '], isBlank c = true := List.forall_mem_singleton.mpr (by decide)
  have hsplit : equating s t = s ++ ([' '] ++ (Operator.equals.symbol ++ (' ' :: t))) := by
    simp [equating, Operator.equals, Operator.equality, Operator.ofBinary]
  have hskip : ∀ equation, tokensAfter { operators := .standard } equation [] false (' ' :: t) =
      tokensAfter { operators := .standard } equation [] false (t ++ []) := by
    intro equation
    have hoperator : OperatorTable.standard.ofChar? ' ' = none := hblank.operator
    rw [tokensAfter, if_neg (by decide), if_neg (by decide), if_neg (by decide),
      if_neg (by decide), List.append_nil]
    simp only [hoperator]
    rfl
  have hvalue : EquationToken.ofValue t false = [word t] := by
    have hofValue := ht.ofValue fun c (hc : c ∈ []) => absurd hc List.not_mem_nil
    rwa [List.append_nil] at hofValue
  -- The blank in front of the sign is collected with the left value, the one behind it is skipped.
  rw [tokens, hsplit, hs.collect, tokensAfter_plain (by simpa using hblank) s _
    (fun h => absurd h hs.ne_nil), separate_symbol (by decide) hsigns _ _ (s ++ [' ']) false,
    hs.ofValue hspace, tokensAfter_symbol hsigns, hskip, ht.collect, tokensAfter, hvalue]
  rfl

end EquationToken

namespace Engine

open EquationToken

variable {machine : Machine} {table : OperatorTable} {resolve : Text → Engine Text}
  {s t a b : Text}

/-- A word is an operand with the value that is looked up for it. -/
theorem elements_word (h : resolve s machine = .ok a machine) (tokens : List EquationToken)
    {elements : List EquationElement}
    (htokens : EquationToken.elements table resolve tokens machine = .ok elements machine) :
    EquationToken.elements table resolve (.word s :: tokens) machine =
      .ok (.operand (.text a) :: elements) machine := by
  have hword : EquationToken.element table resolve (.word s) machine =
      .ok (.operand (.text a)) machine := by
    rw [EquationToken.element, bind_of_ok h]
    rfl
  rw [EquationToken.elements, bind_of_ok hword, bind_of_ok htokens]
  rfl

theorem elements_operators (ops : List Operator) {tokens : List EquationToken}
    {elements : List EquationElement}
    (htokens : EquationToken.elements table resolve tokens machine = .ok elements machine) :
    EquationToken.elements table resolve (ops.map .operator ++ tokens) machine =
      .ok ((ops.map fun op => .operator op false) ++ elements) machine := by
  induction ops with
  | nil => exact htokens
  | cons op ops ih =>
    have hop : (EquationToken.element table resolve (.operator op) : Engine EquationElement)
        machine = .ok (.operator op false) machine := by
      rw [EquationToken.element]
      rfl
    rw [List.map_cons, List.cons_append, EquationToken.elements, bind_of_ok hop, bind_of_ok ih]
    rfl

/-- **An equation that says that two values are equal comes down to whether they are.** -/
theorem evaluate_equating (hs : Collected s) (ht : Collected t)
    (ha : resolve s machine = .ok a machine) (hb : resolve t machine = .ok b machine) :
    (evaluate { operators := .standard } resolve (equating s t) : Engine Operand) machine =
      .ok (.boolean ((Operand.text a).isEqual (.text b))) machine := by
  have hnone : (EquationToken.elements .standard resolve [] : Engine (List EquationElement))
      machine = .ok [] machine := by
    rw [EquationToken.elements]
    rfl
  have helements := elements_word ha _ (elements_operators
    (OperatorTable.standard.spelling Operator.equals.symbol)
    (elements_word hb [] hnone))
  rw [evaluate, tokens_equating hs ht, bind_of_ok helements]
  have hsettle : EquationElement.settle .standard (equating s t) _ = _ :=
    EquationElement.settle_double Operator.equals_mem rfl (.text a) (.text b)
  rw [Operand.applyBinary_equals] at hsettle
  exact congrArg (fun outcome => (ofOutcome outcome : Engine Operand) machine) hsettle

end Engine

end MarkupTemplate
