import MarkupTemplate.Proofs.Engine.Run
import MarkupTemplate.Proofs.Equation.Outcome
import MarkupTemplate.Proofs.Lenient.Basic

/-!
# Equations spare the faults of strict reading

Cutting an equation into tokens, merging its operators, giving them their forms and applying them
each have faults of their own, and none is one of strict reading, as long as the operators keep to
that (`OperatorTable.Mild`). The standard ones do: a rule either gives a value or refuses its
operands.

So it is enough to follow the operators through the stages. Every stage hands on those that it was
given, or finds one in the table (`mild_merge`), and applies those that it has
(`mildElements_contract`).
-/

set_option autoImplicit false

namespace MarkupTemplate

/-! ## The standard operators

By the rules of their forms. Each of the ways to make an operator is dealt with once, and the table
is gone through at the end. -/

namespace Operator

/-- Whether all rules of a form keep clear of the faults of strict reading. -/
structure BinaryMild (rules : BinaryRules) : Prop where
  boolean : ∀ r, rules.boolean = some r → ∀ a b, MarkupTemplate.Mild (r a b)
  int : ∀ r, rules.int = some r → ∀ a b, MarkupTemplate.Mild (r a b)
  float : ∀ r, rules.float = some r → ∀ a b, MarkupTemplate.Mild (r a b)
  text : ∀ r, rules.text = some r → ∀ a b, MarkupTemplate.Mild (r a b)

structure UnaryMild (rules : UnaryRules) : Prop where
  boolean : ∀ r, rules.boolean = some r → ∀ a, MarkupTemplate.Mild (r a)
  int : ∀ r, rules.int = some r → ∀ a, MarkupTemplate.Mild (r a)
  float : ∀ r, rules.float = some r → ∀ a, MarkupTemplate.Mild (r a)
  text : ∀ r, rules.text = some r → ∀ a, MarkupTemplate.Mild (r a)

theorem mild_applyBinary {op : Operator} (h : ∀ rules, op.binary = some rules → BinaryMild rules)
    (l r : Operand) : MarkupTemplate.Mild (op.applyBinary l r) := by
  unfold applyBinary
  cases hb : op.binary with
  | none => exact mild_error rfl
  | some rules =>
    obtain ⟨hboolean, hint, hfloat, htext⟩ := h rules hb
    dsimp only
    cases ho : applyRules rules l r with
    | none => exact mild_error rfl
    | some o =>
      simp only [applyRules, Option.or_eq_some_iff, Option.bind_eq_bind, Option.bind_eq_some_iff,
        Option.some.injEq] at ho
      -- The rules are tried in the order of the kinds; whichever applies is mild.
      rcases ho with ⟨r, hr, _, -, _, -, rfl⟩ | ⟨-, ⟨r, hr, _, -, _, -, rfl⟩ |
        ⟨-, ⟨r, hr, _, -, _, -, rfl⟩ | ⟨-, r, hr, rfl⟩⟩⟩
      · exact hboolean r hr _ _
      · exact hint r hr _ _
      · exact hfloat r hr _ _
      · exact htext r hr _ _

theorem mild_applyUnary {op : Operator} (h : ∀ rules, op.unary = some rules → UnaryMild rules)
    (o : Operand) : MarkupTemplate.Mild (op.applyUnary o) := by
  unfold applyUnary
  cases hu : op.unary with
  | none => exact mild_error rfl
  | some rules =>
    obtain ⟨hboolean, hint, hfloat, htext⟩ := h rules hu
    dsimp only
    cases ho : applyUnaryRules rules o with
    | none => exact mild_error rfl
    | some o =>
      simp only [applyUnaryRules, Option.or_eq_some_iff, Option.bind_eq_bind,
        Option.bind_eq_some_iff, Option.some.injEq] at ho
      rcases ho with ⟨r, hr, _, -, rfl⟩ | ⟨-, ⟨r, hr, _, -, rfl⟩ | ⟨-, ⟨r, hr, _, -, rfl⟩ |
        ⟨-, r, hr, rfl⟩⟩⟩
      · exact hboolean r hr _
      · exact hint r hr _
      · exact hfloat r hr _
      · exact htext r hr _

theorem Mild.of_rules {op : Operator} (hb : ∀ rules, op.binary = some rules → BinaryMild rules)
    (hu : ∀ rules, op.unary = some rules → UnaryMild rules) : op.Mild :=
  ⟨mild_applyBinary hb, mild_applyUnary hu⟩

end Operator

namespace Operator

theorem mild_exact (symbol : Text) (n : Option Int) : MarkupTemplate.Mild (exact symbol n) := by
  unfold exact
  split
  · exact mild_ok _
  · exact mild_error rfl

theorem mild_power (base exponent : Int64) : MarkupTemplate.Mild (power base exponent) := by
  unfold power
  split
  · exact mild_exact _ _
  · exact mild_ok _

theorem mild_ofBinary (symbol : String) (priority : Nat) {rules : BinaryRules}
    (h : BinaryMild rules) : (ofBinary symbol priority rules).Mild :=
  .of_rules (by rintro _ ⟨⟩; exact h) (by rintro _ ⟨⟩)

theorem mild_ofUnary (symbol : String) {rules : UnaryRules} (h : UnaryMild rules) :
    (ofUnary symbol rules).Mild :=
  .of_rules (by rintro _ ⟨⟩) (by rintro _ ⟨⟩; exact h)

theorem mild_logic (symbol : String) (f : Bool → Bool → Bool) : (logic symbol f).Mild :=
  mild_ofBinary _ _
    { boolean := by rintro _ ⟨⟩ a b; exact mild_ok _
      int := by rintro _ ⟨⟩
      float := by rintro _ ⟨⟩
      text := by rintro _ ⟨⟩ a b; exact mild_ok _ }

theorem mild_equality (symbol : String) (wanted : Bool) (texts : Text → Text → Bool) :
    (equality symbol wanted texts).Mild :=
  mild_ofBinary _ _
    { boolean := by rintro _ ⟨⟩ a b; exact mild_ok _
      int := by rintro _ ⟨⟩ a b; exact mild_ok _
      float := by rintro _ ⟨⟩ a b; exact mild_ok _
      text := by rintro _ ⟨⟩ a b; exact mild_ok _ }

theorem mild_order (symbol : String) (ints : Int → Int → Bool) (floats : Float → Float → Bool) :
    (order symbol ints floats).Mild :=
  mild_ofBinary _ _
    { boolean := by rintro _ ⟨⟩
      int := by rintro _ ⟨⟩ a b; exact mild_ok _
      float := by rintro _ ⟨⟩ a b; exact mild_ok _
      text := by rintro _ ⟨⟩ a b; exact mild_ok _ }

theorem binaryMild_numbers (symbol : Text) (ints : Int64 → Int64 → Option Int)
    (floats : Float → Float → Float) : BinaryMild
      { int := some fun a b => exact symbol (ints a b)
        float := some fun a b => ofFloat (floats a b) } where
  boolean := by rintro _ ⟨⟩
  int := by rintro _ ⟨⟩ a b; exact mild_exact _ _
  float := by rintro _ ⟨⟩ a b; exact mild_ok _
  text := by rintro _ ⟨⟩

theorem unaryMild_numbers (symbol : String) (int : Int → Int) (float : Float → Float) :
    UnaryMild (arithmeticUnary symbol int float) where
  boolean := by rintro _ ⟨⟩
  int := by rintro _ ⟨⟩ a; exact mild_exact _ _
  float := by rintro _ ⟨⟩ a; exact mild_ok _
  text := by rintro _ ⟨⟩

theorem mild_arithmetic (symbol : String) (priority : Nat) (ints : Int64 → Int64 → Option Int)
    (floats : Float → Float → Float) : (arithmetic symbol priority ints floats).Mild :=
  mild_ofBinary _ _ (binaryMild_numbers _ _ _)

theorem mild_negation : negation.Mild :=
  mild_ofUnary _
    { boolean := by rintro _ ⟨⟩ a; exact mild_ok _
      int := by rintro _ ⟨⟩
      float := by rintro _ ⟨⟩
      text := by rintro _ ⟨⟩ a; exact mild_ok _ }

theorem mild_plus : plus.Mild := by
  refine .of_rules ?_ ?_
  · rintro _ ⟨⟩
    exact
      { boolean := by rintro _ ⟨⟩
        int := by rintro _ ⟨⟩ a b; exact mild_exact _ _
        float := by rintro _ ⟨⟩ a b; exact mild_ok _
        text := by rintro _ ⟨⟩ a b; exact mild_ok _ }
  · rintro _ ⟨⟩
    exact
      { boolean := by rintro _ ⟨⟩
        int := by rintro _ ⟨⟩ a; exact mild_ok _
        float := by rintro _ ⟨⟩ a; exact mild_ok _
        text := by rintro _ ⟨⟩ }

theorem mild_minus : minus.Mild :=
  .of_rules (by rintro _ ⟨⟩; exact binaryMild_numbers _ _ _)
    (by rintro _ ⟨⟩; exact unaryMild_numbers _ _ _)

theorem mild_caret : caret.Mild :=
  mild_ofBinary _ _
    { boolean := by rintro _ ⟨⟩
      int := by rintro _ ⟨⟩ a b; exact mild_power _ _
      float := by rintro _ ⟨⟩ a b; exact mild_ok _
      text := by rintro _ ⟨⟩ }

theorem mild_standard : ∀ op ∈ standard, op.Mild := by
  unfold standard
  simp only [List.forall_mem_cons]
  exact ⟨mild_negation, mild_logic _ _, mild_logic _ _, mild_equality _ _ _, mild_equality _ _ _,
    mild_equality _ _ _, mild_order _ _ _, mild_order _ _ _, mild_order _ _ _, mild_order _ _ _,
    mild_arithmetic _ _ _ _, mild_plus, mild_minus, mild_arithmetic _ _ _ _,
    mild_arithmetic _ _ _ _, mild_caret, mild_ofUnary _ (unaryMild_numbers _ _ _),
    mild_ofUnary _ (unaryMild_numbers _ _ _), mild_logic _ _, mild_logic _ _,
    fun _ h => absurd h List.not_mem_nil⟩

end Operator

theorem OperatorTable.standard_entries : OperatorTable.standard.operators.entries =
    Operator.standard.map fun op => (op.symbol, op) := rfl

theorem OperatorTable.standard_mild : OperatorTable.standard.Mild := by
  intro symbol op h
  have hmem := Dictionary.mem_of_lookup h
  rw [standard_entries] at hmem
  obtain ⟨op', hop, heq⟩ := List.mem_map.mp hmem
  obtain ⟨-, rfl⟩ := Prod.mk.inj heq
  exact Operator.mild_standard op' hop

/-! ## From elements to an operand -/

namespace EquationElement

def Mild : EquationElement → Prop
  | operand _ => True
  | operator op _ => op.Mild

variable {t : OperatorTable} {equation : Text} {es : List EquationElement}

theorem mild_merge (ht : t.Mild) {before rest : List EquationElement}
    (hbefore : ∀ e ∈ before, e.Mild) (hrest : ∀ e ∈ rest, e.Mild) :
    ∀ e ∈ merge t before rest, e.Mild := by
  -- Merging puts operators of the table in place of others, and operands stay.
  fun_induction merge t before rest with
  | case1 before => exact fun e he => hbefore e (List.mem_reverse.mp he)
  | case2 before o rest ih =>
    rw [List.forall_mem_cons] at hrest
    exact ih (List.forall_mem_cons.mpr ⟨hrest.1, hbefore⟩) hrest.2
  | case3 previous single before op single' rest compound hmerge hcompound ih =>
    rw [List.forall_mem_cons] at hbefore hrest
    obtain ⟨symbol, -, hget⟩ := Option.bind_eq_some_iff.mp hmerge
    exact ih (List.forall_mem_cons.mpr ⟨ht symbol compound hget, hbefore.2⟩) hrest.2
  | case4 previous single before op single' rest compound hmerge hcompound ih =>
    rw [List.forall_mem_cons] at hrest
    exact ih (List.forall_mem_cons.mpr ⟨hrest.1, hbefore⟩) hrest.2
  | case5 previous single before op single' rest hmerge ih =>
    rw [List.forall_mem_cons] at hrest
    exact ih (List.forall_mem_cons.mpr ⟨hrest.1, hbefore⟩) hrest.2
  | case6 before op single rest hbare ih =>
    rw [List.forall_mem_cons] at hrest
    exact ih (List.forall_mem_cons.mpr ⟨hrest.1, hbefore⟩) hrest.2

/-- Elements in an outcome that keeps clear of the faults of strict reading. -/
structure MildElements (o : Except Fault (List EquationElement)) : Prop where
  outcome : MarkupTemplate.Mild o
  elements : ∀ es, o = .ok es → ∀ e ∈ es, e.Mild

theorem MildElements.cons {o : Except Fault (List EquationElement)} (h : MildElements o)
    {e : EquationElement} (he : e.Mild) : MildElements (o.map (e :: ·)) where
  outcome := h.outcome.map _
  elements := by
    cases o with
    | error f => rintro es ⟨⟩
    | ok es =>
      rintro _ ⟨⟩
      exact List.forall_mem_cons.mpr ⟨he, h.elements es rfl⟩

theorem mildElements_error {f : Fault} (hf : f.isStrictOnly = false) :
    MildElements (.error f) := ⟨mild_error hf, by rintro _ ⟨⟩⟩

theorem mildElements_classify {operandLeft : Bool} (hes : ∀ e ∈ es, e.Mild) :
    MildElements (classify equation operandLeft es) := by
  fun_induction classify equation operandLeft es with
  | case1 => exact ⟨mild_ok _, by rintro _ ⟨⟩ e he; exact absurd he List.not_mem_nil⟩
  | case2 operandLeft o rest ih =>
    rw [List.forall_mem_cons] at hes
    exact (ih hes.2).cons trivial
  | case3 operandLeft op single rest hform ih =>
    rw [List.forall_mem_cons] at hes
    exact (ih hes.2).cons hes.1
  | case4 => exact mildElements_error rfl
  | case5 => exact mildElements_error rfl
  | case6 => exact mildElements_error rfl
  | case7 operandLeft op single rest _ _ _ ih =>
    rw [List.forall_mem_cons] at hes
    exact (ih hes.2).cons hes.1

/-- What applying one operator gives, put in front of the rest. -/
theorem mildElements_operand {o : Applied} (ho : MarkupTemplate.Mild o)
    {rest : List EquationElement} (hrest : ∀ e ∈ rest, e.Mild) :
    MildElements (o.map fun v => .operand v :: rest) where
  outcome := ho.map _
  elements := by
    cases o with
    | error f => rintro es ⟨⟩
    | ok v =>
      rintro _ ⟨⟩
      exact List.forall_mem_cons.mpr ⟨trivial, hrest⟩

theorem mildElements_contract {p : Nat} (hes : ∀ e ∈ es, e.Mild)
    {o : Except Fault (List EquationElement)} (ho : contract p es = some o) : MildElements o := by
  -- One operator is applied where the precedence is found, and the rest is copied.
  fun_induction contract p es generalizing o with
  | case1 l op r rest hp =>
    simp only [List.forall_mem_cons] at hes
    obtain rfl := Option.some.inj ho
    exact mildElements_operand (hes.2.1.binary l r) hes.2.2.2
  | case2 l op r rest hp ih =>
    rw [List.forall_mem_cons] at hes
    obtain ⟨x, hx, rfl⟩ := Option.map_eq_some_iff.mp ho
    exact (ih hes.2 hx).cons hes.1
  | case3 op r rest hp =>
    simp only [List.forall_mem_cons] at hes
    obtain rfl := Option.some.inj ho
    exact mildElements_operand (hes.1.unary r) hes.2.2
  | case4 op r rest hp ih =>
    rw [List.forall_mem_cons] at hes
    obtain ⟨x, hx, rfl⟩ := Option.map_eq_some_iff.mp ho
    exact (ih hes.2 hx).cons hes.1
  | case5 e rest _ _ ih =>
    rw [List.forall_mem_cons] at hes
    obtain ⟨x, hx, rfl⟩ := Option.map_eq_some_iff.mp ho
    exact (ih hes.2 hx).cons hes.1
  | case6 => cases ho

theorem mild_reduce (hes : ∀ e ∈ es, e.Mild) : MarkupTemplate.Mild (reduce equation es) := by
  fun_induction reduce equation es with
  | case1 => exact mild_error rfl
  | case2 => exact mild_ok _
  | case3 => exact mild_error rfl
  | case4 => exact mild_error rfl
  | case5 => exact mild_error rfl
  | case6 es _ _ _ p _ f hcontract =>
    exact mild_error ((mildElements_contract hes hcontract).outcome f rfl)
  | case7 es _ _ _ p _ es' hcontract ih =>
    exact ih ((mildElements_contract hes hcontract).elements es' rfl)

/-- An equation that is settled has no fault of strict reading. -/
theorem mild_settle (ht : t.Mild) (hes : ∀ e ∈ es, e.Mild) :
    MarkupTemplate.Mild (settle t equation es) := by
  have hclassify : MildElements (classify equation false _) := mildElements_classify
    (mild_merge ht (fun _ h => absurd h List.not_mem_nil) hes)
  exact hclassify.outcome.bind fun cs hcs => mild_reduce (hclassify.elements cs hcs)

end EquationElement

/-! ## From tokens to elements -/

namespace EquationToken

mutual

/-- Whether the operators and the faults among tokens keep clear of the faults of strict reading. -/
def Mild : EquationToken → Prop
  | word _ => True
  | quoted _ => True
  | operator op => op.Mild
  | group _ tokens => MildAll tokens
  | fault f => f.isStrictOnly = false

/-- Whether all tokens do. -/
def MildAll : List EquationToken → Prop
  | [] => True
  | token :: tokens => token.Mild ∧ MildAll tokens

end

theorem mildAll_append {tokens tokens' : List EquationToken} (h : MildAll tokens)
    (h' : MildAll tokens') : MildAll (tokens ++ tokens') := by
  induction tokens with
  | nil => exact h'
  | cons token tokens ih => exact ⟨h.1, ih h.2⟩

theorem mildAll_fault {f : Fault} (hf : f.isStrictOnly = false) : MildAll [fault f] := ⟨hf, trivial⟩

theorem mildAll_ofValue (value : Text) (hasQuotes : Bool) : MildAll (ofValue value hasQuotes) := by
  unfold ofValue
  split
  · exact ⟨trivial, trivial⟩
  · split
    · exact trivial
    · exact ⟨trivial, trivial⟩

/-- What an equation is cut into is mild, faults included. -/
theorem mildAll_tokensAfter {f : EquationFormat} (hf : f.operators.Mild) (equation value : Text)
    (hasQuotes : Bool) (t : Text) : MildAll (tokensAfter f equation value hasQuotes t) := by
  fun_induction tokensAfter f equation value hasQuotes t with
  | case1 => exact mildAll_ofValue _ _
  | case2 _ _ _ _ _ _ _ _ _ ih => exact ih
  | case3 => exact mildAll_fault rfl
  | case4 _ _ _ _ _ _ _ _ ih ih' =>
    exact mildAll_append (mildAll_ofValue _ _) ⟨ih, ih'⟩
  | case5 => exact mildAll_append (mildAll_ofValue _ _) (mildAll_fault rfl)
  | case6 => exact mildAll_fault rfl
  | case7 _ _ _ _ _ _ _ _ _ _ ih => exact ih
  | case8 _ _ _ c _ _ _ _ _ op hop ih =>
    exact mildAll_append (mildAll_ofValue _ _) ⟨hf [c] op hop, ih⟩
  | case9 _ _ _ _ _ _ _ _ _ _ _ ih => exact ih

end EquationToken

namespace Engine

variable {t : OperatorTable} {resolve : Text → Engine Text}

mutual

/-- The element of a token is mild if the token is. -/
theorem mild_of_element {machine machine' : Machine} {e : EquationElement} :
    (token : EquationToken) → token.Mild → token.element t resolve machine = .ok e machine' → e.Mild
  | .word w, _, h => by
    obtain ⟨o, m, -, ho⟩ := bind_eq_ok_iff.mp h
    obtain ⟨rfl, -⟩ := EStateM.Result.ok.inj ho
    trivial
  | .quoted q, _, h => by
    obtain ⟨rfl, -⟩ := EStateM.Result.ok.inj h
    trivial
  | .operator op, hop, h => by
    obtain ⟨rfl, -⟩ := EStateM.Result.ok.inj h
    exact hop
  | .group equation tokens, _, h => by
    obtain ⟨es, m, -, hes⟩ := bind_eq_ok_iff.mp h
    obtain ⟨o, m', -, ho⟩ := bind_eq_ok_iff.mp hes
    obtain ⟨rfl, -⟩ := EStateM.Result.ok.inj ho
    trivial
  | .fault f, _, h => absurd h throw_ne_ok

theorem mild_of_elements {machine machine' : Machine} {es : List EquationElement} :
    (tokens : List EquationToken) → EquationToken.MildAll tokens →
      EquationToken.elements t resolve tokens machine = .ok es machine' → ∀ e ∈ es, e.Mild
  | [], _, h => by
    obtain ⟨rfl, -⟩ := EStateM.Result.ok.inj h
    exact fun _ he => absurd he List.not_mem_nil
  | token :: tokens, htokens, h => by
    obtain ⟨e, m, he, hrest⟩ := bind_eq_ok_iff.mp h
    obtain ⟨es, m', hes, hcons⟩ := bind_eq_ok_iff.mp hrest
    obtain ⟨rfl, -⟩ := EStateM.Result.ok.inj hcons
    exact List.forall_mem_cons.mpr
      ⟨mild_of_element token htokens.1 he, mild_of_elements tokens htokens.2 hes⟩

end

end Engine

end MarkupTemplate
