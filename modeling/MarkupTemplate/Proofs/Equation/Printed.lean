import MarkupTemplate.Proofs.Equation.Outcome
import MarkupTemplate.Proofs.Equation.Parentheses

/-!
# Printed equations

A tree over the standard operators is printed with parentheses around every operand that is not a
leaf. `evaluatePlain_printed` is that the printed equation comes down to what the tree does, be it a
value or a fault.

Whatever stands next to an operator in such an equation is a leaf or a parenthesis, so neither the
priorities nor the neighbours matter: a run of operator characters is the symbol of one operator
(`OperatorTable.standard_spelled`), and the characters of a longer symbol merge back into it, behind
an operand where it takes two (`settle_double`) and at the start where it takes one
(`settle_single`). The rest is an induction on the tree, in which a group is an operand already.
-/

set_option autoImplicit false

namespace MarkupTemplate

/-! ## The symbols of the standard operators

All of these are questions about a finite table, and settled by going through it. -/

/-- The operators that the characters of a symbol are on their own. -/
def OperatorTable.spelling (t : OperatorTable) (symbol : Text) : List Operator :=
  symbol.filterMap t.ofChar?

/-- A symbol is a single character, or two that merge. -/
theorem OperatorTable.standard_spelled :
    ∀ op ∈ Operator.standard, standard.spelling op.symbol = [op] ∨ ∃ first second,
      standard.spelling op.symbol = [first, second] ∧
        standard.merge? first.symbol second.symbol = some op := by
  unfold Operator.standard
  simp only [List.forall_mem_cons]
  repeat' apply And.intro
  all_goals first
    | exact Or.inl rfl
    | exact Or.inr ⟨_, _, rfl, rfl⟩
    | exact fun _ h => absurd h List.not_mem_nil

/-- Whether a character is an operator wherever it stands outside of quotes. -/
structure EquationFormat.IsSign (f : EquationFormat) (c : Char) : Prop where
  quote : isQuote c = false
  opening : c ≠ '('
  closing : c ≠ ')'
  placeholder : c ≠ f.argumentOpening
  operator : (f.operators.ofChar? c).isSome = true

theorem OperatorTable.standard_ne_nil : ∀ op ∈ Operator.standard, op.symbol ≠ [] := by
  decide

/-- The characters of a symbol are operators wherever they stand. -/
theorem OperatorTable.standard_isSign :
    ∀ op ∈ Operator.standard, ∀ c ∈ op.symbol,
      EquationFormat.IsSign { operators := .standard } c := by
  have hall : (Operator.standard.flatMap Operator.symbol).all (fun c => !isQuote c && c != '(' &&
      c != ')' && c != '\x7b' && (standard.ofChar? c).isSome) = true := by decide
  intro op hop c hc
  have hsign := List.all_eq_true.mp hall c (List.mem_flatMap_of_mem hop hc)
  simp only [Bool.and_eq_true, Bool.not_eq_true', bne_iff_ne] at hsign
  obtain ⟨⟨⟨⟨hquote, hopening⟩, hclosing⟩, hplaceholder⟩, hoperator⟩ := hsign
  exact ⟨hquote, hopening, hclosing, hplaceholder, hoperator⟩

theorem OperatorTable.ofChar?_eq_none {t : OperatorTable} {p : Char → Bool}
    (hall : (t.operators.entries.flatMap (·.1)).all (!p ·) = true) {c : Char} (hc : p c = true) :
    t.ofChar? c = none := by
  cases h : t.ofChar? c with
  | none => rfl
  | some op =>
    have hfalse := List.all_eq_true.mp hall c
      (List.mem_flatMap_of_mem (Dictionary.mem_of_lookup h) List.mem_cons_self)
    rw [hc] at hfalse
    exact absurd hfalse (by simp)

theorem OperatorTable.standard_ofChar? {c : Char} (hc : isAlphanumeric c = true) :
    standard.ofChar? c = none := ofChar?_eq_none (p := isAlphanumeric) (by decide) hc

theorem EquationFormat.isValue_standard {t : Text} (ht : t.IsWord) :
    IsValue { operators := .standard } t :=
  isValue_of_isWord (by decide) (fun c hc => OperatorTable.standard_ofChar? (ht.2 c hc)) ht

/-! ## Settling one operator

A list of an operator with its operands, as it comes out of the text: the characters of a symbol are
operators one by one and have to merge first. -/

namespace EquationElement

/-- The elements of a symbol as it is written. -/
def ofSymbol (t : OperatorTable) (symbol : Text) : List EquationElement :=
  (t.spelling symbol).map fun op => .operator op false

variable {op : Operator} {equation : Text}

/-- Behind an operand, the characters of a symbol merge back into it. -/
theorem merge_double (hop : op ∈ Operator.standard) (hb : op.binary.isSome = true) (a b : Operand) :
    merge .standard [] (.operand a :: (ofSymbol .standard op.symbol ++ [.operand b])) =
      [.operand a, .operator op false, .operand b] := by
  unfold ofSymbol
  rcases OperatorTable.standard_spelled op hop with hspelled | ⟨first, second, hspelled, hmerge⟩
  · rw [hspelled]
    rfl
  · rw [hspelled]
    simp [merge, hmerge, hb]

/-- At the start of an equation they do so too. -/
theorem merge_single (hop : op ∈ Operator.standard) (a : Operand) :
    merge .standard [] (ofSymbol .standard op.symbol ++ [.operand a]) =
      [.operator op false, .operand a] := by
  unfold ofSymbol
  rcases OperatorTable.standard_spelled op hop with hspelled | ⟨first, second, hspelled, hmerge⟩
  · rw [hspelled]
    rfl
  · rw [hspelled]
    simp [merge, hmerge]

/-- An operator with an operand on both sides is applied to them. -/
theorem reduce_double (a b : Operand) :
    reduce equation [.operand a, .operator op false, .operand b] = op.applyBinary a b := by
  have hcontract : contract op.priority [.operand a, .operator op false, .operand b] =
      some ((op.applyBinary a b).map fun o => [.operand o]) := by
    rw [contract, if_pos rfl]
  rw [reduce_of_contract (by simp) rfl hcontract]
  cases op.applyBinary a b with
  | error fault => rfl
  | ok o => simp [Except.map, Except.bind, reduce]

/-- A sign with an operand behind it is applied to it. -/
theorem reduce_single (a : Operand) :
    reduce equation [.operator op true, .operand a] = op.applyUnary a := by
  have hcontract : contract op.unaryPriority [.operator op true, .operand a] =
      some ((op.applyUnary a).map fun o => [.operand o]) := by
    rw [contract, if_pos rfl]
  rw [reduce_of_contract (by simp) rfl hcontract]
  cases op.applyUnary a with
  | error fault => rfl
  | ok o => simp [Except.map, Except.bind, reduce]

theorem settle_double (hop : op ∈ Operator.standard) (hb : op.binary.isSome = true)
    (a b : Operand) :
    settle .standard equation (.operand a :: (ofSymbol .standard op.symbol ++ [.operand b])) =
      op.applyBinary a b := by
  have hclassify : classify equation false [.operand a, .operator op false, .operand b] =
      .ok [.operand a, .operator op false, .operand b] := by
    simp [classify, hb, Except.map]
  rw [settle, merge_double hop hb, hclassify]
  exact reduce_double a b

/-- An operator in front of a single operand is applied to it. -/
theorem settle_single (hop : op ∈ Operator.standard) (hu : op.unary.isSome = true) (a : Operand) :
    settle .standard equation (ofSymbol .standard op.symbol ++ [.operand a]) = op.applyUnary a := by
  have hnone : op.unary.isNone = false := by
    cases hunary : op.unary with
    | none => rw [hunary] at hu; exact hu.symm
    | some rules => rfl
  have hclassify : classify equation false [.operator op false, .operand a] =
      .ok [.operator op true, .operand a] := by
    simp [classify, hnone, Except.map]
  rw [settle, merge_single hop, hclassify]
  exact reduce_single a

end EquationElement

/-! ## Cutting a printed equation

Where one part of a printed equation ends and the next one begins: at an operator or a parenthesis,
and never in the midst of a value. -/

namespace EquationToken

variable {f : EquationFormat} {equation : Text}

/-- Whether the value in front of a text ends where the text begins. -/
def Separate (f : EquationFormat) (t : Text) : Prop :=
  ∀ equation value hasQuotes, tokensAfter f equation value hasQuotes t =
    ofValue value hasQuotes ++ tokensAfter f equation [] false t

theorem separate_nil (f : EquationFormat) : Separate f [] := by
  intro equation value hasQuotes
  have hnone : ofValue [] false = [] := rfl
  rw [tokensAfter, tokensAfter, hnone, List.append_nil]

theorem tokensAfter_sign {c : Char} (hc : f.IsSign c) (equation value : Text) (hasQuotes : Bool)
    (rest : Text) : ∃ op, f.operators.ofChar? c = some op ∧
      tokensAfter f equation value hasQuotes (c :: rest) =
        ofValue value hasQuotes ++ operator op :: tokensAfter f equation [] false rest := by
  obtain ⟨op, hop⟩ := Option.isSome_iff_exists.mp hc.operator
  have hquote := hc.quote
  refine ⟨op, hop, ?_⟩
  rw [tokensAfter, if_neg (by simp [hquote]), if_neg hc.opening, if_neg hc.closing,
    if_neg hc.placeholder, hop]

theorem separate_sign {c : Char} (hc : f.IsSign c) (rest : Text) : Separate f (c :: rest) := by
  intro equation value hasQuotes
  obtain ⟨op, hop, htokens⟩ := tokensAfter_sign hc equation value hasQuotes rest
  obtain ⟨op', hop', htokens'⟩ := tokensAfter_sign hc equation [] false rest
  obtain rfl := Option.some.inj (hop.symm.trans hop')
  rw [htokens, htokens']
  rfl

theorem separate_symbol {symbol : Text} (hne : symbol ≠ []) (hs : ∀ c ∈ symbol, f.IsSign c)
    (rest : Text) : Separate f (symbol ++ rest) := by
  cases symbol with
  | nil => exact absurd rfl hne
  | cons c symbol => exact separate_sign (hs c List.mem_cons_self) _

/-- A symbol is cut into the operators of its characters. -/
theorem tokensAfter_symbol {symbol : Text} (hs : ∀ c ∈ symbol, f.IsSign c) (rest : Text) :
    tokensAfter f equation [] false (symbol ++ rest) =
      (f.operators.spelling symbol).map operator ++ tokensAfter f equation [] false rest := by
  induction symbol with
  | nil => rfl
  | cons c symbol ih =>
    obtain ⟨hc, hs⟩ := List.forall_mem_cons.mp hs
    obtain ⟨op, hop, htokens⟩ := tokensAfter_sign hc equation [] false (symbol ++ rest)
    have hspelling : f.operators.spelling (c :: symbol) = op :: f.operators.spelling symbol :=
      List.filterMap_cons_some hop
    rw [List.cons_append, htokens, ih hs, hspelling]
    rfl

/-- The search for the end of a group passes over a symbol. -/
theorem passed_symbol {symbol : Text} (hs : ∀ c ∈ symbol, f.IsSign c) : Passed symbol :=
  passed_of_forall fun c hc => passed_of_plain (hs c hc).quote (hs c hc).opening (hs c hc).closing

theorem passed_value {t : Text} (ht : f.IsValue t) : Passed t :=
  passed_of_forall fun c hc =>
    passed_of_plain (ht.plain c hc).quote (ht.plain c hc).opening (ht.plain c hc).closing

variable {table : OperatorTable}

theorem elements_singleton (token : EquationToken) :
    elements table (Except.ok : Text → Except Fault Text) [token] =
      (element table Except.ok token).map ([·]) := by
  cases h : element table (Except.ok : Text → Except Fault Text) token with
  | error fault => rw [elements, h]; rfl
  | ok e => rw [elements, h, elements]; rfl

theorem elements_operators (ops : List Operator) (tokens : List EquationToken) :
    elements table (Except.ok : Text → Except Fault Text) (ops.map operator ++ tokens) =
      (elements table Except.ok tokens).map
        ((ops.map fun op => EquationElement.operator op false) ++ ·) := by
  induction ops with
  | nil =>
    rw [List.map_nil, List.nil_append]
    cases elements table (Except.ok : Text → Except Fault Text) tokens <;> rfl
  | cons op ops ih =>
    rw [List.map_cons, List.cons_append, elements, ih]
    cases elements table (Except.ok : Text → Except Fault Text) tokens <;> rfl

end EquationToken

namespace EquationTree

/-- An operand as it stands in an equation: in parentheses, unless it is a leaf. -/
def enclose : EquationTree → Text → Text
  | operand _, t => t
  | _, t => '(' :: (t ++ [')'])

/-- A tree as text, with parentheses around every operand that is not a leaf. -/
def printed : EquationTree → Text
  | operand o => o.display
  | single op tree => op.symbol ++ tree.enclose tree.printed
  | double op left right =>
    left.enclose left.printed ++ (op.symbol ++ right.enclose right.printed)

/-- Whether the leaves of a tree are values that can be written without quotes, and its operators
standard ones that have the form in which they are used. -/
def Printable : EquationTree → Prop
  | operand o => ∃ t, o = .text t ∧ EquationFormat.IsValue { operators := .standard } t
  | single op tree => op ∈ Operator.standard ∧ op.unary.isSome = true ∧ tree.Printable
  | double op left right =>
    op ∈ Operator.standard ∧ op.binary.isSome = true ∧ left.Printable ∧ right.Printable

open EquationToken

variable {tree : EquationTree} {equation : Text}

/-- It passes over an operand with or without its parentheses. -/
theorem Passed.enclose {t : Text} (h : Passed t) (tree : EquationTree) :
    Passed (tree.enclose t) := by
  cases tree with
  | operand o => exact h
  | single op tree => exact h.group
  | double op left right => exact h.group

theorem Printable.passed (h : tree.Printable) : Passed tree.printed := by
  induction tree with
  | operand o =>
    obtain ⟨t, rfl, ht⟩ := h
    exact passed_value ht
  | single op tree ih =>
    obtain ⟨hop, _, htree⟩ := h
    exact (passed_symbol (OperatorTable.standard_isSign op hop)).append
      (Passed.enclose (ih htree) tree)
  | double op left right ihl ihr =>
    obtain ⟨hop, _, hleft, hright⟩ := h
    have hbehind := (passed_symbol (OperatorTable.standard_isSign op hop)).append
      (Passed.enclose (ihr hright) right)
    exact (Passed.enclose (ihl hleft) left).append hbehind

/-- The token of a tree that is an operand. -/
def token : EquationTree → EquationToken
  | operand o => .word o.display
  | tree => .group tree.printed (tokens { operators := .standard } tree.printed)

/-- An operand as it stands in an equation is one token. -/
theorem Printable.tokensAfter_enclose (h : tree.Printable) (equation : Text) {rest : Text}
    (hrest : Separate { operators := .standard } rest) :
    tokensAfter { operators := .standard } equation [] false
        (tree.enclose tree.printed ++ rest) =
      tree.token :: tokensAfter { operators := .standard } equation [] false rest := by
  -- Whatever stands in parentheses is one token, and only a bare value can be ended by what
  -- follows.
  have hgroup : ∀ t : Text, Passed t → tokensAfter { operators := .standard } equation [] false
      ('(' :: (t ++ [')']) ++ rest) = .group t (tokens { operators := .standard } t) ::
        tokensAfter { operators := .standard } equation [] false rest := by
    intro t ht
    rw [List.cons_append, List.append_assoc, List.singleton_append, ht.tokensAfter_group]
  cases tree with
  | operand o =>
    obtain ⟨t, rfl, ht⟩ := h
    have hvalue : tokensAfter { operators := .standard } equation [] false (t ++ rest) =
        ofValue t false ++ tokensAfter { operators := .standard } equation [] false rest := by
      rw [tokensAfter_value ht, hrest]
    rwa [ofValue_of_isValue ht] at hvalue
  | single op tree => exact hgroup _ h.passed
  | double op left right => exact hgroup _ h.passed

/-- How an operator in front of an operand is cut. -/
theorem Printable.tokensAfter_single {op : Operator} (h : (single op tree).Printable) :
    tokensAfter { operators := .standard } equation [] false (single op tree).printed =
      (OperatorTable.standard.spelling op.symbol).map EquationToken.operator ++ [tree.token] := by
  obtain ⟨hop, _, htree⟩ := h
  have hoperand := htree.tokensAfter_enclose equation
    (separate_nil { operators := .standard })
  rw [List.append_nil, tokensAfter] at hoperand
  rw [printed, tokensAfter_symbol (OperatorTable.standard_isSign op hop), hoperand]
  rfl

theorem Printable.tokensAfter_double {op : Operator} {left right : EquationTree}
    (h : (double op left right).Printable) :
    tokensAfter { operators := .standard } equation [] false (double op left right).printed =
      left.token :: ((OperatorTable.standard.spelling op.symbol).map EquationToken.operator ++
        [right.token]) := by
  obtain ⟨hop, _, hleft, hright⟩ := h
  have hsigns := OperatorTable.standard_isSign op hop
  have hoperand := hright.tokensAfter_enclose equation
    (separate_nil { operators := .standard })
  rw [List.append_nil, tokensAfter] at hoperand
  have hseparate := separate_symbol (OperatorTable.standard_ne_nil op hop) hsigns
  rw [printed, hleft.tokensAfter_enclose equation (hseparate _), tokensAfter_symbol hsigns,
    hoperand]
  rfl

/-! ## Evaluation -/

theorem ofOutcome_except {α : Type} (x : Except Fault α) : (ofOutcome x : Except Fault α) = x := by
  cases x <;> rfl

/-- An equation is cut, its tokens become elements, and these are settled. -/
theorem evaluatePlain_eq (f : EquationFormat) (e : Text) :
    evaluatePlain f e = (EquationToken.elements f.operators Except.ok (tokens f e)).bind
      (EquationElement.settle f.operators e) := by
  unfold evaluatePlain evaluate
  simp only [ofOutcome_except]
  rfl

/-- A group is the operand that the equation in it comes down to. -/
theorem element_group (f : EquationFormat) (e : Text) :
    element f.operators (Except.ok : Text → Except Fault Text) (.group e (tokens f e)) =
      (evaluatePlain f e).map EquationElement.operand := by
  rw [element, evaluatePlain_eq]
  simp only [ofOutcome_except]
  cases EquationToken.elements f.operators (Except.ok : Text → Except Fault Text) (tokens f e) with
  | error fault => rfl
  | ok es => cases EquationElement.settle f.operators e es <;> rfl

/-- The token of an operand is the operand that its tree comes to. -/
theorem Printable.element_token (h : tree.Printable)
    (heval : evaluatePlain { operators := .standard } tree.printed = tree.eval) :
    element .standard Except.ok tree.token = tree.eval.map EquationElement.operand := by
  cases tree with
  | operand o =>
    obtain ⟨t, rfl, _⟩ := h
    rfl
  | single op tree => exact (element_group { operators := .standard } _).trans (congrArg _ heval)
  | double op left right =>
    exact (element_group { operators := .standard } _).trans (congrArg _ heval)

/-- A value that is written without quotes comes down to itself. -/
theorem evaluatePlain_value {t : Text} (ht : EquationFormat.IsValue { operators := .standard } t) :
    evaluatePlain { operators := .standard } t = .ok (.text t) := by
  have htokens : tokens { operators := .standard } t = [.word t] := tokens_of_isValue ht
  rw [evaluatePlain_eq, htokens]
  exact EquationElement.settle_operand .standard t (.text t)

/-- An operator in front of a tree, if that comes down to what it does. -/
theorem Printable.evaluatePlain_single {op : Operator} (h : (single op tree).Printable)
    (heval : evaluatePlain { operators := .standard } tree.printed = tree.eval) :
    evaluatePlain { operators := .standard } (single op tree).printed =
      (single op tree).eval := by
  have htokens : tokens { operators := .standard } (single op tree).printed = _ :=
    h.tokensAfter_single
  obtain ⟨hop, hu, htree⟩ := h
  rw [evaluatePlain_eq, htokens, elements_operators, elements_singleton,
    htree.element_token heval, eval]
  cases tree.eval with
  | error fault => rfl
  | ok a => exact EquationElement.settle_single hop hu a

/-- An operator between two trees, if these come down to what they do. -/
theorem Printable.evaluatePlain_double {op : Operator} {left right : EquationTree}
    (h : (double op left right).Printable)
    (hleft : evaluatePlain { operators := .standard } left.printed = left.eval)
    (hright : evaluatePlain { operators := .standard } right.printed = right.eval) :
    evaluatePlain { operators := .standard } (double op left right).printed =
      (double op left right).eval := by
  have htokens : tokens { operators := .standard } (double op left right).printed = _ :=
    h.tokensAfter_double
  obtain ⟨hop, hb, hl, hr⟩ := h
  rw [evaluatePlain_eq, htokens, EquationToken.elements, elements_operators, elements_singleton,
    hl.element_token hleft, hr.element_token hright, eval]
  -- The left operand is evaluated first, so its fault is the one that counts.
  cases left.eval with
  | error fault => rfl
  | ok a =>
    cases right.eval with
    | error fault => rfl
    | ok b => exact EquationElement.settle_double hop hb a b

/-- **A printed equation comes down to what its tree does**, with the same fault where the tree has
one. The induction is on the tree: by then each operand is a group of its own and has come to what
it comes to. -/
theorem evaluatePlain_printed (h : tree.Printable) :
    evaluatePlain { operators := .standard } tree.printed = tree.eval := by
  induction tree with
  | operand o =>
    obtain ⟨t, rfl, ht⟩ := h
    exact evaluatePlain_value ht
  | single op tree ih => exact h.evaluatePlain_single (ih h.2.2)
  | double op left right ihl ihr =>
    exact h.evaluatePlain_double (ihl h.2.2.1) (ihr h.2.2.2)

/-- `(--3)-(-2)`. -/
def signedTree : EquationTree :=
  .double .minus
    (.single (.ofUnary "--" (Operator.arithmeticUnary "--" (fun a => a - 1) fun a => a - 1))
      (.operand (.text ['3'])))
    (.single .minus (.operand (.text ['2'])))

theorem evaluatePlain_signedTree :
    evaluatePlain { operators := .standard } "(--3)-(-2)".toList = .ok (.int 4) := by
  have hdigit : ∀ t ∈ [['3'], ['2']], EquationFormat.IsValue { operators := .standard } t := by
    intro t ht
    have hword : ∀ t ∈ [['3'], ['2']], Text.IsWord t := by decide
    exact EquationFormat.isValue_standard (hword t ht)
  have hprintable : signedTree.Printable :=
    ⟨by simp [Operator.standard], rfl,
      ⟨by simp [Operator.standard], rfl, ['3'], rfl, hdigit _ (by simp)⟩,
      ⟨by simp [Operator.standard], rfl, ['2'], rfl, hdigit _ (by simp)⟩⟩
  have hprinted : signedTree.printed = "(--3)-(-2)".toList := by decide
  rw [← hprinted, evaluatePlain_printed hprintable]
  rfl

end EquationTree

end MarkupTemplate
