import MarkupTemplate.Equation.Token

/-!
# Evaluating equations

The tokens of an equation become elements: operands, which a host may look up, and operators. The
elements are then settled into one operand:

1. neighbouring operators merge, as `=` `=` into `==`, unless that would turn the subtraction of a
   negation into a decrement;
2. every operator without an operand on its left is taken in its form with a single operand;
3. the operators are applied, those of highest priority first and equal ones from the left.

Each step only sees the list of elements, so parentheses, which are evaluated on the way, are plain
operands in it.
-/

set_option autoImplicit false

namespace MarkupTemplate

/-- A part of an equation under evaluation. What a group comes to is an operand like any other, and
nothing tells that there were parentheses. -/
inductive EquationElement where
  | operand (o : Operand)
  /-- An operator, and whether it is taken in its form with a single operand. -/
  | operator (op : Operator) (single : Bool)

namespace EquationElement

def isOperand : EquationElement → Bool
  | operand _ => true
  | operator .. => false

/-- The priority of an operator in the form it is taken in. -/
def priority? : EquationElement → Option Nat
  | operand _ => none
  | operator op single => some (if single then op.unaryPriority else op.priority)

/-! ## Merging

Tokens are single characters, so an operator of two characters comes in two parts that have to be
put together. -/

/-- Merges neighbouring operators from left to right; `before` holds the elements already passed,
the last one first. Three signs in a row merge from the left, and what was merged may merge again
with what follows. -/
def merge (t : OperatorTable) : List EquationElement → List EquationElement → List EquationElement
  | before, [] => before.reverse
  | before, .operand o :: rest => merge t (.operand o :: before) rest
  | .operator previous single :: before, .operator op _ :: rest =>
    match t.merge? previous.symbol op.symbol with
    | some compound =>
      -- Behind an operand two signs stay apart if together they take no second operand.
      if compound.binary.isSome || !(before.head?.any isOperand) then
        merge t (.operator compound false :: before) rest
      else merge t (.operator op false :: .operator previous single :: before) rest
    | none => merge t (.operator op false :: .operator previous single :: before) rest
  | before, .operator op _ :: rest => merge t (.operator op false :: before) rest

/-! ## Forms

A sign can stand between two operands or in front of one. Which it is depends on its left alone, so
the forms are settled in one pass before anything is applied. -/

/-- The form of each operator, which depends on whether an operand stands on its left. An operator
that has no form for its place is refused here, with the reason told as far as one element ahead
allows. -/
def classify (equation : Text) :
    Bool → List EquationElement → Except Fault (List EquationElement)
  | _, [] => .ok []
  | _, .operand o :: rest => (classify equation true rest).map (.operand o :: ·)
  | operandLeft, .operator op _ :: rest =>
    if operandLeft && op.binary.isSome then
      (classify equation false rest).map (.operator op false :: ·)
    else if op.unary.isNone then
      if operandLeft || rest.head?.any (fun e => !e.isOperand) then
        .error (.malformedEquation equation ("operator ".toList ++ Fault.quoted op.symbol ++
          " cannot follow another operator".toList))
      else .error (.missingOperand op.symbol)
    else if operandLeft then
      .error (.malformedEquation equation ("operator ".toList ++ Fault.quoted op.symbol ++
        " takes a single argument on its right".toList))
    else (classify equation false rest).map (.operator op true :: ·)

/-! ## Application

Operators are applied one at a time. The list gets shorter with each one, which is why `reduce`
comes to an end. -/

/-- Applies the leftmost operator of the given priority that has its operands beside it. There is
none if such operators are all kept from their operands by others. -/
def contract (p : Nat) : List EquationElement → Option (Except Fault (List EquationElement))
  | .operand l :: .operator op false :: .operand r :: rest =>
    if op.priority = p then
      some ((op.applyBinary l r).map fun o => .operand o :: rest)
    else
      (contract p (.operator op false :: .operand r :: rest)).map fun x => x.map (.operand l :: ·)
  | .operator op true :: .operand r :: rest =>
    if op.unaryPriority = p then
      some ((op.applyUnary r).map fun o => .operand o :: rest)
    else (contract p (.operand r :: rest)).map fun x => x.map (.operator op true :: ·)
  | e :: rest => (contract p rest).map fun x => x.map (e :: ·)
  | [] => none

/-- A value that is mapped to another one was there before. -/
theorem exceptMap_eq_ok_iff {α β : Type} {f : α → β} {x : Except Fault α} {b : β} :
    x.map f = .ok b ↔ ∃ a, x = .ok a ∧ f a = b := by
  cases x <;> simp [Except.map]

/-- An application that happens behind an element leaves that element in front. -/
theorem exists_of_contract_behind {e : EquationElement} {es' : List EquationElement}
    {behind : Option (Except Fault (List EquationElement))}
    (h : behind.map (fun x => x.map (e :: ·)) = some (.ok es')) :
    ∃ es'', behind = some (.ok es'') ∧ e :: es'' = es' := by
  obtain ⟨x, rfl, hx⟩ := Option.map_eq_some_iff.mp h
  obtain ⟨es'', rfl, rfl⟩ := exceptMap_eq_ok_iff.mp hx
  exact ⟨es'', rfl, rfl⟩

theorem length_lt_of_contract {p : Nat} {es es' : List EquationElement}
    (h : contract p es = some (.ok es')) : es'.length < es.length := by
  fun_induction contract p es generalizing es' with
  | case1 l op r rest hp =>
    obtain ⟨o, _, rfl⟩ := exceptMap_eq_ok_iff.mp (Option.some.inj h)
    simp
  | case2 l op r rest hp ih =>
    obtain ⟨es'', hes'', rfl⟩ := exists_of_contract_behind h
    exact Nat.succ_lt_succ (ih hes'')
  | case3 op r rest hp =>
    obtain ⟨o, _, rfl⟩ := exceptMap_eq_ok_iff.mp (Option.some.inj h)
    simp
  | case4 op r rest hp ih =>
    obtain ⟨es'', hes'', rfl⟩ := exists_of_contract_behind h
    exact Nat.succ_lt_succ (ih hes'')
  | case5 e rest _ _ ih =>
    obtain ⟨es'', hes'', rfl⟩ := exists_of_contract_behind h
    exact Nat.succ_lt_succ (ih hes'')
  | case6 => simp at h

/-- The highest priority among operators, in the forms they are taken in. -/
def maxPriority? (es : List EquationElement) : Option Nat := (es.filterMap priority?).max?

/-- The symbol of the first operator of the given priority, which is what an error calls the one
that could not be applied. -/
def symbolOf (p : Nat) : List EquationElement → Text
  | [] => []
  | .operator op single :: rest =>
    if (EquationElement.operator op single).priority? = some p then op.symbol else symbolOf p rest
  | .operand _ :: rest => symbolOf p rest

/-- Applies all operators, those of highest priority first. It is a recursion on the length of the
list, and says what is wrong with a list that cannot get shorter. -/
def reduce (equation : Text) (es : List EquationElement) : Except Fault Operand :=
  match es with
  | [] => .error (.malformedEquation equation "empty equation".toList)
  | [.operand o] => .ok o
  | [.operator op _] => .error (.missingOperand op.symbol)
  | es =>
    match maxPriority? es with
    | none => .error (.unreduced equation)
    | some p =>
      match _h : contract p es with
      | none => .error (.missingOperand (symbolOf p es))
      | some (.error f) => .error f
      | some (.ok es') => reduce equation es'
termination_by es.length
decreasing_by exact length_lt_of_contract _h

/-- The operand that a list of elements comes down to: merged, classified and reduced, in this
order. -/
def settle (t : OperatorTable) (equation : Text) (es : List EquationElement) :
    Except Fault Operand :=
  (classify equation false (merge t [] es)).bind (reduce equation)

end EquationElement

/-! ## From tokens to elements

Values are looked up here and only here. They are looked up from left to right, groups at their
place, before the first operator is applied; so an operand that is not needed is looked up as
well. -/

section

variable {μ : Type → Type} [Monad μ] [Failing μ]

mutual

/-- The element of a token. A value without quotes is what `resolve` makes of it, and one with
quotes is the text itself. A fault is raised when it is reached, behind the look-ups in front of
it. -/
def EquationToken.element (t : OperatorTable) (resolve : Text → μ Text) :
    EquationToken → μ EquationElement
  | .word w => do return .operand (.text (← resolve w))
  | .quoted q => pure (.operand (.text q))
  | .operator op => pure (.operator op false)
  | .group equation tokens => do
    let elements ← EquationToken.elements t resolve tokens
    return .operand (← ofOutcome (EquationElement.settle t equation elements))
  | .fault f => fail f

def EquationToken.elements (t : OperatorTable) (resolve : Text → μ Text) :
    List EquationToken → μ (List EquationElement)
  | [] => pure []
  | token :: tokens => do
    let element ← EquationToken.element t resolve token
    return element :: (← EquationToken.elements t resolve tokens)

end

/-- The operand an equation comes down to, its values looked up by `resolve`. The monad is a
parameter, so that the same definition serves templates, where looking up may call actions, and the
plain case, where it does nothing. -/
def evaluate (f : EquationFormat) (resolve : Text → μ Text) (equation : Text) : μ Operand := do
  let elements ← EquationToken.elements f.operators resolve (EquationToken.tokens f equation)
  ofOutcome (EquationElement.settle f.operators equation elements)

end

def evaluatePlain (f : EquationFormat) (equation : Text) : Except Fault Operand :=
  evaluate f Except.ok equation

end MarkupTemplate
