import MarkupTemplate.Dictionary
import MarkupTemplate.Error.Fault
import MarkupTemplate.Equation.Operand

/-!
# Operators

An operator has a form with two operands, one with a single operand, or both. Each form has up to
four rules, one for each type, and uses the first whose type all its operands can be read as, in the
order truth values, integers, floats, texts.

A table holds operators by their symbols, and says which neighbouring operators merge into one.
-/

set_option autoImplicit false

namespace MarkupTemplate

/-- The result of applying an operator, or the fault for which it cannot be applied. -/
abbrev Applied := Except Fault Operand

/-- The rules of a form with two operands. One that is not there is skipped, so the next type is
tried. -/
structure BinaryRules where
  boolean : Option (Bool → Bool → Applied) := none
  int : Option (Int64 → Int64 → Applied) := none
  float : Option (Float → Float → Applied) := none
  text : Option (Text → Text → Applied) := none

/-- The rules of a form with a single operand. -/
structure UnaryRules where
  boolean : Option (Bool → Applied) := none
  int : Option (Int64 → Applied) := none
  float : Option (Float → Applied) := none
  text : Option (Text → Applied) := none

/-- An operator. Of two operators in an equation the one of higher priority is applied first. -/
structure Operator where
  symbol : Text
  /-- The priority of the form with two operands. -/
  priority : Nat
  /-- The priority of the form with a single operand. -/
  unaryPriority : Nat := 6
  binary : Option BinaryRules := none
  unary : Option UnaryRules := none

namespace Operator

/-- The result of the first rule for which both operands have a reading. The rule for texts always
applies if there is one, and a rule that answers with a fault has answered: no other one is
tried. -/
def applyRules (rules : BinaryRules) (left right : Operand) : Option Applied :=
  let boolean := do some ((← rules.boolean) (← left.asBool?) (← right.asBool?))
  let int := do some ((← rules.int) (← left.asInt?) (← right.asInt?))
  let float := do some ((← rules.float) (← left.asFloat?) (← right.asFloat?))
  let text := do some ((← rules.text) left.display right.display)
  boolean.or (int.or (float.or text))

/-- The operator applied to two operands. An operator without that form lacks an operand; one none
of whose rules applies does not support the operands. -/
def applyBinary (op : Operator) (left right : Operand) : Applied :=
  match op.binary with
  | none => .error (.missingOperand op.symbol)
  | some rules =>
    (applyRules rules left right).getD <| .error <| .unsupportedOperands op.symbol
      (left.spelledType ++ " and ".toList ++ right.spelledType)

/-- The result of the first rule for which the operand has a reading. -/
def applyUnaryRules (rules : UnaryRules) (operand : Operand) : Option Applied :=
  let boolean := do some ((← rules.boolean) (← operand.asBool?))
  let int := do some ((← rules.int) (← operand.asInt?))
  let float := do some ((← rules.float) (← operand.asFloat?))
  let text := do some ((← rules.text) operand.display)
  boolean.or (int.or (float.or text))

def applyUnary (op : Operator) (operand : Operand) : Applied :=
  match op.unary with
  | none => .error (.missingOperand op.symbol)
  | some rules =>
    (applyUnaryRules rules operand).getD <| .error <|
      .unsupportedOperands op.symbol operand.spelledType

end Operator

/-- Operators by symbol, and the rules by which two neighbours become one. A host may register
others, and what is proved about equations is mostly proved for any table. -/
structure OperatorTable where
  operators : Dictionary Operator := {}
  /-- Symbols of two neighbours, and the symbol they merge into; the first entry counts. -/
  merges : List ((Text × Text) × Text) := []
deriving Inhabited

namespace OperatorTable

def register (t : OperatorTable) (op : Operator) : OperatorTable :=
  { t with operators := t.operators.insert op.symbol op }

/-- Adds a rule in front of the others, so that it is the one that counts. -/
def registerMerge (t : OperatorTable) (first second merged : Text) : OperatorTable :=
  { t with merges := ((first, second), merged) :: t.merges }

def get? (t : OperatorTable) (symbol : Text) : Option Operator := t.operators.get? symbol

/-- The symbol that two neighbours merge into. -/
def mergedSymbol? (first second : Text) : List ((Text × Text) × Text) → Option Text
  | [] => none
  | (pair, merged) :: rest =>
    if pair = (first, second) then some merged else mergedSymbol? first second rest

def merge? (t : OperatorTable) (first second : Text) : Option Operator :=
  (mergedSymbol? first second t.merges).bind t.get?

/-- The operator of one character. Only these are found when an equation is cut; the longer ones
come out of merging. -/
def ofChar? (t : OperatorTable) (c : Char) : Option Operator := t.get? [c]

def isOperatorChar (t : OperatorTable) (c : Char) : Bool := (t.ofChar? c).isSome

end OperatorTable

end MarkupTemplate
