import MarkupTemplate.Equation.Evaluation

/-!
# What an equation means

A list of operands and operators is an equation if it is a row of units with a two-operand operator
between neighbours, and a unit is an operand behind any number of single-operand operators. That is
`IsEquation`; it says nothing about priorities.

Priorities decide which of the trees over the same row is meant. A tree is `Grouped` if

* an operator with a single operand never stands above one with two, so it takes the unit right
  behind it;
* on the left of a two-operand operator only operators of the same or a higher priority stand, and
  on the right only those of a higher one, so equal priorities group from the left.

`exists_tree_iff` says that exactly the equations have such a tree, and `Grouped.eq_of_written` that
they have one only. So `EquationTree.eval` gives every equation one meaning, and nothing in it
follows the way in which equations are reduced.

A tree is found by taking the units of a row in one by one: an operator goes down the right side of
what is there, past all roots of a lower priority (`extend`). That there is no other one is seen at
the roots: of two different roots over the same row, each would have to be of a higher priority than
the other (`Grouped.not_split`).
-/

set_option autoImplicit false

namespace MarkupTemplate

namespace EquationElement

/-- The element as it is before the forms of operators are decided. -/
def unmarked : EquationElement → EquationElement
  | operand o => operand o
  | operator op _ => operator op false

@[simp] theorem unmarked_operand (o : Operand) : (operand o).unmarked = operand o := rfl

@[simp] theorem unmarked_operator (op : Operator) (single : Bool) :
    (operator op single).unmarked = operator op false := rfl

/-- `U ::= prefix* operand`. -/
inductive IsUnit : List EquationElement → Prop
  | operand (o : Operand) : IsUnit [.operand o]
  | single {op : Operator} {mark : Bool} {es : List EquationElement} :
      op.unary.isSome = true → IsUnit es → IsUnit (.operator op mark :: es)

/-- `E ::= U (infix U)*`. -/
inductive IsEquation : List EquationElement → Prop
  | unit {es : List EquationElement} : IsUnit es → IsEquation es
  | double {op : Operator} {mark : Bool} {us es : List EquationElement} :
      IsUnit us → op.binary.isSome = true → IsEquation es →
        IsEquation (us ++ .operator op mark :: es)

theorem isUnit_map_unmarked {es : List EquationElement} :
    IsUnit (es.map unmarked) ↔ IsUnit es := by
  constructor
  · intro h
    induction es with
    | nil => exact absurd h (by rintro ⟨⟩)
    | cons e es ih =>
      cases e with
      | operand o =>
        cases es with
        | nil => exact .operand o
        | cons e es => exact absurd h (by rintro ⟨⟩)
      | operator op mark =>
        cases h with
        | single hop hes => exact .single hop (ih hes)
  · intro h
    induction h with
    | operand o => exact .operand o
    | single hop _ ih => exact .single hop ih

/-- Marks are no part of it for equations either. -/
theorem isEquation_map_unmarked {es : List EquationElement} :
    IsEquation (es.map unmarked) ↔ IsEquation es := by
  constructor
  · intro h
    -- The marks are read off the elements again, which a grammar without marks leaves open.
    generalize hs : es.map unmarked = s at h
    induction h generalizing es with
    | unit hu => exact .unit (isUnit_map_unmarked.mp (hs ▸ hu))
    | double hu hop _ ih =>
      obtain ⟨us, rest, rfl, rfl, hrest⟩ := List.map_eq_append_iff.mp hs
      obtain ⟨e, rest, rfl, he, rfl⟩ := List.map_eq_cons_iff.mp hrest
      cases e with
      | operand o => exact absurd he (by simp)
      | operator op mark =>
        cases he
        exact .double (isUnit_map_unmarked.mp hu) hop (ih rfl)
  · intro h
    induction h with
    | unit hu => exact .unit (isUnit_map_unmarked.mpr hu)
    | double hu hop _ ih =>
      rw [List.map_append, List.map_cons]
      exact .double (isUnit_map_unmarked.mpr hu) hop ih

/-- Two equations with an operator between them are an equation. -/
theorem IsEquation.append {es fs : List EquationElement} {op : Operator} {mark : Bool}
    (he : IsEquation es) (hop : op.binary.isSome = true) (hf : IsEquation fs) :
    IsEquation (es ++ .operator op mark :: fs) := by
  induction he with
  | unit hu => exact .double hu hop hf
  | double hu hop' _ ih =>
    rw [List.append_assoc, List.cons_append]
    exact .double hu hop' ih

end EquationElement

/-- An equation with its operators put above their operands. -/
inductive EquationTree where
  | operand (o : Operand)
  | single (op : Operator) (tree : EquationTree)
  | double (op : Operator) (left right : EquationTree)

namespace EquationTree

open EquationElement

/-- The elements of a tree from left to right, each operator marked with its form. -/
def elements : EquationTree → List EquationElement
  | operand o => [.operand o]
  | single op tree => .operator op true :: tree.elements
  | double op left right => left.elements ++ .operator op false :: right.elements

/-- The elements of a tree as an equation writes them. -/
def written (tree : EquationTree) : List EquationElement := tree.elements.map unmarked

/-- The priority of the operator at the root, if it takes two operands. -/
def priority? : EquationTree → Option Nat
  | double op _ _ => some op.priority
  | _ => none

/-- Whether the operators of a tree have the forms in which they are used, and stand above each
other as their priorities say. -/
def Grouped : EquationTree → Prop
  | operand _ => True
  | single op tree => op.unary.isSome = true ∧ tree.priority? = none ∧ tree.Grouped
  | double op left right =>
    op.binary.isSome = true ∧ (∀ p, left.priority? = some p → op.priority ≤ p) ∧
      (∀ p, right.priority? = some p → op.priority < p) ∧ left.Grouped ∧ right.Grouped

/-- What a tree comes down to: operands first, the left one before the right one. -/
def eval : EquationTree → Applied
  | operand o => .ok o
  | single op tree => tree.eval.bind op.applyUnary
  | double op left right => left.eval.bind fun a => right.eval.bind fun b => op.applyBinary a b

@[simp] theorem written_operand (o : Operand) : (operand o).written = [.operand o] := rfl

@[simp] theorem written_single (op : Operator) (tree : EquationTree) :
    (single op tree).written = .operator op false :: tree.written := rfl

@[simp] theorem written_double (op : Operator) (left right : EquationTree) :
    (double op left right).written = left.written ++ .operator op false :: right.written := by
  simp [written, elements]

theorem elements_ne_nil (tree : EquationTree) : tree.elements ≠ [] := by
  cases tree <;> simp [elements]

/-! ## Every equation has a tree

The two directions of `exists_tree_iff`. The grammar of equations groups from the right, so the
induction carries the tree of what stands in front along. -/

/-- A grouped tree without a two-operand operator at its root is a unit. -/
theorem Grouped.isUnit {tree : EquationTree} (h : tree.Grouped) (hp : tree.priority? = none) :
    IsUnit tree.written := by
  induction tree with
  | operand o => exact .operand o
  | single op tree ih => exact .single h.1 (ih h.2.2 h.2.1)
  | double op left right => exact absurd hp (by simp [priority?])

theorem Grouped.isEquation {tree : EquationTree} (h : tree.Grouped) : IsEquation tree.written := by
  induction tree with
  | operand o => exact .unit (.operand o)
  | single op tree => exact .unit (h.isUnit rfl)
  | double op left right ihl ihr =>
    rw [written_double]
    exact (ihl h.2.2.2.1).append h.1 (ihr h.2.2.2.2)

/-- A unit has a tree: its operators one above the other. -/
theorem exists_tree_of_isUnit {es : List EquationElement} (h : IsUnit es) :
    ∃ tree : EquationTree,
      tree.Grouped ∧ tree.priority? = none ∧ tree.written = es.map unmarked := by
  induction h with
  | operand o => exact ⟨operand o, trivial, rfl, rfl⟩
  | @single op _ _ hop _ ih =>
    obtain ⟨tree, hg, hp, hw⟩ := ih
    exact ⟨single op tree, ⟨hop, hp, hg⟩, rfl, by simp [hw]⟩

/-- The tree of an equation with one more operator and unit at its end: the operator goes down the
right side as far as the operators there have lower priorities. -/
def extend (op : Operator) (unit : EquationTree) : EquationTree → EquationTree
  | double above left right =>
    if above.priority < op.priority then double above left (extend op unit right)
    else double op (double above left right) unit
  | tree => double op tree unit

/-- What is added to a tree is written behind it. -/
theorem written_extend (op : Operator) (unit tree : EquationTree) :
    (extend op unit tree).written = tree.written ++ .operator op false :: unit.written := by
  induction tree with
  | operand o => simp [extend]
  | single op' tree => simp [extend]
  | double above left right _ ihr =>
    unfold extend
    split <;> simp [ihr]

/-- The root of an extended tree is the new operator or the old root. -/
theorem priority?_extend {op : Operator} {unit tree : EquationTree} {p : Nat}
    (h : (extend op unit tree).priority? = some p) :
    p = op.priority ∨ tree.priority? = some p := by
  cases tree with
  | operand o => exact Or.inl (Option.some.inj h).symm
  | single op' tree => exact Or.inl (Option.some.inj h).symm
  | double above left right =>
    unfold extend at h
    split at h
    · exact Or.inr h
    · exact Or.inl (Option.some.inj h).symm

theorem Grouped.extend {op : Operator} {unit tree : EquationTree} (h : tree.Grouped)
    (hop : op.binary.isSome = true) (hu : unit.Grouped) (hp : unit.priority? = none) :
    (extend op unit tree).Grouped := by
  have hright : ∀ p, unit.priority? = some p → op.priority < p := by
    intro p hq
    rw [hp] at hq
    exact absurd hq (by simp)
  induction tree with
  | operand o => exact ⟨hop, fun p hq => absurd hq (by simp [priority?]), hright, h, hu⟩
  | single op' tree => exact ⟨hop, fun p hq => absurd hq (by simp [priority?]), hright, h, hu⟩
  | double above left right _ ihr =>
    unfold EquationTree.extend
    -- The new operator binds more tightly, and goes down to the right; or it goes on top.
    split
    · next hlt =>
      refine ⟨h.1, h.2.1, fun p hq => ?_, h.2.2.2.1, ihr h.2.2.2.2⟩
      rcases priority?_extend hq with rfl | hq
      · exact hlt
      · exact h.2.2.1 p hq
    · next hge =>
      refine ⟨hop, fun p hq => ?_, hright, h, hu⟩
      obtain rfl := Option.some.inj hq
      exact Nat.le_of_not_lt hge

/-- The induction behind `exists_tree_iff`: what stands in front of an equation has become a tree
already. -/
theorem exists_tree_append {op : Operator} {es : List EquationElement} (he : IsEquation es)
    (hop : op.binary.isSome = true) (tree : EquationTree) (hg : tree.Grouped) :
    ∃ tree' : EquationTree, tree'.Grouped ∧
      tree'.written = tree.written ++ .operator op false :: es.map unmarked := by
  -- The units come one after another from the left, and each one extends the tree on its right
  -- edge.
  induction he generalizing op tree with
  | unit hu =>
    obtain ⟨unit, hgu, hpu, hwu⟩ := exists_tree_of_isUnit hu
    exact ⟨extend op unit tree, hg.extend hop hgu hpu, by rw [written_extend, hwu]⟩
  | double hu hop' _ ih =>
    obtain ⟨unit, hgu, hpu, hwu⟩ := exists_tree_of_isUnit hu
    obtain ⟨tree', hg', hw'⟩ := ih hop' (extend op unit tree) (hg.extend hop hgu hpu)
    refine ⟨tree', hg', ?_⟩
    rw [hw', written_extend, hwu]
    simp

/-- **Exactly the equations have a grouped tree.** -/
theorem exists_tree_iff {es : List EquationElement} :
    (∃ tree : EquationTree, tree.Grouped ∧ tree.written = es.map unmarked) ↔ IsEquation es := by
  constructor
  · rintro ⟨tree, hg, hw⟩
    exact isEquation_map_unmarked.mp (hw ▸ hg.isEquation)
  · intro h
    cases h with
    | unit hu =>
      obtain ⟨tree, hg, _, hw⟩ := exists_tree_of_isUnit hu
      exact ⟨tree, hg, hw⟩
    | double hu hop he =>
      obtain ⟨unit, hg, _, hw⟩ := exists_tree_of_isUnit hu
      obtain ⟨tree, hg', hw'⟩ := exists_tree_append he hop unit hg
      exact ⟨tree, hg', by rw [hw', hw]; simp⟩

/-! ## Marks

The form of an operator depends on what stands on its left alone, so the elements of a tree can be
told from what is written. -/

end EquationTree

namespace EquationElement

/-- The elements with each operator marked with the form that its place asks for. -/
def marked : Bool → List EquationElement → List EquationElement
  | _, [] => []
  | _, operand o :: es => operand o :: marked true es
  | operandLeft, operator op _ :: es => operator op (!operandLeft) :: marked false es

@[simp] theorem marked_map_unmarked (operandLeft : Bool) (es : List EquationElement) :
    marked operandLeft (es.map unmarked) = marked operandLeft es := by
  induction es generalizing operandLeft with
  | nil => rfl
  | cons e es ih => cases e <;> simp [marked, ih]

end EquationElement

namespace EquationTree

open EquationElement

/-- The elements of a tree in front of others are told from what is written, as behind them stands
an operand. -/
theorem marked_written_append (tree : EquationTree) (es : List EquationElement) :
    marked false (tree.written ++ es) = tree.elements ++ marked true es := by
  induction tree generalizing es with
  | operand o => rfl
  | single op tree ih => simp [marked, elements, ih]
  | double op left right ihl ihr => simp [marked, elements, ihl, ihr]

/-- The elements of a tree are told from what is written. -/
theorem marked_written (tree : EquationTree) : marked false tree.written = tree.elements := by
  have h := marked_written_append tree []
  rwa [List.append_nil, marked, List.append_nil] at h

/-- Two ways to come by the elements of a tree. -/
theorem elements_of_written {tree : EquationTree} {es : List EquationElement}
    (h : tree.written = es.map unmarked) : tree.elements = marked false es := by
  rw [← marked_written, h, marked_map_unmarked]

/-! ## No equation has two trees

By induction on one of the trees, comparing the roots. -/

/-- Every two-operand operator of a grouped tree has at least the priority of the root. -/
theorem Grouped.priority?_le {tree : EquationTree} (h : tree.Grouped) (op : Operator)
    (hm : EquationElement.operator op false ∈ tree.elements) :
    ∃ p, tree.priority? = some p ∧ p ≤ op.priority := by
  -- From the top of a grouped tree the operators bind more and more tightly.
  induction tree with
  | operand o => exact absurd hm (by simp [elements])
  | single op' tree ih =>
    obtain ⟨p, hp, _⟩ := ih h.2.2 (by simpa [elements] using hm)
    rw [h.2.1] at hp
    exact absurd hp (by simp)
  | double op' left right ihl ihr =>
    refine ⟨op'.priority, rfl, ?_⟩
    rcases List.mem_append.mp hm with hm | hm
    · obtain ⟨p, hp, hle⟩ := ihl h.2.2.2.1 hm
      exact Nat.le_trans (h.2.1 p hp) hle
    · rcases List.mem_cons.mp hm with heq | hm
      · cases heq
        exact Nat.le_refl _
      · obtain ⟨p, hp, hle⟩ := ihr h.2.2.2.2 hm
        exact Nat.le_of_lt (Nat.lt_of_lt_of_le (h.2.2.1 p hp) hle)

/-- A root is never inside the right operand of a root over the same elements: it would have to be
of a higher priority than itself. -/
theorem Grouped.not_split {op op' : Operator} {left right left' right' : EquationTree}
    {between : List EquationElement} (h : (double op left right).Grouped)
    (h' : (double op' left' right').Grouped)
    (hl : left'.elements = left.elements ++ .operator op false :: between)
    (hr : right.elements = between ++ .operator op' false :: right'.elements) : False := by
  obtain ⟨p, hp, hle⟩ := h.2.2.2.2.priority?_le op' (by rw [hr]; simp)
  obtain ⟨q, hq, hle'⟩ := h'.2.2.2.1.priority?_le op (by rw [hl]; simp)
  have hop := h.2.2.1 p hp
  have hop' := h'.2.1 q hq
  omega

/-- **Grouped trees over the same elements are equal.** -/
theorem Grouped.eq_of_elements {tree tree' : EquationTree} (h : tree.Grouped) (h' : tree'.Grouped)
    (he : tree.elements = tree'.elements) : tree = tree' := by
  induction tree generalizing tree' with
  | operand o =>
    cases tree' with
    | operand o' => cases he; rfl
    | single op' t' => exact absurd he (by simp [elements])
    | double op' l' r' =>
      obtain ⟨p, hp, _⟩ := h.priority?_le op' (by rw [he]; simp [elements])
      exact absurd hp (by simp [priority?])
  | single op t ih =>
    cases tree' with
    | operand o' => exact absurd he (by simp [elements])
    | single op' t' =>
      obtain ⟨hop, ht⟩ := List.cons.inj he
      cases hop
      rw [ih h.2.2 h'.2.2 ht]
    | double op' l' r' =>
      obtain ⟨p, hp, _⟩ := h.priority?_le op' (by rw [he]; simp [elements])
      exact absurd hp (by simp [priority?])
  | double op l r ihl ihr =>
    cases tree' with
    | operand o' =>
      obtain ⟨p, hp, _⟩ := h'.priority?_le op (by rw [← he]; simp [elements])
      exact absurd hp (by simp [priority?])
    | single op' t' =>
      obtain ⟨p, hp, _⟩ := h'.priority?_le op (by rw [← he]; simp [elements])
      exact absurd hp (by simp [priority?])
    | double op' l' r' =>
      -- The two roots are the same element, or one of them is inside the other's operand.
      rcases List.append_eq_append_iff.mp he with ⟨s, hl, hr⟩ | ⟨s, hl, hr⟩
      · cases s with
        | nil =>
          rw [List.append_nil] at hl
          obtain ⟨hop, hrr⟩ := List.cons.inj hr
          cases hop
          rw [ihl h.2.2.2.1 h'.2.2.2.1 hl.symm, ihr h.2.2.2.2 h'.2.2.2.2 hrr]
        | cons e s =>
          obtain ⟨rfl, hrr⟩ := List.cons.inj hr
          exact (h.not_split h' hl hrr).elim
      · cases s with
        | nil =>
          rw [List.append_nil] at hl
          obtain ⟨hop, hrr⟩ := List.cons.inj hr
          cases hop
          rw [ihl h.2.2.2.1 h'.2.2.2.1 hl, ihr h.2.2.2.2 h'.2.2.2.2 hrr.symm]
        | cons e s =>
          obtain ⟨rfl, hrr⟩ := List.cons.inj hr
          exact (h'.not_split h hl hrr).elim

theorem Grouped.eq_of_written {tree tree' : EquationTree} (h : tree.Grouped) (h' : tree'.Grouped)
    (hw : tree.written = tree'.written) : tree = tree' :=
  h.eq_of_elements h' (by rw [← marked_written, hw, marked_written])

end EquationTree

end MarkupTemplate
