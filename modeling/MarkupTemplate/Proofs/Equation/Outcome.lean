import MarkupTemplate.Proofs.Equation.Reduction

/-!
# The outcome of an equation

`classify` and `reduce` together accept exactly the equations, and give them the value of their
grouped tree. The operators are those of a table in which signs **bind tightest**: their
single-operand forms share one priority, and all two-operand forms have a lower one. The standard
table is of this kind (`OperatorTable.standard_singlesBindTightest`).

Here the two halves meet. What an equation means is said by its tree, which knows nothing of the
order in which operators are applied; how it is reduced is said by rewriting a list, which knows
nothing of trees. They agree step by step (`reduce_elements_eq_ok_iff`).
-/

set_option autoImplicit false

namespace MarkupTemplate

/-! ## Tables -/

/-- Whether all single-operand forms of a table have the given priority, and all its two-operand
forms a lower one. -/
def OperatorTable.SinglesBindTightest (t : OperatorTable) (singles : Nat) : Prop :=
  ∀ symbol op, t.get? symbol = some op →
    (op.unary.isSome = true → op.unaryPriority = singles) ∧
      (op.binary.isSome = true → op.priority < singles)

/-- Whether all operators in a list are from a table. -/
def OperatorTable.Covers (t : OperatorTable) (es : List EquationElement) : Prop :=
  ∀ op mark, EquationElement.operator op mark ∈ es → ∃ symbol, t.get? symbol = some op

/-- What is found under a name is an entry of that name. -/
theorem Dictionary.mem_of_lookup {α : Type} {entries : List (Text × α)} {name : Text} {a : α}
    (h : lookup name entries = some a) : (name, a) ∈ entries := by
  induction entries with
  | nil => exact absurd h (by simp [lookup])
  | cons e entries ih =>
    obtain ⟨n, b⟩ := e
    unfold lookup at h
    split at h
    · next hname =>
      obtain rfl := Option.some.inj h
      rw [hname]
      exact List.mem_cons_self
    · exact List.mem_cons_of_mem _ (ih h)

theorem OperatorTable.standard_singlesBindTightest :
    OperatorTable.standard.SinglesBindTightest 6 := by
  intro symbol op h
  have hall : ∀ e ∈ OperatorTable.standard.operators.entries,
      (e.2.unary.isSome = true → e.2.unaryPriority = 6) ∧
        (e.2.binary.isSome = true → e.2.priority < 6) := by decide
  exact hall _ (Dictionary.mem_of_lookup h)

namespace EquationElement

/-- Marking an operator makes no other one of it. -/
theorem mem_of_mem_marked {op : Operator} {mark operandLeft : Bool} {es : List EquationElement}
    (h : operator op mark ∈ marked operandLeft es) : ∃ mark', operator op mark' ∈ es := by
  induction es generalizing operandLeft with
  | nil => exact absurd h (by simp [marked])
  | cons e es ih =>
    cases e with
    | operand o =>
      rcases List.mem_cons.mp h with heq | h
      · exact absurd heq (by simp)
      · obtain ⟨mark', hm⟩ := ih h
        exact ⟨mark', List.mem_cons_of_mem _ hm⟩
    | operator op' mark' =>
      rcases List.mem_cons.mp h with heq | h
      · cases heq
        exact ⟨mark', List.mem_cons_self⟩
      · obtain ⟨mark'', hm⟩ := ih h
        exact ⟨mark'', List.mem_cons_of_mem _ hm⟩

/-- With a table of this kind, what `classify` lets through has its signs first. -/
theorem singlesFirst_of_hasForm {t : OperatorTable} {singles : Nat}
    (ht : t.SinglesBindTightest singles) {es : List EquationElement} (hes : t.Covers es)
    {operandLeft : Bool} (hf : ∀ e ∈ marked operandLeft es, e.HasForm) :
    SinglesFirst singles (marked operandLeft es) := by
  intro op
  constructor
  · intro hm
    obtain ⟨mark, hmark⟩ := mem_of_mem_marked hm
    obtain ⟨symbol, hop⟩ := hes op mark hmark
    exact (ht symbol op hop).1 (hf _ hm)
  · intro hm
    obtain ⟨mark, hmark⟩ := mem_of_mem_marked hm
    obtain ⟨symbol, hop⟩ := hes op mark hmark
    exact (ht symbol op hop).2 (hf _ hm)

/-! ## The whole reduction

A round looks for the highest priority and applies the first operator that has it. It goes on until
nothing is left to apply, so an induction on the number of elements is enough. -/

/-- The highest priority is that of an element, and no element has a higher one. -/
theorem maxPriority?_eq_some_iff {es : List EquationElement} {p : Nat} :
    maxPriority? es = some p ↔
      (∃ e ∈ es, e.priority? = some p) ∧ ∀ e ∈ es, ∀ q, e.priority? = some q → q ≤ p := by
  simp only [maxPriority?, List.max?_eq_some_iff, List.mem_filterMap]
  constructor
  · rintro ⟨hp, hle⟩
    exact ⟨hp, fun e he q hq => hle q ⟨e, he, hq⟩⟩
  · rintro ⟨hp, hle⟩
    exact ⟨hp, fun q ⟨e, he, hq⟩ => hle e he q hq⟩

/-- If there is an operator, there is a highest priority. -/
theorem maxPriority?_isSome {es : List EquationElement} {op : Operator} {mark : Bool}
    (h : operator op mark ∈ es) : ∃ p, maxPriority? es = some p := by
  have hm : (if mark then op.unaryPriority else op.priority) ∈ es.filterMap priority? :=
    List.mem_filterMap.mpr ⟨_, h, rfl⟩
  cases hx : maxPriority? es with
  | some p => exact ⟨p, rfl⟩
  | none =>
    rw [maxPriority?, List.max?_eq_none_iff] at hx
    rw [hx] at hm
    exact absurd hm (by simp)

theorem reduce_of_contract {equation : Text} {es : List EquationElement} {p : Nat}
    {x : Except Fault (List EquationElement)} (hlen : 1 < es.length)
    (hp : maxPriority? es = some p) (hc : contract p es = some x) :
    reduce equation es = x.bind (reduce equation) := by
  rw [reduce.eq_def]
  split
  · exact absurd hlen (by simp)
  · exact absurd hlen (by simp)
  · exact absurd hlen (by simp)
  · rw [hp]
    simp only
    split
    · next h => exact absurd (h.symm.trans hc) (by simp)
    · next h => obtain rfl := Option.some.inj (h.symm.trans hc); rfl
    · next h => obtain rfl := Option.some.inj (h.symm.trans hc); rfl

end EquationElement

namespace EquationTree

open EquationElement

theorem Step.singlesFirst {tree tree' : EquationTree} {singles : Nat} (h : Step tree (.ok tree'))
    (hs : SinglesFirst singles tree.elements) : SinglesFirst singles tree'.elements :=
  fun op => ⟨fun hm => (hs op).1 (h.mem_of_mem hm), fun hm => (hs op).2 (h.mem_of_mem hm)⟩

/-- A tree with an operator has more than one element. -/
theorem one_lt_length {tree : EquationTree} {op : Operator} {mark : Bool}
    (h : EquationElement.operator op mark ∈ tree.elements) : 1 < tree.elements.length := by
  cases tree with
  | operand o => exact absurd h (by simp [elements])
  | single op' tree =>
    have := List.length_pos_iff.mpr tree.elements_ne_nil
    simp only [elements, List.length_cons]
    omega
  | double op' l r =>
    have := List.length_pos_iff.mpr l.elements_ne_nil
    simp only [elements, List.length_append, List.length_cons]
    omega

/-- **The elements of a grouped tree reduce to its value.** -/
theorem reduce_elements_eq_ok_iff {equation : Text} {tree : EquationTree} {singles : Nat}
    (hg : tree.Grouped) (hs : SinglesFirst singles tree.elements) (v : Operand) :
    reduce equation tree.elements = .ok v ↔ tree.eval = .ok v := by
  -- By induction on the number of elements: every application leaves fewer.
  generalize hn : tree.elements.length = n
  induction n using Nat.strongRecOn generalizing tree with
  | ind n ih =>
    have round : ∀ op mark, EquationElement.operator op mark ∈ tree.elements →
        (reduce equation tree.elements = .ok v ↔ tree.eval = .ok v) := by
      intro op mark hop
      obtain ⟨p, hp⟩ := maxPriority?_isSome hop
      obtain ⟨hocc, hle⟩ := maxPriority?_eq_some_iff.mp hp
      obtain ⟨x, hx, hc⟩ := contract_elements hg hs hle hocc
      have hc' : contract p tree.elements = some (x.map elements) := by
        simpa using hc []
      have next : ∀ tree', x = .ok tree' →
          (reduce equation tree'.elements = .ok v ↔ tree'.eval = .ok v) := by
        rintro tree' rfl
        exact ih _ (hn ▸ length_lt_of_contract hc') (hx.grouped hg) (hx.singlesFirst hs) rfl
      rw [reduce_of_contract (one_lt_length hop) hp hc', hx.eval_eq_ok_iff, exceptBind_eq_ok_iff]
      constructor
      · rintro ⟨es, hes, hv⟩
        obtain ⟨tree', htree', rfl⟩ := exceptMap_eq_ok_iff.mp hes
        exact ⟨tree', htree', (next tree' htree').mp hv⟩
      · rintro ⟨tree', htree', hv⟩
        exact ⟨_, exceptMap_eq_ok_iff.mpr ⟨tree', htree', rfl⟩, (next tree' htree').mpr hv⟩
    cases tree with
    | operand o => simp [elements, eval, reduce]
    | single op tree => exact round op true List.mem_cons_self
    | double op l r => exact round op false (List.mem_append_right _ List.mem_cons_self)

/-- **The outcome of an equation.** A list of operands and operators has a value exactly if it is an
equation and its grouped tree, of which there is one, has that value; in every other case it is
refused. -/
theorem classify_bind_reduce_iff {t : OperatorTable} {singles : Nat}
    (ht : t.SinglesBindTightest singles) {es : List EquationElement} (hes : t.Covers es)
    (equation : Text) :
    (IsEquation es → ∃ tree : EquationTree, (tree.Grouped ∧ tree.written = es.map unmarked) ∧
      ∀ tree' : EquationTree, tree'.Grouped ∧ tree'.written = es.map unmarked → tree' = tree) ∧
    (∀ v, (classify equation false es).bind (reduce equation) = .ok v ↔
      IsEquation es ∧ ∃ tree : EquationTree,
        tree.Grouped ∧ tree.written = es.map unmarked ∧ tree.eval = .ok v) ∧
    ((¬ ∃ tree : EquationTree, tree.Grouped ∧ tree.written = es.map unmarked ∧
        ∃ v, tree.eval = .ok v) →
      ∃ f, (classify equation false es).bind (reduce equation) = .error f) := by
  -- The elements of a tree, with their marks, are all that reducing is about.
  have outcome : ∀ v, (classify equation false es).bind (reduce equation) = .ok v ↔
      IsEquation es ∧ ∃ tree : EquationTree,
        tree.Grouped ∧ tree.written = es.map unmarked ∧ tree.eval = .ok v := by
    intro v
    rw [exceptBind_eq_ok_iff]
    constructor
    · rintro ⟨cs, hc, hv⟩
      obtain ⟨rfl, hforms⟩ := classify_eq_ok_iff.mp hc
      have ha : Alternates false es := alternates_marked.mp (alternates_of_reduce hv)
      have he : IsEquation es := isEquation_of_alternates ha hforms
      obtain ⟨tree, hg, hw⟩ := exists_tree_iff.mpr he
      have hs := singlesFirst_of_hasForm ht hes hforms
      rw [← elements_of_written hw] at hs hv
      exact ⟨he, tree, hg, hw, (reduce_elements_eq_ok_iff hg hs v).mp hv⟩
    · rintro ⟨_, tree, hg, hw, hv⟩
      have hforms : ∀ e ∈ marked false es, e.HasForm := elements_of_written hw ▸ hg.hasForm
      have hs := singlesFirst_of_hasForm ht hes hforms
      refine ⟨_, classify_eq_ok_iff.mpr ⟨rfl, hforms⟩, ?_⟩
      rw [← elements_of_written hw] at hs ⊢
      exact (reduce_elements_eq_ok_iff hg hs v).mpr hv
  refine ⟨fun he => ?_, outcome, fun hno => ?_⟩
  · obtain ⟨tree, hg, hw⟩ := exists_tree_iff.mpr he
    exact ⟨tree, ⟨hg, hw⟩, fun tree' h => h.1.eq_of_written hg (h.2.trans hw.symm)⟩
  · cases hx : (classify equation false es).bind (reduce equation) with
    | error f => exact ⟨f, rfl⟩
    | ok v =>
      obtain ⟨_, tree, hg, hw, hv⟩ := (outcome v).mp hx
      exact absurd ⟨tree, hg, hw, v, hv⟩ hno

/-- The tree of `-2 ^ 3 ^ 2 - 1`. -/
def signedPowers : EquationTree :=
  double .minus
    (double .caret
      (double .caret (single .minus (operand (.int 2))) (operand (.int 3)))
      (operand (.int 2)))
    (operand (.int 1))

/-- Signs come first, and powers group from the left: the sign belongs to the base, and the equation
comes to 63. -/
theorem signedPowers_outcome :
    OperatorTable.standard.SinglesBindTightest 6 ∧
      OperatorTable.standard.Covers signedPowers.written ∧
      (classify [] false signedPowers.written).bind (reduce []) = .ok (.int 63) := by
  have hcovers : OperatorTable.standard.Covers signedPowers.written := by
    intro op mark h
    simp only [signedPowers, written_double, written_single, written_operand, List.cons_append,
      List.nil_append, List.mem_cons, EquationElement.operator.injEq, reduceCtorEq, false_or,
      List.not_mem_nil, or_false] at h
    rcases h with ⟨rfl, _⟩ | ⟨rfl, _⟩ | ⟨rfl, _⟩ | ⟨rfl, _⟩
    · exact ⟨['-'], rfl⟩
    · exact ⟨['^'], rfl⟩
    · exact ⟨['^'], rfl⟩
    · exact ⟨['-'], rfl⟩
  have hgrouped : signedPowers.Grouped := by
    simp [signedPowers, Grouped, EquationTree.priority?, Operator.minus, Operator.caret,
      Operator.arithmetic, Operator.ofBinary]
  have h := classify_bind_reduce_iff OperatorTable.standard_singlesBindTightest hcovers []
  exact ⟨OperatorTable.standard_singlesBindTightest, hcovers,
    (h.2.1 (.int 63)).mpr ⟨hgrouped.isEquation, signedPowers, hgrouped, rfl, rfl⟩⟩

end EquationTree

end MarkupTemplate
