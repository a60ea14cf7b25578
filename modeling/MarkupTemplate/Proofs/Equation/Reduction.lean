import MarkupTemplate.Equation.Standard
import MarkupTemplate.Proofs.Equation.Tree

/-!
# Reducing an equation

Reducing rewrites a list of elements in place: again and again the leftmost operator of the highest
priority that has its operands beside it is replaced by its result. This module proves that the
outcome is what `EquationTree.eval` says, for every list, well formed or not.

* Backwards, an application puts two neighbours where one operand stood, so a list that comes down
  to one operand **alternates**: no two operands stand side by side, and none is missing
  (`alternates_of_reduce`). With the forms that `classify` has checked, that makes it an equation.
* Forwards, the operator that is applied next is one whose operands are leaves of the grouped tree
  (`contract_elements`), so an application is a step of the tree that keeps its value.

Both directions need that all single-operand forms share one priority above all others. With two
such priorities `contract` can pick a sign whose operand is still behind another sign, and stop.
-/

set_option autoImplicit false

namespace MarkupTemplate

namespace EquationElement

/-! ## Forms

An operator can have one form or both. Which of them is meant is decided by what stands on its left,
and nothing else is checked at this stage: an operator at the very end passes it. -/

/-- Whether an operator has the form that it is marked with. -/
def HasForm : EquationElement → Prop
  | operand _ => True
  | operator op single => if single then op.unary.isSome = true else op.binary.isSome = true

theorem exceptBind_eq_ok_iff {α β : Type} {f : α → Except Fault β} {x : Except Fault α} {b : β} :
    x.bind f = .ok b ↔ ∃ a, x = .ok a ∧ f a = .ok b := by
  cases x <;> simp [Except.bind]

theorem exceptMap_map {α β γ : Type} (f : α → β) (g : β → γ) (x : Except Fault α) :
    (x.map f).map g = x.map fun a => g (f a) := by
  cases x <;> rfl

/-- The form of an operator is decided by its place, and the list is refused if it lacks that
form. -/
theorem classify_eq_ok_iff {equation : Text} {operandLeft : Bool} {es cs : List EquationElement} :
    classify equation operandLeft es = .ok cs ↔
      cs = marked operandLeft es ∧ ∀ e ∈ cs, e.HasForm := by
  induction es generalizing operandLeft cs with
  | nil =>
    simp only [classify, marked, Except.ok.injEq]
    constructor
    · rintro rfl
      exact ⟨rfl, fun e he => absurd he (by simp)⟩
    · rintro ⟨rfl, _⟩
      rfl
  | cons e es ih =>
    have step : ∀ (f : EquationElement) (left : Bool), f.HasForm →
        ((classify equation left es).map (f :: ·) = .ok cs ↔
          cs = f :: marked left es ∧ ∀ e ∈ cs, e.HasForm) := by
      intro f left hf
      rw [exceptMap_eq_ok_iff]
      constructor
      · rintro ⟨cs', hc, rfl⟩
        obtain ⟨rfl, hforms⟩ := ih.mp hc
        exact ⟨rfl, List.forall_mem_cons.mpr ⟨hf, hforms⟩⟩
      · rintro ⟨rfl, hforms⟩
        exact ⟨_, ih.mpr ⟨rfl, (List.forall_mem_cons.mp hforms).2⟩, rfl⟩
    cases e with
    | operand o => exact step _ true trivial
    | operator op mark =>
      cases operandLeft with
      | true =>
        cases hb : op.binary.isSome with
        | true => simpa [classify, marked, hb] using step (.operator op false) false hb
        | false =>
          constructor
          · intro h
            simp only [classify, hb] at h
            repeat' split at h
            all_goals simp_all
          · rintro ⟨rfl, hforms⟩
            have := hforms (.operator op false) (by simp [marked])
            simp [HasForm, hb] at this
      | false =>
        cases hu : op.unary.isSome with
        | true =>
          have hn : op.unary.isNone = false := by simp [Option.isNone_eq_false_iff, hu]
          simpa [classify, marked, hn] using step (.operator op true) false hu
        | false =>
          constructor
          · intro h
            simp only [classify] at h
            repeat' split at h
            all_goals simp_all
          · rintro ⟨rfl, hforms⟩
            have := hforms (.operator op true) (by simp [marked])
            simp [HasForm, hu] at this

/-! ## Lists that alternate

What is left of the grammar once the forms are checked. It can be read off a list from the left with
one bit of memory. -/

/-- Whether no two operands are neighbours and an operand follows every operator. `operandLeft`
says whether an operand stands in front of the list. -/
def Alternates : Bool → List EquationElement → Prop
  | operandLeft, [] => operandLeft = true
  | operandLeft, operand _ :: es => operandLeft = false ∧ Alternates true es
  | _, operator .. :: es => Alternates false es

/-- An application only ever undoes an alternation that was there. -/
theorem alternates_of_contract {p : Nat} {operandLeft : Bool} {es es' : List EquationElement}
    (h : contract p es = some (.ok es')) (ha : Alternates operandLeft es') :
    Alternates operandLeft es := by
  -- Contracting puts an operand in the place of two with an operator, or of one behind an
  -- operator.
  fun_induction contract p es generalizing operandLeft es' with
  | case1 l op r rest hp =>
    obtain ⟨o, _, rfl⟩ := exceptMap_eq_ok_iff.mp (Option.some.inj h)
    exact ⟨ha.1, rfl, ha.2⟩
  | case2 l op r rest hp ih =>
    obtain ⟨es'', hx, rfl⟩ := exists_of_contract_behind h
    exact ⟨ha.1, ih hx ha.2⟩
  | case3 op r rest hp =>
    obtain ⟨o, _, rfl⟩ := exceptMap_eq_ok_iff.mp (Option.some.inj h)
    exact ⟨rfl, ha.2⟩
  | case4 op r rest hp ih =>
    obtain ⟨es'', hx, rfl⟩ := exists_of_contract_behind h
    exact ih hx ha
  | case5 e rest _ _ ih =>
    obtain ⟨es'', hx, rfl⟩ := exists_of_contract_behind h
    cases e with
    | operand o => exact ⟨ha.1, ih hx ha.2⟩
    | operator op mark => exact ih hx ha
  | case6 => exact absurd h (by simp)

theorem alternates_of_reduce {equation : Text} {es : List EquationElement} {v : Operand}
    (h : reduce equation es = .ok v) : Alternates false es := by
  fun_induction reduce equation es with
  | case1 => exact absurd h (by simp)
  | case2 o => exact ⟨rfl, rfl⟩
  | case3 => exact absurd h (by simp)
  | case4 => exact absurd h (by simp)
  | case5 => exact absurd h (by simp)
  | case6 => exact absurd h (by simp)
  | case7 es _ _ _ p _ es' hc ih => exact alternates_of_contract hc (ih h)

theorem alternates_marked {operandLeft left : Bool} {es : List EquationElement} :
    Alternates operandLeft (marked left es) ↔ Alternates operandLeft es := by
  induction es generalizing operandLeft left with
  | nil => rfl
  | cons e es ih =>
    cases e with
    | operand o => exact and_congr_right fun _ => ih
    | operator op mark => exact ih

/-- A list that alternates and has the forms its places ask for is an equation. -/
theorem isEquation_of_alternates : ∀ {es : List EquationElement}, Alternates false es →
    (∀ e ∈ marked false es, e.HasForm) → IsEquation es
  | [], h, _ => absurd h (by simp [Alternates])
  | [.operand o], _, _ => .unit (.operand o)
  | .operand o :: .operand o' :: _, h, _ => absurd h.2.1 (by simp)
  | .operand o :: .operator op mark :: es, h, hf => by
    simp only [marked, List.forall_mem_cons] at hf
    exact .double (.operand o) hf.2.1 (isEquation_of_alternates h.2 hf.2.2)
  | .operator op mark :: es, h, hf => by
    simp only [marked, List.forall_mem_cons] at hf
    have he : IsEquation es := isEquation_of_alternates h hf.2
    cases he with
    | unit hu => exact .unit (.single hf.1 hu)
    | double hu hop he => exact .double (.single hf.1 hu) hop he

end EquationElement

/-! ## Steps of a tree

One operator is applied, anywhere in the tree where its operands are leaves. Which of them is chosen
makes no difference to the value. -/

namespace EquationTree

open EquationElement

/-- One operator whose operands are leaves is applied. -/
inductive Step : EquationTree → Except Fault EquationTree → Prop
  | single (op : Operator) (o : Operand) :
      Step (single op (operand o)) ((op.applyUnary o).map operand)
  | double (op : Operator) (a b : Operand) :
      Step (double op (operand a) (operand b)) ((op.applyBinary a b).map operand)
  | under (op : Operator) {tree : EquationTree} {x : Except Fault EquationTree} :
      Step tree x → Step (single op tree) (x.map (single op))
  | left (op : Operator) {left : EquationTree} (right : EquationTree)
      {x : Except Fault EquationTree} :
      Step left x → Step (double op left right) (x.map (double op · right))
  | right (op : Operator) (left : EquationTree) {right : EquationTree}
      {x : Except Fault EquationTree} :
      Step right x → Step (double op left right) (x.map (double op left))

variable {tree tree' : EquationTree} {x : Except Fault EquationTree}

/-- A step keeps the value, and fails only on a tree without one. -/
theorem Step.eval_eq_ok_iff (h : Step tree x) (v : Operand) :
    tree.eval = .ok v ↔ ∃ tree', x = .ok tree' ∧ tree'.eval = .ok v := by
  -- The two base cases compute the same thing; the others pass it on.
  induction h generalizing v with
  | single op o =>
    simp only [eval, exceptMap_eq_ok_iff, exceptBind_eq_ok_iff, Except.ok.injEq]
    constructor
    · rintro ⟨_, rfl, h⟩
      exact ⟨operand v, ⟨v, h, rfl⟩, rfl⟩
    · rintro ⟨_, ⟨a, h, rfl⟩, hv⟩
      cases hv
      exact ⟨o, rfl, h⟩
  | double op a b =>
    simp only [eval, exceptMap_eq_ok_iff, exceptBind_eq_ok_iff, Except.ok.injEq]
    constructor
    · rintro ⟨_, rfl, _, rfl, h⟩
      exact ⟨operand v, ⟨v, h, rfl⟩, rfl⟩
    · rintro ⟨_, ⟨c, h, rfl⟩, hv⟩
      cases hv
      exact ⟨a, rfl, b, rfl, h⟩
  | under op _ ih =>
    simp only [eval, exceptMap_eq_ok_iff, exceptBind_eq_ok_iff, ih]
    constructor
    · rintro ⟨a, ⟨t, rfl, ht⟩, h⟩
      exact ⟨_, ⟨t, rfl, rfl⟩, exceptBind_eq_ok_iff.mpr ⟨a, ht, h⟩⟩
    · rintro ⟨_, ⟨t, rfl, rfl⟩, hv⟩
      obtain ⟨a, ht, h⟩ := exceptBind_eq_ok_iff.mp hv
      exact ⟨a, ⟨t, rfl, ht⟩, h⟩
  | left op r _ ih =>
    simp only [eval, exceptMap_eq_ok_iff, exceptBind_eq_ok_iff, ih]
    constructor
    · rintro ⟨a, ⟨t, rfl, ht⟩, b, hb, h⟩
      refine ⟨_, ⟨t, rfl, rfl⟩, ?_⟩
      exact exceptBind_eq_ok_iff.mpr ⟨a, ht, exceptBind_eq_ok_iff.mpr ⟨b, hb, h⟩⟩
    · rintro ⟨_, ⟨t, rfl, rfl⟩, hv⟩
      obtain ⟨a, ht, hv⟩ := exceptBind_eq_ok_iff.mp hv
      obtain ⟨b, hb, h⟩ := exceptBind_eq_ok_iff.mp hv
      exact ⟨a, ⟨t, rfl, ht⟩, b, hb, h⟩
  | right op l _ ih =>
    simp only [eval, exceptMap_eq_ok_iff, exceptBind_eq_ok_iff, ih]
    constructor
    · rintro ⟨a, ha, b, ⟨t, rfl, ht⟩, h⟩
      refine ⟨_, ⟨t, rfl, rfl⟩, ?_⟩
      exact exceptBind_eq_ok_iff.mpr ⟨a, ha, exceptBind_eq_ok_iff.mpr ⟨b, ht, h⟩⟩
    · rintro ⟨_, ⟨t, rfl, rfl⟩, hv⟩
      obtain ⟨a, ha, hv⟩ := exceptBind_eq_ok_iff.mp hv
      obtain ⟨b, ht, h⟩ := exceptBind_eq_ok_iff.mp hv
      exact ⟨a, ha, b, ⟨t, rfl, ht⟩, h⟩

/-- A step leaves the root as it is, or an operand in its place. -/
theorem Step.priority? (h : Step tree (.ok tree')) {p : Nat} (hp : tree'.priority? = some p) :
    tree.priority? = some p := by
  generalize hx : Except.ok tree' = x at h
  -- A contracted tree is an operand, and one below it keeps the operator at the top.
  cases h with
  | single op o =>
    obtain ⟨_, _, rfl⟩ := exceptMap_eq_ok_iff.mp hx.symm
    exact absurd hp (by simp [EquationTree.priority?])
  | double op a b =>
    obtain ⟨_, _, rfl⟩ := exceptMap_eq_ok_iff.mp hx.symm
    exact absurd hp (by simp [EquationTree.priority?])
  | under op _ =>
    obtain ⟨_, _, rfl⟩ := exceptMap_eq_ok_iff.mp hx.symm
    exact absurd hp (by simp [EquationTree.priority?])
  | left op r _ =>
    obtain ⟨_, _, rfl⟩ := exceptMap_eq_ok_iff.mp hx.symm
    exact hp
  | right op l _ =>
    obtain ⟨_, _, rfl⟩ := exceptMap_eq_ok_iff.mp hx.symm
    exact hp

theorem Step.grouped (h : Step tree (.ok tree')) (hg : tree.Grouped) : tree'.Grouped := by
  generalize hx : Except.ok tree' = x at h
  induction h generalizing tree' with
  | single op o =>
    obtain ⟨_, _, rfl⟩ := exceptMap_eq_ok_iff.mp hx.symm
    trivial
  | double op a b =>
    obtain ⟨_, _, rfl⟩ := exceptMap_eq_ok_iff.mp hx.symm
    trivial
  | under op h ih =>
    obtain ⟨t, rfl, rfl⟩ := exceptMap_eq_ok_iff.mp hx.symm
    -- What stands below the operator was no double form, and a step does not make one of it.
    refine ⟨hg.1, ?_, ih hg.2.2 rfl⟩
    cases ht : t.priority? with
    | none => rfl
    | some p => exact absurd (hg.2.1.symm.trans (h.priority? ht)) (by simp)
  | left op r h ih =>
    obtain ⟨t, rfl, rfl⟩ := exceptMap_eq_ok_iff.mp hx.symm
    exact ⟨hg.1, fun p hp => hg.2.1 p (h.priority? hp), hg.2.2.1, ih hg.2.2.2.1 rfl, hg.2.2.2.2⟩
  | right op l h ih =>
    obtain ⟨t, rfl, rfl⟩ := exceptMap_eq_ok_iff.mp hx.symm
    exact ⟨hg.1, hg.2.1, fun p hp => hg.2.2.1 p (h.priority? hp), hg.2.2.2.1, ih hg.2.2.2.2 rfl⟩

theorem Step.mem_of_mem (h : Step tree (.ok tree')) {op : Operator} {mark : Bool}
    (hm : EquationElement.operator op mark ∈ tree'.elements) :
    EquationElement.operator op mark ∈ tree.elements := by
  generalize hx : Except.ok tree' = x at h
  induction h generalizing tree' with
  | single op' o =>
    obtain ⟨_, _, rfl⟩ := exceptMap_eq_ok_iff.mp hx.symm
    exact absurd hm (by simp [elements])
  | double op' a b =>
    obtain ⟨_, _, rfl⟩ := exceptMap_eq_ok_iff.mp hx.symm
    exact absurd hm (by simp [elements])
  | under op' _ ih =>
    obtain ⟨t, rfl, rfl⟩ := exceptMap_eq_ok_iff.mp hx.symm
    rcases List.mem_cons.mp hm with heq | hm
    · exact heq ▸ List.mem_cons_self
    · exact List.mem_cons_of_mem _ (ih hm rfl)
  | left op' r _ ih =>
    obtain ⟨t, rfl, rfl⟩ := exceptMap_eq_ok_iff.mp hx.symm
    rcases List.mem_append.mp hm with hm | hm
    · exact List.mem_append_left _ (ih hm rfl)
    · exact List.mem_append_right _ hm
  | right op' l _ ih =>
    obtain ⟨t, rfl, rfl⟩ := exceptMap_eq_ok_iff.mp hx.symm
    rcases List.mem_append.mp hm with hm | hm
    · exact List.mem_append_left _ hm
    · rcases List.mem_cons.mp hm with heq | hm
      · exact List.mem_append_right _ (heq ▸ List.mem_cons_self)
      · exact List.mem_append_right _ (List.mem_cons_of_mem _ (ih hm rfl))

/-- The operators of a grouped tree have the forms that they are marked with. -/
theorem Grouped.hasForm {tree : EquationTree} (h : tree.Grouped) :
    ∀ e ∈ tree.elements, e.HasForm := by
  induction tree with
  | operand o => exact List.forall_mem_singleton.mpr trivial
  | single op tree ih => exact List.forall_mem_cons.mpr ⟨h.1, ih h.2.2⟩
  | double op l r ihl ihr =>
    intro e he
    rcases List.mem_append.mp he with he | he
    · exact ihl h.2.2.2.1 e he
    · rcases List.mem_cons.mp he with rfl | he
      · exact h.1
      · exact ihr h.2.2.2.2 e he

end EquationTree

/-! ## What is applied next

In a list with its signs first, everything in front of the operator that is applied has a lower
priority, and so is passed over. -/

namespace EquationElement

/-- Whether all single-operand forms in a list have one priority, and all two-operand forms a lower
one. -/
def SinglesFirst (singles : Nat) (es : List EquationElement) : Prop :=
  ∀ op, (operator op true ∈ es → op.unaryPriority = singles) ∧
    (operator op false ∈ es → op.priority < singles)

variable {singles : Nat} {es fs : List EquationElement}

theorem SinglesFirst.mono (h : SinglesFirst singles es) (hsub : ∀ e ∈ fs, e ∈ es) :
    SinglesFirst singles fs :=
  fun op => ⟨fun hm => (h op).1 (hsub _ hm), fun hm => (h op).2 (hsub _ hm)⟩

/-- No priority in it is above that of its signs. -/
theorem SinglesFirst.priority?_le (h : SinglesFirst singles es) {e : EquationElement}
    (he : e ∈ es) {p : Nat} (hp : e.priority? = some p) : p ≤ singles := by
  cases e with
  | operand o => exact absurd hp (by simp [priority?])
  | operator op mark =>
    obtain rfl := Option.some.inj hp
    cases mark with
    | true => exact Nat.le_of_eq ((h op).1 he)
    | false => exact Nat.le_of_lt ((h op).2 he)

theorem contract_operator_cons {p : Nat} {op : Operator} {mark : Bool}
    {rest : List EquationElement} (h : (operator op mark).priority? ≠ some p) :
    contract p (operator op mark :: rest) =
      (contract p rest).map fun x => x.map (operator op mark :: ·) := by
  -- Only an operator with a single operand takes the element behind it.
  cases mark with
  | false => rfl
  | true =>
    cases rest with
    | nil => rfl
    | cons e rest =>
      cases e with
      | operator op' mark' => rfl
      | operand o =>
        have hp : op.unaryPriority ≠ p := fun heq => h (by simp [priority?, heq])
        simp only [contract, if_neg hp]

/-- An operand is passed over in front of whatever is not of the priority looked for. -/
theorem contract_operand_cons {p : Nat} {o : Operand} {e : EquationElement}
    {rest : List EquationElement} (h : e.priority? ≠ some p) :
    contract p (operand o :: e :: rest) =
      (contract p (e :: rest)).map fun x => x.map (operand o :: ·) := by
  cases e with
  | operand o' => rfl
  | operator op mark =>
    cases mark with
    | true => rfl
    | false =>
      cases rest with
      | nil => rfl
      | cons e rest =>
        cases e with
        | operator op' mark' => rfl
        | operand o' =>
          have hp : op.priority ≠ p := fun heq => h (by simp [priority?, heq])
          simp only [contract, if_neg hp]

/-- What stands in front of the priority looked for, up to an operator, is passed over. -/
theorem contract_append {p : Nat} {op : Operator} {mark : Bool} {before rest : List EquationElement}
    (h : ∀ e ∈ before, e.priority? ≠ some p) (hop : (operator op mark).priority? ≠ some p) :
    contract p (before ++ operator op mark :: rest) =
      (contract p rest).map fun x => x.map (before ++ operator op mark :: ·) := by
  induction before with
  | nil => exact contract_operator_cons hop
  -- Nothing in front is contracted, so it is copied element by element.
  | cons e before ih =>
    obtain ⟨he, hb⟩ := List.forall_mem_cons.mp h
    have hcons : contract p (e :: (before ++ operator op mark :: rest)) =
        (contract p (before ++ operator op mark :: rest)).map fun x => x.map (e :: ·) := by
      cases e with
      | operator op' mark' => exact contract_operator_cons he
      | operand o =>
        cases before with
        | nil => exact contract_operand_cons hop
        | cons e' before => exact contract_operand_cons (List.forall_mem_cons.mp hb).1
    rw [List.cons_append, hcons, ih hb, Option.map_map]
    congr 1
    funext x
    exact exceptMap_map _ _ x

end EquationElement

namespace EquationTree

open EquationElement

/-- The priority of a root is that of an element. -/
theorem exists_mem_of_priority? {tree : EquationTree} {p : Nat} (h : tree.priority? = some p) :
    ∃ e ∈ tree.elements, e.priority? = some p := by
  cases tree with
  | operand o => exact absurd h (by simp [EquationTree.priority?])
  | single op tree => exact absurd h (by simp [EquationTree.priority?])
  | double op l r => exact ⟨.operator op false, List.mem_append_right _ List.mem_cons_self, h⟩

/-- Without a two-operand root and without signs there is nothing but a leaf. -/
theorem exists_operand {tree : EquationTree} {singles p : Nat} (hnone : tree.priority? = none)
    (hs : SinglesFirst singles tree.elements) (hp : p < singles)
    (hle : ∀ e ∈ tree.elements, ∀ q, e.priority? = some q → q ≤ p) : ∃ o, tree = operand o := by
  cases tree with
  | operand o => exact ⟨o, rfl⟩
  | single op tree =>
    have hop : op.unaryPriority = singles := (hs op).1 List.mem_cons_self
    have : op.unaryPriority ≤ p := hle _ List.mem_cons_self _ rfl
    omega
  | double op l r => exact absurd hnone (by simp [EquationTree.priority?])

/-- Where the root is of the highest priority, and the first of it, its operands are leaves. -/
theorem exists_operands {op : Operator} {l r : EquationTree} {singles : Nat}
    (hg : (double op l r).Grouped) (hs : SinglesFirst singles (double op l r).elements)
    (hle : ∀ e ∈ (double op l r).elements, ∀ q, e.priority? = some q → q ≤ op.priority)
    (hnl : ∀ e ∈ l.elements, e.priority? ≠ some op.priority) :
    ∃ a b, l = operand a ∧ r = operand b := by
  have hlt : op.priority < singles := (hs op).2 (List.mem_append_right _ List.mem_cons_self)
  have hlel : ∀ e ∈ l.elements, ∀ q, e.priority? = some q → q ≤ op.priority :=
    fun e he => hle e (List.mem_append_left _ he)
  have hler : ∀ e ∈ r.elements, ∀ q, e.priority? = some q → q ≤ op.priority :=
    fun e he => hle e (List.mem_append_right _ (List.mem_cons_of_mem _ he))
  -- An operator below this one would bind less tightly, or be found to the left first.
  have hnonel : l.priority? = none := by
    rw [Option.eq_none_iff_forall_ne_some]
    intro q hq
    obtain ⟨e, he, heq⟩ := exists_mem_of_priority? hq
    have hpq : op.priority = q := Nat.le_antisymm (hg.2.1 q hq) (hlel e he q heq)
    exact hnl e he (hpq ▸ heq)
  have hnoner : r.priority? = none := by
    rw [Option.eq_none_iff_forall_ne_some]
    intro q hq
    obtain ⟨e, he, heq⟩ := exists_mem_of_priority? hq
    exact absurd (hler e he q heq) (Nat.not_le_of_lt (hg.2.2.1 q hq))
  obtain ⟨a, rfl⟩ := exists_operand hnonel (hs.mono fun e he => List.mem_append_left _ he) hlt hlel
  obtain ⟨b, rfl⟩ := exists_operand hnoner
    (hs.mono fun e he => List.mem_append_right _ (List.mem_cons_of_mem _ he)) hlt hler
  exact ⟨a, b, rfl, rfl⟩

/-- **The operator that is applied next has leaves as its operands in the grouped tree.** `p` is the
highest priority in the list. -/
theorem contract_elements {tree : EquationTree} {singles p : Nat} (hg : tree.Grouped)
    (hs : SinglesFirst singles tree.elements)
    (hle : ∀ e ∈ tree.elements, ∀ q, e.priority? = some q → q ≤ p)
    (hp : ∃ e ∈ tree.elements, e.priority? = some p) :
    ∃ x, Step tree x ∧ ∀ rest, contract p (tree.elements ++ rest) =
      some (x.map fun tree' => tree'.elements ++ rest) := by
  induction tree with
  | operand o =>
    obtain ⟨e, he, hep⟩ := hp
    obtain rfl := List.mem_singleton.mp he
    exact absurd hep (by simp [EquationElement.priority?])
  | single op tree ih =>
    -- A sign has the highest priority that there is.
    have hop : op.unaryPriority = singles := (hs op).1 List.mem_cons_self
    have hps : p = singles := by
      obtain ⟨e, he, hep⟩ := hp
      exact Nat.le_antisymm (hs.priority?_le he hep) (hop ▸ hle _ List.mem_cons_self _ rfl)
    cases tree with
    | operand o =>
      refine ⟨_, .single op o, fun rest => ?_⟩
      simp only [elements, List.cons_append, List.nil_append, contract, if_pos (hop.trans hps.symm),
        exceptMap_map]
    | single op' tree =>
      have hop' : op'.unaryPriority = singles :=
        (hs op').1 (List.mem_cons_of_mem _ List.mem_cons_self)
      obtain ⟨x, hx, hc⟩ := ih hg.2.2 (hs.mono fun e he => List.mem_cons_of_mem _ he)
        (fun e he => hle e (List.mem_cons_of_mem _ he))
        ⟨_, List.mem_cons_self, congrArg some (hop'.trans hps.symm)⟩
      refine ⟨_, .under op hx, fun rest => ?_⟩
      have hskip : contract p ((single op (single op' tree)).elements ++ rest) =
          (contract p ((single op' tree).elements ++ rest)).map
            fun x => x.map (.operator op true :: ·) := rfl
      rw [hskip, hc, Option.map_some, exceptMap_map, exceptMap_map]
      rfl
    | double op' l r => exact absurd hg.2.1 (by simp [EquationTree.priority?])
  | double op l r ihl ihr =>
    have hsl : SinglesFirst singles l.elements := hs.mono fun e he => List.mem_append_left _ he
    have hsr : SinglesFirst singles r.elements :=
      hs.mono fun e he => List.mem_append_right _ (List.mem_cons_of_mem _ he)
    have hlel : ∀ e ∈ l.elements, ∀ q, e.priority? = some q → q ≤ p :=
      fun e he => hle e (List.mem_append_left _ he)
    have hler : ∀ e ∈ r.elements, ∀ q, e.priority? = some q → q ≤ p :=
      fun e he => hle e (List.mem_append_right _ (List.mem_cons_of_mem _ he))
    by_cases hpl : ∃ e ∈ l.elements, e.priority? = some p
    · obtain ⟨x, hx, hc⟩ := ihl hg.2.2.2.1 hsl hlel hpl
      refine ⟨_, .left op r hx, fun rest => ?_⟩
      rw [elements, List.append_assoc, hc, exceptMap_map]
      simp only [elements, List.append_assoc]
    have hnl : ∀ e ∈ l.elements, e.priority? ≠ some p := fun e he hep => hpl ⟨e, he, hep⟩
    by_cases hop : op.priority = p
    · -- Nothing in the operands is of a higher priority, so nothing is in them.
      obtain ⟨a, b, rfl, rfl⟩ := exists_operands hg hs (hop ▸ hle) (hop ▸ hnl)
      refine ⟨_, .double op a b, fun rest => ?_⟩
      simp only [elements, List.cons_append, List.nil_append, contract, if_pos hop, exceptMap_map]
    · have hpr : ∃ e ∈ r.elements, e.priority? = some p := by
        obtain ⟨e, he, hep⟩ := hp
        rcases List.mem_append.mp he with he | he
        · exact absurd hep (hnl e he)
        · rcases List.mem_cons.mp he with rfl | he
          · exact absurd (Option.some.inj hep) hop
          · exact ⟨e, he, hep⟩
      obtain ⟨x, hx, hc⟩ := ihr hg.2.2.2.2 hsr hler hpr
      refine ⟨_, .right op l hx, fun rest => ?_⟩
      have hop' : (EquationElement.operator op false).priority? ≠ some p :=
        fun h => hop (Option.some.inj h)
      rw [elements, List.append_assoc, List.cons_append, contract_append hnl hop', hc,
        Option.map_some, exceptMap_map, exceptMap_map]
      simp only [elements, List.append_assoc, List.cons_append]

end EquationTree

end MarkupTemplate
