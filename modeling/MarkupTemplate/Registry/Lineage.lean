import MarkupTemplate.Dictionary

/-!
# Kinds of widgets

A kind can be declared to extend other kinds. The lineage of a kind is the order in which its
attributes are looked for: the kind itself, then what it extends, depth first and in the order of
the declaration, and at last the universal kind, which everything extends.

Declarations may be circular. The walk still ends, as each step either takes a declared kind out of
those not yet visited, or drops a kind from those still to be visited.
-/

set_option autoImplicit false

namespace MarkupTemplate

/-- The kind that every kind extends. Its attributes are the ones that any tag takes, also one
without a widget. -/
def universalKind : Text := ['*']

/-- How many declarations are of kinds that were not visited yet. It is what gets smaller with every
declared kind that is visited. -/
def unvisited (visited : List Text) (declarations : List (Text × List Text)) : Nat :=
  declarations.countP fun d => d.1 ∉ visited

theorem unvisited_cons_le (visited : List Text) (kind : Text)
    (declarations : List (Text × List Text)) :
    unvisited (kind :: visited) declarations ≤ unvisited visited declarations :=
  List.countP_mono_left (by simp_all)

theorem unvisited_cons_lt {visited : List Text} {kind : Text} {parents : List Text}
    {declarations : List (Text × List Text)}
    (hk : Dictionary.lookup kind declarations = some parents) (hv : kind ∉ visited) :
    unvisited (kind :: visited) declarations < unvisited visited declarations := by
  induction declarations with
  | nil => simp [Dictionary.lookup] at hk
  | cons d rest ih =>
    have hle := unvisited_cons_le visited kind rest
    simp only [unvisited, List.countP_cons] at hle ih ⊢
    by_cases hd : d.1 = kind
    · have hkept : d.1 ∉ visited := hd ▸ hv
      have hdropped : ¬ d.1 ∉ kind :: visited := by simp [hd]
      simp only [hkept, hdropped, decide_true, decide_false, not_false_eq_true, Bool.false_eq_true,
        if_true, if_false]
      omega
    · have hk : Dictionary.lookup kind rest = some parents := by
        simpa [Dictionary.lookup, hd] using hk
      have := ih hk
      simp_all

/-- The kinds reached from some kinds, depth first, without those already visited. What a kind
extends comes in front of what was pending, which makes it depth first; and a kind is marked before
its parents are looked at, which is why circles do no harm. -/
def walkKinds (table : Dictionary (List Text)) : List Text → List Text → List Text
  | _, [] => []
  | visited, kind :: pending =>
    if _hv : kind ∈ visited then walkKinds table visited pending
    else
      match _hk : table.get? kind with
      | some parents => kind :: walkKinds table (kind :: visited) (parents ++ pending)
      | none => kind :: walkKinds table (kind :: visited) pending
termination_by visited pending => (unvisited visited table.entries, pending.length)
decreasing_by
  · exact Prod.Lex.right _ (Nat.lt_succ_self _)
  · exact Prod.Lex.left _ _ (unvisited_cons_lt _hk _hv)
  · rcases Nat.lt_or_eq_of_le (unvisited_cons_le visited kind table.entries) with h | h
    · exact Prod.Lex.left _ _ h
    · rw [h]
      exact Prod.Lex.right _ (Nat.lt_succ_self _)

/-- The kinds in whose tables an attribute of the given kind is looked for, in this order. The
universal kind is the last one unless it was declared to come earlier. -/
def lineage (table : Dictionary (List Text)) (kind : Text) : List Text :=
  let kinds := walkKinds table [] [kind]
  if universalKind ∈ kinds then kinds else kinds ++ [universalKind]

end MarkupTemplate
