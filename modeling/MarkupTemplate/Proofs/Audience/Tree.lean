import MarkupTemplate.Engine.Tree
import MarkupTemplate.Proofs.Audience.Resolution
import MarkupTemplate.Proofs.Twin.Tree

/-!
# The growing tree in front of an audience

Nodes are shaped, opened and closed without a look at the audience. The host is told of the
attributes that it attends to and of the nodes that it closes, and none of these notices is one of a
listener.

A shaping is oblivious if it is as an engine computation that has the node in its result,
`Shaping.withNode`.
-/

set_option autoImplicit false

namespace MarkupTemplate

namespace Shaping

open Engine

/-- Whether a shaping takes no notice of the audience, whatever node it works on. -/
def IsOblivious {α : Type} (x : Shaping α) : Prop := ∀ n, Oblivious (withNode x n)

variable {α β : Type}

/-- Shapings one after another, by way of the computations with the node in their result. -/
theorem IsOblivious.bind {x : Shaping α} {f : α → Shaping β} (h : IsOblivious x)
    (hf : ∀ v, IsOblivious (f v)) : IsOblivious (x >>= f) := by
  intro n
  rw [withNode_bind]
  exact (h n).bind fun p => hf p.1 p.2

theorem isOblivious_pure (v : α) : IsOblivious (pure v : Shaping α) :=
  fun n => oblivious_pure (v, n)

theorem isOblivious_lift {x : Engine α} (h : Oblivious x) : IsOblivious (lift x) := by
  intro n
  rw [withNode_lift]
  exact h.bind fun _ => oblivious_pure _

theorem isOblivious_node : IsOblivious node := fun n => oblivious_pure (n, n)

theorem isOblivious_put (n : Node) : IsOblivious (put n) := fun _ => oblivious_pure ((), n)

theorem isOblivious_exhausted : IsOblivious (throw .exhausted : Shaping α) :=
  fun _ => oblivious_throw _

/-- What is done with node and machine may depend on all but the audience. -/
theorem isOblivious_get_bind {f : Node × Machine → Shaping α}
    (hf : ∀ n m a, f (n, m.facing a) = f (n, m)) (h : ∀ n m, IsOblivious (f (n, m))) :
    IsOblivious (get >>= f) := by
  intro n
  constructor
  · intro a m
    show withNode (f (n, m.facing a)) n (m.facing a) =
      outcomeFacing a (withNode (f (n, m)) n m)
    rw [hf]
    exact (h n m n).facing a m
  · intro m hm
    exact (h n m n).quiet hm

theorem oblivious_shape {x : Shaping Unit} (h : IsOblivious x) (n : Node) :
    Oblivious (shape x n) := by
  rw [shape_eq]
  exact (h n).bind fun _ => oblivious_pure _

/-! ## Attributes

An attribute changes the node that is shaped. The host is told if the attribute is one of its
own. -/

theorem isOblivious_nameWidget (value : Text) : IsOblivious (nameWidget value) := by
  refine isOblivious_node.bind fun n => ?_
  split
  · exact isOblivious_put _
  · exact isOblivious_lift (oblivious_failIfStrict _)

theorem isOblivious_offerWidget (name value : Text) : IsOblivious (offerWidget name value) := by
  refine isOblivious_node.bind fun n => ?_
  split
  · exact isOblivious_put _
  · exact isOblivious_lift (oblivious_failIfStrict _)

/-- A value in the form that the host asks for. -/
theorem oblivious_inForm (fuel : Nat) (value : Text) (form : Option ValueForm) :
    Oblivious (inForm fuel value form) := by
  cases form with
  | none => exact oblivious_pure _
  | some form =>
    cases form with
    | boolean => exact (oblivious_boolean fuel value).bind fun _ => oblivious_pure _
    | int => exact (oblivious_int fuel value).bind fun _ => oblivious_pure _
    | float => exact (oblivious_float fuel value).bind fun _ => oblivious_pure _
    | text => exact oblivious_string fuel value

theorem oblivious_expansion (fuel : Nat) (d : Definition) (name value : Text) :
    Oblivious (expansion fuel d name value) := by
  refine oblivious_markers.bind fun m => (oblivious_expand fuel _).bind fun expanded =>
    (oblivious_ofOutcome _).bind fun attributes => ?_
  dsimp only
  split
  · exact (oblivious_failIfStrict _).bind fun _ => oblivious_pure _
  · exact oblivious_pure _

/-- Attributes in order, given that a single one is oblivious. -/
theorem isOblivious_applyEach {apply : Text → Text → Shaping Unit}
    (h : ∀ name value, IsOblivious (apply name value)) (name : Text) (pairs : List (Text × Text)) :
    IsOblivious (applyEach apply name pairs) := by
  induction pairs with
  | nil => exact isOblivious_pure _
  | cons pair pairs ih =>
    rw [applyEach]
    dsimp only
    split
    · exact (isOblivious_lift (oblivious_fail _)).bind fun _ => (h _ _).bind fun _ => ih
    · exact (h _ _).bind fun _ => ih

/-- Attributes that stand for others are applied with less fuel. -/
theorem isOblivious_apply (fuel : Nat) (name value : Text) :
    IsOblivious (apply fuel name value) := by
  induction fuel generalizing name value with
  | zero => exact isOblivious_exhausted
  | succ fuel ih =>
    rw [apply]
    refine isOblivious_node.bind fun n => isOblivious_get_bind (fun _ _ _ => rfl) fun _ m => ?_
    dsimp only
    split
    · exact isOblivious_nameWidget value
    · refine (isOblivious_lift (oblivious_note rfl)).bind fun _ =>
        (isOblivious_lift (oblivious_inForm fuel _ _)).bind fun _ => ?_
      split
      · exact ih _ _
      · exact isOblivious_pure _
    · exact (isOblivious_lift (oblivious_expansion fuel _ _ _)).bind fun _ =>
        isOblivious_applyEach ih _ _
    · exact isOblivious_offerWidget _ _

theorem isOblivious_applyAll (fuel : Nat) (pairs : List (Text × Text)) :
    IsOblivious (pairs.forM fun (name, value) => apply fuel name value) := by
  induction pairs with
  | nil => exact isOblivious_pure _
  | cons pair pairs ih => exact (isOblivious_apply fuel _ _).bind fun _ => ih

theorem isOblivious_applyTag (fuel : Nat) : IsOblivious (applyTag fuel) := by
  refine isOblivious_node.bind fun n => ?_
  dsimp only
  split
  · exact (isOblivious_lift (oblivious_rejectAttributes _ _)).bind fun _ =>
      isOblivious_applyAll fuel _
  · exact isOblivious_applyAll fuel _

end Shaping

namespace Engine

/-! ## Text and children

The stack of open tags and the roots are no part of the audience, so each of these is a change that
goes past it. -/

theorem oblivious_giveText (parent : Node) (outer : List Node) (text : Text) :
    Oblivious (giveText parent outer text) := by
  unfold giveText
  dsimp only
  split
  · split
    · exact oblivious_modifyParser fun _ _ => rfl
    · exact oblivious_failIfStrict _
  · exact oblivious_pure _

theorem oblivious_addText (text : Text) : Oblivious (addText text) := by
  refine oblivious_parser_bind (fun _ _ => rfl) fun p => ?_
  split
  · exact oblivious_giveText _ _ _
  · split
    · exact oblivious_modifyParser fun _ _ => rfl
    · exact oblivious_pure _

theorem oblivious_setParents (parents : List Node) :
    Oblivious (modifyParser fun p => { p with parents }) :=
  oblivious_modifyParser fun _ _ => rfl

theorem oblivious_attach (n : Node) : Oblivious (attach n) := by
  refine oblivious_parser_bind (fun _ _ => rfl) fun p => ?_
  split
  · split
    · exact (oblivious_failIfStrict _).bind fun _ => oblivious_setParents _
    · exact oblivious_setParents _
  · exact oblivious_modifyParser fun _ _ => rfl

theorem oblivious_parentName : Oblivious parentName :=
  oblivious_parser_bind (fun _ _ => rfl) fun _ => oblivious_pure _

/-- A closing node of the host is a notice to the host, which is none of a listener, and text in
front of the reader. -/
theorem oblivious_finish (n : Node) : Oblivious (finish n) := by
  unfold finish
  split
  · exact oblivious_pure _
  · refine oblivious_parentName.bind fun _ => (oblivious_note rfl).bind fun _ => ?_
    split
    · exact oblivious_fail _
    · exact oblivious_append _ _

theorem oblivious_openNode (fuel : Nat) (n : Node) : Oblivious (openNode fuel n) := by
  refine (Shaping.oblivious_shape (Shaping.isOblivious_applyTag fuel) n).bind fun n => ?_
  split
  · exact oblivious_modifyParser fun _ _ => rfl
  · exact (oblivious_finish n).bind fun _ => oblivious_attach n

/-- A closing tag takes the innermost open tag off the stack and gives it its place. -/
theorem oblivious_closeParent (name : Text) : Oblivious (closeParent name) := by
  refine oblivious_parser_bind (fun _ _ => rfl) fun p => ?_
  split
  · exact oblivious_fail _
  · refine oblivious_isStrict.bind fun strict => ?_
    split
    · exact (oblivious_setParents _).bind fun _ => (oblivious_finish _).bind fun _ =>
        oblivious_attach _
    · exact oblivious_fail _

end Engine

end MarkupTemplate
