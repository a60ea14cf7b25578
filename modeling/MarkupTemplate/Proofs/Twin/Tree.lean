import MarkupTemplate.Engine.Notification
import MarkupTemplate.Engine.Tree
import MarkupTemplate.Proofs.Twin.Resolution

/-!
# The growing tree on twins

Nodes are shaped, opened and closed on a twin as on the machine, and text and listeners are handled
the same way. A lax twin takes every closing tag that the machine takes, since two names that are
equal are also equal when letter case does not count.

A `Shaping` computation changes a node beside the machine. `Shaping.withNode` puts the node into the
result, so that what is known of `Mirrors` carries over to shapings.
-/

set_option autoImplicit false

namespace MarkupTemplate

namespace Shaping

open Engine

variable {α β : Type} {lax : Bool} {fuel fuel' : Nat}

/-- A shaping of a node, with the node as a part of its result. Where the shaping stops early the
node is lost, and `Answers` would not ask for it. -/
def withNode (x : Shaping α) (n : Node) : Engine (α × Node) := fun machine =>
  match x (n, machine) with
  | .ok a (n, machine) => .ok (a, n) machine
  | .error e (_, machine) => .error e machine

/-- What is behind starts with the node that the first part has left. -/
theorem withNode_bind (x : Shaping α) (f : α → Shaping β) (n : Node) :
    withNode (x >>= f) n = withNode x n >>= fun p => withNode (f p.1) p.2 := by
  funext machine
  show (match EStateM.bind x f (n, machine) with
    | .ok a (n, machine) => .ok (a, n) machine
    | .error e (_, machine) => .error e machine) = EStateM.bind (withNode x n) _ machine
  rw [EStateM.bind, EStateM.bind, withNode]
  cases x (n, machine) <;> rfl

theorem withNode_lift (x : Engine α) (n : Node) :
    withNode (lift x) n = x >>= fun a => pure (a, n) := by
  funext machine
  show _ = EStateM.bind x _ machine
  rw [EStateM.bind, withNode, lift]
  cases x machine <;> rfl

theorem shape_eq (x : Shaping Unit) (n : Node) :
    shape x n = withNode x n >>= fun p => pure p.2 := by
  funext machine
  show EStateM.bind (run x n) _ machine = EStateM.bind (withNode x n) _ machine
  rw [EStateM.bind, EStateM.bind, withNode, run]
  cases x (n, machine) <;> rfl

/-- Whether a shaping does on twins what another does on machines. It is `Mirrors` for `withNode`,
and has the same small lemmas for that reason. -/
def Shapes (lax : Bool) (x y : Shaping α) : Prop := ∀ n, Mirrors lax (withNode x n) (withNode y n)

theorem Shapes.bind {x y : Shaping α} {f g : α → Shaping β} (h : Shapes lax x y)
    (hf : ∀ a, Shapes lax (f a) (g a)) : Shapes lax (x >>= f) (y >>= g) := by
  intro n
  rw [withNode_bind, withNode_bind]
  exact (h n).bind fun p => hf p.1 p.2

theorem shapes_pure (a : α) : Shapes lax (pure a) (pure a) := fun n => mirrors_pure (a, n)

theorem shapes_lift {x y : Engine α} (h : Mirrors lax x y) : Shapes lax (lift x) (lift y) := by
  intro n
  rw [withNode_lift, withNode_lift]
  exact h.bind fun _ => mirrors_pure _

theorem shapes_node : Shapes lax node node := fun n => mirrors_pure (n, n)

theorem shapes_put (n : Node) : Shapes lax (put n) (put n) := fun _ => mirrors_pure ((), n)

theorem shapes_exhausted {y : Shaping α} : Shapes lax (throw .exhausted) y := fun _ _ _ _ => trivial

theorem shapes_get_bind {f g : Node × Machine → Shaping α}
    (h : ∀ n machine r, Shapes lax (f (n, machine)) (g (n, machine.twin lax r))) :
    Shapes lax (get >>= f) (get >>= g) :=
  fun n machine r hr => h n machine r n machine r hr

/-- Shaping a node is mirrored if the shaping is. -/
theorem mirrors_shape {x y : Shaping Unit} (h : Shapes lax x y) (n : Node) :
    Mirrors lax (shape x n) (shape y n) := by
  rw [shape_eq, shape_eq]
  exact (h n).bind fun _ => mirrors_pure _

/-! ## Attributes

What is registered for an attribute is the same on both sides, and so is the widget that it is
applied to. So the cases of the definition are gone through side by side. -/

theorem shapes_nameWidget (value : Text) : Shapes lax (nameWidget value) (nameWidget value) := by
  refine shapes_node.bind fun n => ?_
  split
  · exact shapes_put _
  · exact shapes_lift (mirrors_failIfStrict _)

theorem shapes_offerWidget (name value : Text) :
    Shapes lax (offerWidget name value) (offerWidget name value) := by
  refine shapes_node.bind fun n => ?_
  split
  · exact shapes_put _
  · exact shapes_lift (mirrors_failIfStrict _)

variable (hle : fuel ≤ fuel')

include hle

theorem mirrors_inForm (value : Text) (form : Option ValueForm) :
    Mirrors lax (inForm fuel value form) (inForm fuel' value form) := by
  cases form with
  | none => exact mirrors_pure _
  | some form =>
    cases form with
    | boolean => exact (mirrors_boolean hle value).bind fun _ => mirrors_pure _
    | int => exact (mirrors_int hle value).bind fun _ => mirrors_pure _
    | float => exact (mirrors_float hle value).bind fun _ => mirrors_pure _
    | text => exact mirrors_string hle value

theorem mirrors_expansion (d : Definition) (name value : Text) :
    Mirrors lax (expansion fuel d name value) (expansion fuel' d name value) := by
  refine mirrors_markers.bind fun m => (mirrors_expand hle _).bind fun expanded =>
    (mirrors_ofOutcome _).bind fun attributes => ?_
  dsimp only
  split
  · exact (mirrors_failIfStrict _).bind fun _ => mirrors_pure _
  · exact mirrors_pure _

omit hle in
/-- Attributes in order, given that one attribute is. The guard against an attribute that stands for
itself compares two names, which are the same. -/
theorem shapes_applyEach {apply apply' : Text → Text → Shaping Unit}
    (h : ∀ name value, Shapes lax (apply name value) (apply' name value)) (name : Text)
    (pairs : List (Text × Text)) :
    Shapes lax (applyEach apply name pairs) (applyEach apply' name pairs) := by
  induction pairs with
  | nil => exact shapes_pure _
  | cons pair pairs ih =>
    rw [applyEach, applyEach]
    dsimp only
    split
    · exact (shapes_lift (mirrors_fail _)).bind fun _ => (h _ _).bind fun _ => ih
    · exact (h _ _).bind fun _ => ih

/-- An attribute with what it leads to, by induction on the fuel of the machine. That the twin has
more never matters, since it goes the same way. -/
theorem shapes_apply (name value : Text) :
    Shapes lax (apply fuel name value) (apply fuel' name value) := by
  induction fuel generalizing fuel' name value with
  | zero => exact shapes_exhausted
  | succ fuel ih =>
    obtain ⟨more, rfl⟩ : ∃ more, fuel' = more + 1 := ⟨fuel' - 1, by omega⟩
    have hle' := Nat.le_of_succ_le_succ hle
    rw [apply, apply]
    refine shapes_node.bind fun n => shapes_get_bind fun _ machine r => ?_
    dsimp only [Machine.twin]
    -- What is registered for the name: the attribute that names a widget, one of the host, a
    -- definition, or nothing.
    split
    · exact shapes_nameWidget value
    · refine (shapes_lift (mirrors_note _)).bind fun _ =>
        (shapes_lift (mirrors_inForm hle' _ _)).bind fun _ => ?_
      split
      · exact ih hle' _ _
      · exact shapes_pure _
    · exact (shapes_lift (mirrors_expansion hle' _ _ _)).bind fun _ =>
        shapes_applyEach (ih hle') _ _
    · exact shapes_offerWidget _ _

theorem shapes_applyAll (pairs : List (Text × Text)) : Shapes lax
    (pairs.forM fun (name, value) => apply fuel name value)
    (pairs.forM fun (name, value) => apply fuel' name value) := by
  induction pairs with
  | nil => exact shapes_pure _
  | cons pair pairs ih => exact (shapes_apply hle _ _).bind fun _ => ih

theorem shapes_applyTag : Shapes lax (applyTag fuel) (applyTag fuel') := by
  refine shapes_node.bind fun n => ?_
  dsimp only
  split
  · exact (shapes_lift (mirrors_rejectAttributes _ _)).bind fun _ => shapes_applyAll hle _
  · exact shapes_applyAll hle _

end Shaping

namespace Engine

variable {lax : Bool}

/-! ## Text and children

The open tags are the same nodes on both sides. Whether they take text and children depends on the
nodes, and what they do not take is an anomaly. -/

theorem mirrors_giveText (parent : Node) (outer : List Node) (text : Text) :
    Mirrors lax (giveText parent outer text) (giveText parent outer text) := by
  unfold giveText
  dsimp only
  split
  · split
    · refine mirrors_modifyParser_apart ?_ ?_
      · exact fun _ _ => rfl
      · exact fun _ => rfl
    · exact mirrors_failIfStrict _
  · exact mirrors_pure _

theorem mirrors_addText (text : Text) : Mirrors lax (addText text) (addText text) := by
  refine mirrors_parser_bind fun p r _ => ?_
  dsimp only [Parser.twin]
  split
  · exact mirrors_giveText _ _ _
  · split
    · exact mirrors_modifyParser_apart (fun _ _ => rfl) fun _ => rfl
    · exact mirrors_pure _

theorem mirrors_addRoot (n : Node) : Mirrors lax
    (modifyParser fun p => { p with roots := p.roots ++ [n] })
    (modifyParser fun p => { p with roots := p.roots ++ [n] }) :=
  mirrors_modifyParser_apart (fun _ _ => rfl) fun _ => rfl

theorem mirrors_setParents (parents : List Node) : Mirrors lax
    (modifyParser fun p => { p with parents }) (modifyParser fun p => { p with parents }) :=
  mirrors_modifyParser_apart (fun _ _ => rfl) fun _ => rfl

/-- A finished node gets the same place. A parent that takes no children is an anomaly, and a lax
twin lets it have the child. -/
theorem mirrors_attach (n : Node) : Mirrors lax (attach n) (attach n) := by
  refine mirrors_parser_bind fun p r _ => ?_
  dsimp only [Parser.twin]
  split
  · split
    · exact (mirrors_failIfStrict _).bind fun _ => mirrors_setParents _
    · exact mirrors_setParents _
  · exact mirrors_addRoot n

theorem mirrors_parentName : Mirrors lax parentName parentName :=
  mirrors_parser_bind fun _ _ _ => mirrors_pure _

theorem mirrors_finish (n : Node) : Mirrors lax (finish n) (finish n) := by
  unfold finish
  split
  · exact mirrors_pure _
  · refine mirrors_parentName.bind fun _ => (mirrors_note _).bind fun _ => ?_
    split
    · exact mirrors_fail _
    · exact mirrors_append _ _

theorem mirrors_openNode {fuel fuel' : Nat} (hle : fuel ≤ fuel') (n : Node) :
    Mirrors lax (openNode fuel n) (openNode fuel' n) := by
  refine (Shaping.mirrors_shape (Shaping.shapes_applyTag hle) n).bind fun n => ?_
  split
  · exact mirrors_modifyParser_apart (fun _ _ => rfl) fun _ => rfl
  · exact (mirrors_finish n).bind fun _ => mirrors_attach n

/-! ## Closing tags

This is where the names of tags are compared in the course of reading. The machine may compare them
letter by letter and a lax twin does not; it is `closes_mono` that makes up for it. -/

/-- Without letter case a closing tag closes no less. The converse does not hold, which is why a lax
twin is not asked for anything where the machine fails. -/
theorem closes_mono {strict : Bool} {opened name : Text} (h : closes strict opened name = true) :
    closes false opened name = true := by
  cases strict with
  | false => exact h
  | true =>
    have heq : opened = name := by simpa [closes] using h
    rw [heq, closes, if_neg (by simp), Text.eqIgnoringCase_self]

theorem mirrors_closeParent (name : Text) : Mirrors lax (closeParent name) (closeParent name) := by
  refine mirrors_parser_bind fun p r _ => ?_
  dsimp only [Parser.twin]
  split
  · exact mirrors_fail _
  · refine mirrors_isStrict_bind fun strict => ?_
    have hclose : ∀ parent outer, Mirrors lax
        (do
          modifyParser fun p => { p with parents := outer }
          finish parent
          attach parent)
        (do
          modifyParser fun p => { p with parents := outer }
          finish parent
          attach parent) := fun parent outer =>
      (mirrors_setParents outer).bind fun _ => (mirrors_finish parent).bind fun _ =>
        mirrors_attach parent
    -- An exact twin compares as the machine does. A lax one closes wherever the machine does, and
    -- may close where the machine fails.
    cases lax with
    | false =>
      rw [Bool.not_false, Bool.and_true]
      split
      · exact hclose _ _
      · exact mirrors_fail _
    | true =>
      rw [Bool.not_true, Bool.and_false]
      split
      · next h =>
        rw [if_pos (closes_mono h)]
        exact hclose _ _
      · exact fun _ => mirrorsAt_fail _

/-! ## Listeners

Listeners are data that twins share, and what they do to the parser is among the changes treated
before. The lemmas follow the round of notifications from one listener to all of a phase. -/

theorem mirrors_setListeners (phase : Phase) (f : List Listener → List Listener) : Mirrors lax
    (modifyParser fun p => p.setListeners phase (f (p.listeners phase)))
    (modifyParser fun p => p.setListeners phase (f (p.listeners phase))) := by
  cases phase with
  | before => exact mirrors_modifyParser_apart (fun _ _ => rfl) fun _ => rfl
  | after => exact mirrors_modifyParser_apart (fun _ _ => rfl) fun _ => rfl

theorem mirrors_addListener (phase : Phase) (l : Listener) :
    Mirrors lax (addListener phase l) (addListener phase l) :=
  mirrors_setListeners phase (· ++ [l])

theorem Mirrors.forM {α : Type} {f g : α → Engine PUnit} (h : ∀ a, Mirrors lax (f a) (g a))
    (l : List α) : Mirrors lax (l.forM f) (l.forM g) := by
  induction l with
  | nil => exact mirrors_pure _
  | cons a l ih => exact (h a).bind fun _ => ih

/-- A listener of the host does the same on both sides, and is called as often. -/
theorem mirrors_notifyHost (l : HostListener) (nodes : List Node) :
    Mirrors lax (notifyHost l nodes) (notifyHost l nodes) := by
  have hassign : ∀ pair : Text × Text, Mirrors lax (setArgument pair.1 pair.2)
      (setArgument pair.1 pair.2) := fun _ => mirrors_setArgument _ _
  have hadd : ∀ l : HostListener, Mirrors lax (addListener l.phase (.host l))
      (addListener l.phase (.host l)) := fun _ => mirrors_addListener _ _
  refine (mirrors_note _).bind fun _ => (Mirrors.forM hassign _).bind fun _ =>
    (mirrors_append _ _).bind fun _ => (Mirrors.forM hadd _).bind fun _ => ?_
  dsimp only
  split
  · exact mirrors_pure _
  · exact mirrors_pure _

theorem mirrors_notifyOne (l : Listener) (nodes : List Node) :
    Mirrors lax (notifyOne l nodes) (notifyOne l nodes) := by
  cases l with
  | host l => exact (mirrors_notifyHost l nodes).bind fun _ => mirrors_pure _
  | attach ids hook keep => exact mirrors_pure _

theorem mirrors_notifyEach (listeners : List Listener) (nodes : List Node) :
    Mirrors lax (notifyEach listeners nodes) (notifyEach listeners nodes) := by
  induction listeners generalizing nodes with
  | nil => exact mirrors_pure _
  | cons l listeners ih =>
    refine (mirrors_notifyOne l nodes).bind fun answer => ?_
    obtain ⟨l, answer, nodes⟩ := answer
    cases answer with
    | failed f => exact mirrors_pure _
    | leave => exact ih nodes
    | keep => exact (ih nodes).bind fun _ => mirrors_pure _

/-- A phase as a whole: the listeners are taken off, notified, and put back. -/
theorem mirrors_notify (phase : Phase) (nodes : List Node) :
    Mirrors lax (notify phase nodes) (notify phase nodes) := by
  refine mirrors_parser_bind fun p r _ => ?_
  have hlisteners : (p.twin lax r).listeners phase = p.listeners phase := by cases phase <;> rfl
  rw [hlisteners]
  refine (mirrors_setListeners phase fun _ => []).bind fun _ =>
    (mirrors_notifyEach _ nodes).bind fun answer =>
      (mirrors_setListeners phase fun added => answer.1 ++ added).bind fun _ => ?_
  -- The listeners that are kept stand in front of those that were added during the round.
  obtain ⟨kept, failure, nodes⟩ := answer
  cases failure with
  | none => exact mirrors_pure _
  | some f => exact mirrors_fail f

end Engine

end MarkupTemplate
