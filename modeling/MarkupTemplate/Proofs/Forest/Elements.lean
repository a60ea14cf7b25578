import MarkupTemplate.Proofs.Forest.Writing
import MarkupTemplate.Proofs.Twin.Tree

/-!
# Elements

The nodes of a document of elements, seen as the outlines of which its tags are the row, and how
such a node is made. An attribute is given to the widget of the node, or handed to what is
registered for it. `Registry.Takes` is that this cannot fail: nothing is registered for the
attribute, or it names the widget, or the host attends to it without reading its value and hands it
on, if at all, to an attribute of which the same is true. Then a node is shaped whatever its
attributes are (`exists_shape`).

Attributes that read their value can fail, since they take it for a number or a truth value. So can
those of templates, which expand to other attributes.
-/

set_option autoImplicit false

namespace MarkupTemplate

/-! ## Nodes seen as outlines

An outline keeps of a node what its tag says and leaves out what was made of it, so that it can be
compared with what was written. -/

namespace Node

mutual

def outline : Node → Outline
  | ⟨tag, _, _, children⟩ => .mk tag.name tag.attributes.pairs tag.closed (outlines children)
termination_by structural n => n

def outlines : List Node → List Outline
  | [] => []
  | n :: ns => outline n :: outlines ns
termination_by structural ns => ns

end

theorem outlines_append (ns ns' : List Node) :
    outlines (ns ++ ns') = outlines ns ++ outlines ns' := by
  induction ns with
  | nil => rfl
  | cons n ns ih => rw [List.cons_append, outlines, outlines, ih, List.cons_append]

/-- A child of a node is one of its outline. -/
theorem outline_addChild (n child : Node) :
    (n.addChild child).outline = n.outline.addChild child.outline := by
  obtain ⟨tag, conduct, widget, children⟩ := n
  rw [addChild, outline, outline, Outline.addChild, outlines_append, outlines, outlines]

theorem name_outline (n : Node) : n.outline.name = n.tag.name := by
  obtain ⟨tag, conduct, widget, children⟩ := n
  rfl

end Node

/-! ## Attributes that cannot fail -/

namespace Registry

/-- The kind of the elements that tags of a name make, and whether they may have children. -/
def element? (r : Registry) (name : Text) : Option (Text × Bool) :=
  match r.tagMaker? name with
  | some (.native (.element kind container)) => some (kind.getD name, container)
  | _ => none

/-- What is registered for the name of an element. -/
theorem tagMaker?_of_element? {r : Registry} {name kind : Text} {container : Bool}
    (h : r.element? name = some (kind, container)) : ∃ own : Option Text,
      r.tagMaker? name = some (.native (.element own container)) ∧ own.getD name = kind := by
  unfold element? at h
  split at h
  · next own _ hmaker =>
    obtain ⟨rfl, rfl⟩ := Prod.mk.inj (Option.some.inj h)
    exact ⟨own, hmaker, rfl⟩
  · cases h

/-- Whether tags of a name make elements that have no children. -/
def isLeaf (r : Registry) (name : Text) : Bool := (r.element? name).any fun e => !e.2

/-- Whether elements of a kind take an attribute, whatever its value is. An attribute that is handed
on has to be taken under its new name too. The relation is inductive, so a circle of attributes that
are handed on is not taken. -/
inductive Takes (r : Registry) (kind : Text) : Text → Prop
  | unknown {name : Text} (h : r.attributeMaker? (some kind) name = none) : Takes r kind name
  | identity {name : Text} (h : r.attributeMaker? (some kind) name = some (.native .identity)) :
      Takes r kind name
  | host {name owner title : Text} {target : Option Text}
      (h : r.attributeMaker? (some kind) name =
        some (.native (.host { kind := owner, name := title, target })))
      (htarget : ∀ other, target = some other → Takes r kind other) : Takes r kind name

/-- The attributes of the language itself are taken by elements of all kinds. -/
theorem takes_of_standard {r : Registry} (h : r.attributes = standard.attributes)
    (kind name : Text) : r.Takes kind name := by
  have hget : ∀ k, standard.attributes.get? k =
      if universalKind = k then some (.ofList [("id".toList, .native .identity)]) else none :=
    fun k => Dictionary.get?_insert .empty universalKind k _
  have hid : ∀ n, (Dictionary.ofList
      [("id".toList, Provider.native AttributeMaker.identity)]).get? n =
        if "id".toList = n then some (.native .identity) else none :=
    fun n => Dictionary.get?_insert .empty "id".toList n _
  -- Whatever kind has it, the only attribute there is gives a widget its name.
  cases hfound : r.attributeMaker? (some kind) name with
  | none => exact .unknown hfound
  | some maker =>
    obtain ⟨k, _, hk⟩ := List.exists_of_findSome?_eq_some hfound
    rw [h, hget] at hk
    split at hk
    · rw [Option.bind_some, hid] at hk
      split at hk
      · obtain rfl := Option.some.inj hk
        exact .identity hfound
      · cases hk
    · cases hk

end Registry

namespace Shaping

/-- Whether a shaping of elements of a kind changes nothing but the widget and the notices, and
leaves it to the kind whether there may be children. -/
def Adorns (r : Registry) (kind : Text) (x : Shaping Unit) : Prop :=
  ∀ (machine : Machine) (n : Node) (e : Element Node), machine.registry = r →
    n.widget = some (.element e) → e.kind = kind →
    ∃ (e' : Element Node) (notices : List Notice), e'.kind = kind ∧ e'.container = e.container ∧
      x (n, machine) = .ok () ({ n with widget := some (.element e') }, { machine with notices })

variable {r : Registry} {kind : Text} {x y : Shaping Unit}

theorem adorns_pure : Adorns r kind (pure ()) := by
  intro machine n e _ hn hkind
  obtain ⟨tag, conduct, widget, children⟩ := n
  obtain rfl : widget = _ := hn
  exact ⟨e, machine.notices, hkind, rfl, rfl⟩

theorem Adorns.bind (hx : Adorns r kind x) (hy : Adorns r kind y) :
    Adorns r kind (x >>= fun _ => y) := by
  intro machine n e hr hn hkind
  obtain ⟨e', notices, hkind', hcontainer, hrun⟩ := hx machine n e hr hn hkind
  obtain ⟨e'', notices', hkind'', hcontainer', hrun'⟩ := hy { machine with notices }
    { n with widget := some (.element e') } e' hr rfl hkind'
  refine ⟨e'', notices', hkind'', hcontainer'.trans hcontainer, ?_⟩
  show EStateM.bind x _ (n, machine) = _
  rw [EStateM.bind, hrun]
  exact hrun'

/-- Applies an attribute by what is registered for it. -/
def applyBy (fuel : Nat) (name value : Text) : Option (Provider AttributeMaker) → Shaping Unit
  | some (.native .identity) => nameWidget value
  | some (.native (.host a)) => do
    let n ← node
    Engine.note (.attribute a.name a.kind n.tag.name value)
    let value ← inForm fuel value a.form
    match a.target with
    | some target => apply fuel target value
    | none => return
  | some (.template d) => do applyEach (apply fuel) name (← expansion fuel d name value)
  | none => offerWidget name value

/-- Applying an attribute with fuel left is doing what is registered for it. -/
theorem apply_eq (fuel : Nat) (name value : Text) (n : Node) (machine : Machine) :
    apply (fuel + 1) name value (n, machine) =
      applyBy fuel name value (machine.registry.attributeMaker? (n.widget.map Widget.kind) name)
        (n, machine) := by
  have hlook : apply (fuel + 1) name value (n, machine) =
      (match machine.registry.attributeMaker? (n.widget.map Widget.kind) name with
        | some (.native .identity) => nameWidget value
        | some (.native (.host a)) => _
        | some (.template d) => _
        | none => offerWidget name value) (n, machine) := rfl
  rw [hlook]
  cases machine.registry.attributeMaker? (n.widget.map Widget.kind) name with
  | none => rfl
  | some p =>
    cases p with
    | template d => rfl
    | native maker => cases maker <;> rfl

/-- It is enough to look at what is registered. -/
theorem adorns_apply {fuel : Nat} {name value : Text} (h : Adorns r kind
    (applyBy fuel name value (r.attributeMaker? (some kind) name))) :
    Adorns r kind (apply (fuel + 1) name value) := by
  intro machine n e hr hn hkind
  have hlook : machine.registry.attributeMaker? (n.widget.map Widget.kind) name =
      r.attributeMaker? (some kind) name := by
    rw [hr, hn, ← hkind]
    rfl
  rw [apply_eq, hlook]
  exact h machine n e hr hn hkind

theorem adorns_nameWidget (value : Text) : Adorns r kind (nameWidget value) := by
  intro machine n e _ hn hkind
  obtain ⟨tag, conduct, widget, children⟩ := n
  obtain rfl : widget = some (.element e) := hn
  exact ⟨{ e with id := some value }, machine.notices, hkind, rfl, rfl⟩

/-- Offering an attribute to the widget changes the widget. -/
theorem adorns_offerWidget (name value : Text) : Adorns r kind (offerWidget name value) := by
  intro machine n e _ hn hkind
  have hkeep : (e.setAttribute name value).kind = e.kind ∧
      (e.setAttribute name value).container = e.container := by
    unfold Element.setAttribute
    split <;> exact ⟨rfl, rfl⟩
  obtain ⟨tag, conduct, widget, children⟩ := n
  obtain rfl : widget = some (.element e) := hn
  exact ⟨e.setAttribute name value, machine.notices, hkeep.1.trans hkind, hkeep.2, rfl⟩

/-- The host attends to an attribute and may have another one applied. -/
theorem adorns_host {fuel : Nat} {name value owner title : Text} {target : Option Text}
    (h : ∀ other, target = some other → Adorns r kind (apply fuel other value)) :
    Adorns r kind (applyBy fuel name value
      (some (.native (.host { kind := owner, name := title, target })))) := by
  intro machine n e hr hn hkind
  let noted :=
    { machine with notices := .attribute title owner n.tag.name value :: machine.notices }
  cases target with
  | none => exact adorns_pure noted n e hr hn hkind
  | some other => exact h other rfl noted n e hr hn hkind

/-- With enough fuel an attribute that is taken is applied. -/
theorem exists_apply {name : Text} (h : r.Takes kind name) :
    ∃ enough, ∀ fuel, enough ≤ fuel → ∀ value, Adorns r kind (apply fuel name value) := by
  -- On why the attribute is taken. Each time it is handed on takes one unit of fuel more.
  induction h with
  | unknown hname =>
    refine ⟨1, fun fuel hfuel value => ?_⟩
    obtain ⟨less, rfl⟩ := Nat.exists_eq_add_of_le' hfuel
    refine adorns_apply ?_
    rw [hname]
    exact adorns_offerWidget _ value
  | identity hname =>
    refine ⟨1, fun fuel hfuel value => ?_⟩
    obtain ⟨less, rfl⟩ := Nat.exists_eq_add_of_le' hfuel
    refine adorns_apply ?_
    rw [hname]
    exact adorns_nameWidget value
  | @host name owner title target hname _ ih =>
    have hother : ∃ enough, ∀ fuel, enough ≤ fuel → ∀ value other, target = some other →
        Adorns r kind (apply fuel other value) := by
      cases target with
      | none => exact ⟨0, fun _ _ _ _ hnone => by cases hnone⟩
      | some other =>
        obtain ⟨enough, henough⟩ := ih other rfl
        refine ⟨enough, fun fuel hfuel value other' heq => ?_⟩
        obtain rfl := Option.some.inj heq
        exact henough fuel hfuel value
    obtain ⟨enough, henough⟩ := hother
    refine ⟨enough + 1, fun fuel hfuel value => ?_⟩
    obtain ⟨less, rfl⟩ := Nat.exists_eq_add_of_le' (Nat.le_trans (Nat.le_add_left 1 enough) hfuel)
    refine adorns_apply ?_
    rw [hname]
    exact adorns_host (henough less (Nat.le_of_succ_le_succ hfuel) value)

/-- With enough fuel all attributes of a tag are applied. -/
theorem exists_applyAll {pairs : List (Text × Text)} (h : ∀ pair ∈ pairs, r.Takes kind pair.1) :
    ∃ enough, ∀ fuel, enough ≤ fuel →
      Adorns r kind (pairs.forM fun (name, value) => apply fuel name value) := by
  induction pairs with
  | nil => exact ⟨0, fun _ _ => adorns_pure⟩
  | cons pair pairs ih =>
    obtain ⟨hpair, hpairs⟩ := List.forall_mem_cons.mp h
    obtain ⟨enough, happly⟩ := exists_apply hpair
    obtain ⟨more, hall⟩ := ih hpairs
    refine ⟨max enough more, fun fuel hfuel => ?_⟩
    have hfirst := happly fuel (Nat.le_trans (Nat.le_max_left ..) hfuel) pair.2
    exact hfirst.bind (hall fuel (Nat.le_trans (Nat.le_max_right ..) hfuel))

/-- **The node of an element whose attributes are taken is shaped.** -/
theorem exists_shape {pairs : List (Text × Text)} (h : ∀ pair ∈ pairs, r.Takes kind pair.1) :
    ∃ enough, ∀ fuel, enough ≤ fuel → ∀ (machine : Machine) (n : Node) (e : Element Node),
      machine.registry = r → n.widget = some (.element e) → e.kind = kind →
      n.tag.attributes = .ofPairs pairs →
      ∃ (e' : Element Node) (notices : List Notice), e'.container = e.container ∧
        shape (applyTag fuel) n machine =
          .ok { n with widget := some (.element e') } { machine with notices } := by
  obtain ⟨enough, hall⟩ := exists_applyAll h
  refine ⟨enough, fun fuel hfuel machine n e hr hn hkind hpairs => ?_⟩
  obtain ⟨e', notices, _, hcontainer, hrun⟩ := hall fuel hfuel machine n e hr hn hkind
  refine ⟨e', notices, hcontainer, shape_of_ok ?_⟩
  have htag : applyTag fuel (n, machine) =
      (if n.tag.attributes.values ≠ [] then _ else
        n.tag.attributes.pairs.forM fun (name, value) => apply fuel name value : Shaping Unit)
          (n, machine) := rfl
  rw [hpairs, if_neg (by simp), Attributes.pairs_ofPairs] at htag
  rw [htag, hrun]

end Shaping

end MarkupTemplate
