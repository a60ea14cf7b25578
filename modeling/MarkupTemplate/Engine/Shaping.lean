import MarkupTemplate.Engine.Values

/-!
# Shaping nodes

Attributes are applied to a node one after another, and each may change it. A `Shaping` computation
works on one node beside the machine; if it stops early, the node keeps what was applied before.

An attribute that a template defines stands for other attributes, which are applied in its place.
An attribute may not stand for itself, but two of them may stand for each other; fuel bounds how
deep this leads.
-/

set_option autoImplicit false

namespace MarkupTemplate

/-- A change of a node and of the machine that may stop early. The node is part of the state and not
of the result, so that it is known also when the computation stops. -/
abbrev Shaping := EStateM Stop (Node × Machine)

namespace Shaping

/-- A computation that leaves the node alone. -/
def lift {α : Type} (x : Engine α) : Shaping α := fun (n, m) =>
  match x m with
  | .ok a m => .ok a (n, m)
  | .error e m => .error e (n, m)

instance : MonadLift Engine Shaping := ⟨lift⟩

def node : Shaping Node := return (← get).1

def put (n : Node) : Shaping Unit := modify fun s => (n, s.2)

/-- The outcome of shaping a node, and the node it leaves. -/
def run {α : Type} (x : Shaping α) (n : Node) : Engine (Except Stop α × Node) := fun m =>
  match x (n, m) with
  | .ok a (n, m) => .ok (.ok a, n) m
  | .error e (n, m) => .ok (.error e, n) m

/-- The node that shaping leaves, unless it stops early. -/
def shape (x : Shaping Unit) (n : Node) : Engine Node := do
  match ← run x n with
  | (.ok _, n) => return n
  | (.error e, _) => throw e

/-! ## Single attributes

What one attribute does, once it is clear what is registered for it. -/

/-- Gives the widget of the node its name. A tag without widget has nowhere to keep it, which is an
anomaly. -/
def nameWidget (value : Text) : Shaping Unit := do
  let n ← node
  match n.widget with
  | some w => put { n with widget := some (w.setId value) }
  | none =>
    Engine.failIfStrict (.invalidAttributes n.tag.name
      ("no widget to carry id '".toList ++ value ++ ['\'']))

/-- Hands an attribute that nothing is registered for to the widget. Elements take any, other
widgets none. -/
def offerWidget (name value : Text) : Shaping Unit := do
  let n ← node
  match n.widget.bind (Widget.setAttribute? name value) with
  | some w => put { n with widget := some w }
  | none =>
    let kind := (n.widget.map Widget.kind).getD n.tag.name
    Engine.failIfStrict (.unknownAttribute kind name)

/-- A value in the form in which an attribute of the host reads it. It is read and written again, so
blanks and leading zeros are gone by the time the host gets it. -/
def inForm (fuel : Nat) (value : Text) : Option ValueForm → Engine Text
  | none => return value
  | some .boolean => return writeBool (← Engine.boolean fuel value)
  | some .int => return writeInt64 (← Engine.int fuel value)
  | some .float => return writeFloat .plain (← Engine.float fuel value)
  | some .text => Engine.string fuel value

/-- The attributes that a template's attribute stands for. Its text is resolved first and then read
as attributes of a tag; values without a name among them are an anomaly, and are passed over if that
is allowed. -/
def expansion (fuel : Nat) (d : Definition) (name value : Text) : Engine (List (Text × Text)) := do
  let m ← Engine.markers
  let expanded ← Engine.expand fuel (d.expandAttribute m value)
  let attributes ← ofOutcome (Attributes.parse name expanded m.attributeSeparator)
  if attributes.values ≠ [] then
    Engine.failIfStrict (.invalidAttributes name
      ("template attribute expanded to ".toList ++ Fault.quoted expanded))
  return attributes.pairs

/-! ## Application

An attribute is looked up along the lineage of the widget's kind, and may lead to others.
`applyEach` is told how to apply one, so that each of the functions recurses on one thing alone. -/

/-- Applies attributes in order; none of them may be the one called `name`, which stands for them.
Only this one name is looked at: a circle of several attributes is not noticed here, and runs out of
fuel. -/
def applyEach (apply : Text → Text → Shaping Unit) (name : Text) : List (Text × Text) → Shaping Unit
  | [] => return
  | (key, value) :: rest => do
    if Text.eqIgnoringCase key name then
      let reason := "template attribute expands to itself".toList
      (Failing.fail (.invalidAttributes name reason) : Engine Unit)
    apply key value
    applyEach apply name rest

/-- Applies an attribute by what is registered for it, along the lineage of the widget's kind. What
is registered is looked up anew for each attribute, since the template may have changed it
meanwhile. -/
def apply : Nat → Text → Text → Shaping Unit
  | 0, _, _ => throw .exhausted
  | fuel + 1, name, value => do
    let n ← node
    let registry : Registry := (← get).2.registry
    match registry.attributeMaker? (n.widget.map Widget.kind) name with
    | some (.native .identity) => nameWidget value
    | some (.native (.host a)) =>
      Engine.note (.attribute a.name a.kind n.tag.name value)
      let value ← inForm fuel value a.form
      match a.target with
      -- The target may be a host's attribute again, hence the fuel.
      | some target => apply fuel target value
      | none => return
    | some (.template d) => applyEach (apply fuel) name (← expansion fuel d name value)
    | none => offerWidget name value

def applyTag (fuel : Nat) : Shaping Unit := do
  let t := (← node).tag
  if t.attributes.values ≠ [] then
    Engine.rejectAttributes t.name "regular tags only take named attributes"
  t.attributes.pairs.forM fun (name, value) => apply fuel name value

end Shaping

end MarkupTemplate
