import MarkupTemplate.Engine.Firing

/-!
# Documents in use

What a host does with a document after the parse: it finds nodes by name, applies attributes to
them, lets events happen to their elements, and takes hooks off. A document keeps the changes made
before an error.

Names need not be unique. Every operation means the first node of a name, in the order of opening
tags, and leaves the others alone.
-/

set_option autoImplicit false

namespace MarkupTemplate

namespace Document

/-- The first node of a name, below the roots or among them. -/
def find? (d : Document) (id : Text) : Option Node := Node.find? id d.nodes

/-- The document with another node in the place of the first one of a name. -/
def replace (d : Document) (id : Text) (n : Node) : Document :=
  { d with nodes := Node.update id (fun _ => n) d.nodes }

/-- Applies an attribute to the node of a name, if there is one. An attribute that fails half way
leaves what it did up to there, so the node is put back whatever the outcome is. -/
def apply (fuel : Nat) (d : Document) (id name value : Text) :
    Engine (Option (Except Stop Node) × Document) := do
  match d.find? id with
  | none => return (none, d)
  | some n =>
    let (outcome, n) ← Shaping.run (Shaping.apply fuel name value) n
    return (some (outcome.map fun _ => n), d.replace id n)

/-- Lets an event happen to the element of a name, if there is one. Nothing happens to other nodes,
and a widget that is no element has no hooks to act. -/
def fire (fuel : Nat) (d : Document) (id : Text) (event : WidgetEvent) :
    Engine (Option Firing × Document) := do
  match d.find? id with
  | none => return (none, d)
  | some n =>
    match n.widget with
    | some (.element e) =>
      let firing ← Engine.fireHooks fuel event e.hooks
      let n := { n with widget := some (.element { e with hooks := firing.hooks }) }
      return (some firing, d.replace id n)
    | _ => return (none, d)

/-- Takes the hooks on an event off the widget of a name, and says how many there were. -/
def removeHooks (d : Document) (id : Text) (event : WidgetEvent) : Option Nat × Document :=
  match d.find? id with
  | none => (none, d)
  | some n =>
    match n.widget.map (Widget.removeHooks event) with
    | none => (none, d)
    | some (w, count) => (some count, d.replace id { n with widget := some w })

end Document

end MarkupTemplate
