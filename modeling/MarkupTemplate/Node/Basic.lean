import MarkupTemplate.Node.Widget

/-!
# Nodes

A node is a tag of a parsed template with its widget and its children. How it takes the text and
the children between its opening and its closing tag depends on its conduct: an element hands text
to its widget and asks it about children; a node of the host takes no text and any children, and
may act when it is closed.
-/

set_option autoImplicit false

namespace MarkupTemplate

/-- How a node behaves while its tag is open, and when it is closed. It is settled when the node is
made and does not change. -/
inductive Conduct where
  | element
  /-- A node of the host: the message it fails with when it is closed, if it does, and the template
  text it appends otherwise. -/
  | host (failure : Option Text) (appended : Text)
deriving DecidableEq

/-- A tag with what became of it. The children are there because of the template only: neither the
widget nor the host can add one. -/
structure Node where
  tag : Tag
  conduct : Conduct := .element
  widget : Option (Widget Node) := none
  children : List Node := []

abbrev Document := Parsed Node

namespace Node

def id (n : Node) : Option Text := n.widget.bind Widget.id

def addChild (n child : Node) : Node := { n with children := n.children ++ [child] }

/-- The node with one more hook on its widget, if that takes hooks. -/
def addHook? (hook : Hook Node) (n : Node) : Option Node :=
  (n.widget.bind (Widget.addHook? hook)).map fun w => { n with widget := some w }

/-! ## The order of tags

Nodes are looked for in the order of their opening tags, a node in front of everything below it. The
recursions come in pairs, one for a node and one for a list of nodes, as the type does. -/

mutual

/-- A node and all nodes below it, in the order of their opening tags. -/
def preorder : Node → List Node
  | ⟨tag, conduct, widget, children⟩ => ⟨tag, conduct, widget, children⟩ :: preorderAll children
termination_by structural n => n

/-- Some nodes and all nodes below them, in the order of their opening tags. -/
def preorderAll : List Node → List Node
  | [] => []
  | n :: ns => preorder n ++ preorderAll ns
termination_by structural ns => ns

end

def hasId (id : Text) (n : Node) : Bool := n.id == some id

/-- The first node of a name, in the order of opening tags. -/
def find? (id : Text) (nodes : List Node) : Option Node := (preorderAll nodes).find? (hasId id)

mutual

/-- Changes the first node of a name, itself or below it. If none is found there is no result, so
that the search can go on elsewhere. -/
def update? (id : Text) (f : Node → Node) : Node → Option Node
  | ⟨tag, conduct, widget, children⟩ =>
    if hasId id ⟨tag, conduct, widget, children⟩ then some (f ⟨tag, conduct, widget, children⟩)
    else (updateAll? id f children).map fun cs => ⟨tag, conduct, widget, cs⟩
termination_by structural n => n

/-- Changes the first node of a name among some nodes and those below them. -/
def updateAll? (id : Text) (f : Node → Node) : List Node → Option (List Node)
  | [] => none
  | n :: ns =>
    match update? id f n with
    | some n => some (n :: ns)
    | none => (updateAll? id f ns).map (n :: ·)
termination_by structural ns => ns

end

/-- The nodes with the first one of a name changed, or as they are if there is none. The node
changed is the one that `find?` finds. -/
def update (id : Text) (f : Node → Node) (nodes : List Node) : List Node :=
  (updateAll? id f nodes).getD nodes

end Node

end MarkupTemplate
