import MarkupTemplate.Tag.Basic

/-!
# Widgets

A widget is what a tag stands for on the screen. An **element** remembers everything a template
told it: its text, its attributes, and the hooks on its events. An **inert** widget only has an
identity; it takes no text, attributes, hooks or children.

A hook is template text that waits for an event. What it was parsed to, once, is kept with it, so
the types here take the type of the nodes of a parse as a parameter.
-/

set_option autoImplicit false

namespace MarkupTemplate

/-- What can happen to a widget. -/
inductive WidgetEvent where
  | change
  | click
  | input
deriving DecidableEq, Inhabited

def WidgetEvent.name : WidgetEvent → Text
  | change => "Change".toList
  | click => "Click".toList
  | input => "Input".toList

/-- The result of parsing a template: its root nodes, and the text outside of all of them. -/
structure Parsed (ν : Type) where
  nodes : List ν := []
  text : Text := []

/-- Template text that is parsed when an event happens. What it was parsed to is kept in it, so a
hook changes by acting. -/
structure Hook (ν : Type) where
  event : WidgetEvent
  template : Text
  /-- The equation that has to hold for the hook to act. -/
  condition : Option Text := none
  /-- Whether the first parse serves all later events. -/
  cache : Bool := false
  cached : Option (Parsed ν) := none

/-- The hook with a condition; a blank one is none, and lets the hook act always. -/
def Hook.withCondition {ν : Type} (h : Hook ν) (condition : Option Text) : Hook ν :=
  { h with condition := condition.filter fun t => !Text.isBlankText t }

/-- A widget that remembers what it is told. There is room for one text, for one value under each
name, and for any number of hooks. -/
structure Element (ν : Type) where
  kind : Text
  id : Option Text := none
  text : Option Text := none
  attributes : List (Text × Text) := []
  hooks : List (Hook ν) := []
  container : Bool := true

namespace Element

variable {ν : Type}

def attribute? (e : Element ν) (name : Text) : Option Text := Attributes.find? name e.attributes

/-- Puts a value into the first attribute of a name, or into a new one at the end. Names are
compared without ASCII case, and the one that was there first is kept as it is spelled. -/
def putAttribute (name value : Text) : List (Text × Text) → List (Text × Text)
  | [] => [(name, value)]
  | (key, old) :: rest =>
    if Text.eqIgnoringCase key name then (key, value) :: rest
    else (key, old) :: putAttribute name value rest

/-- Takes in an attribute; the one called `text` is the element's text. -/
def setAttribute (e : Element ν) (name value : Text) : Element ν :=
  if Text.eqIgnoringCase name "text".toList then { e with text := some value }
  else { e with attributes := putAttribute name value e.attributes }

end Element

/-- What a tag stands for on the screen. A tag may have none. -/
inductive Widget (ν : Type) where
  | element (e : Element ν)
  | inert (kind : Text) (id : Option Text)

namespace Widget

variable {ν : Type}

/-- The kind, which decides about the attributes a widget takes. -/
def kind : Widget ν → Text
  | element e => e.kind
  | inert kind _ => kind

def id : Widget ν → Option Text
  | element e => e.id
  | inert _ id => id

def isContainer : Widget ν → Bool
  | element e => e.container
  | inert .. => false

def setId (id : Text) : Widget ν → Widget ν
  | element e => element { e with id := some id }
  | inert kind _ => inert kind (some id)

/-- The widget with a text, if it takes one, in place of the text it had. -/
def setText? (text : Text) : Widget ν → Option (Widget ν)
  | element e => some (element { e with text := some text })
  | inert .. => none

/-- The widget with an attribute, if it takes it. -/
def setAttribute? (name value : Text) : Widget ν → Option (Widget ν)
  | element e => some (element (e.setAttribute name value))
  | inert .. => none

/-- The widget with one more hook, if it takes hooks. -/
def addHook? (hook : Hook ν) : Widget ν → Option (Widget ν)
  | element e => some (element { e with hooks := e.hooks ++ [hook] })
  | inert .. => none

/-- The widget without the hooks on an event, and how many there were. The hooks on other events
stay in their order. -/
def removeHooks (event : WidgetEvent) : Widget ν → Widget ν × Nat
  | element e =>
    let others := e.hooks.filter fun h => h.event ≠ event
    (element { e with hooks := others }, e.hooks.length - others.length)
  | inert kind id => (inert kind id, 0)

end Widget

end MarkupTemplate
