import MarkupTemplate.Definition
import MarkupTemplate.Registry.Builtin
import MarkupTemplate.Registry.Lineage
import MarkupTemplate.Text.LetterCase

/-!
# Registry

Where the names of tags, macros, attributes and actions are looked up. Tags, macros and attributes
have names without letter case, and stand for something built in, something of the host, or a
definition that a template made. Actions have exact names and may be grouped in containers.

An attribute belongs to a kind of widgets and is looked for along the lineage of a kind.
-/

set_option autoImplicit false

namespace MarkupTemplate

/-- What a name stands for: something that the program can do, or text that a template has left
under it. -/
inductive Provider (α : Type) where
  | native (a : α)
  | template (definition : Definition)

/-- What makes a node out of a tag. Elements are built in, for any kind of widget; other tags come
from the host. -/
inductive TagMaker where
  /-- An element, of the kind given or the one its tag names. -/
  | element (kind : Option Text) (container : Bool)
  | host (tag : HostTag)

/-- What a macro tag runs. -/
inductive MacroMaker where
  | builtin (m : BuiltinMacro)
  | host (m : HostMacro)

/-- What an attribute is applied by. -/
inductive AttributeMaker where
  /-- Gives the widget its name. -/
  | identity
  | host (a : HostAttribute)

/-- Where an action is kept. -/
inductive ActionPlace where
  | alone (name : Text)
  | inside (container name : Text)
deriving DecidableEq

/-- What names stand for. A registry is a value, and parsers that share one are given the same; what
one of them adds is in the registry that it leaves. -/
structure Registry where
  tags : Dictionary (Provider TagMaker) := {}
  macros : Dictionary (Provider MacroMaker) := {}
  /-- For each kind, what is registered under the names of attributes. -/
  attributes : Dictionary (Dictionary (Provider AttributeMaker)) := {}
  /-- For each kind, the kinds it extends. -/
  parents : Dictionary (List Text) := {}
  actions : Dictionary Action := {}
  containers : Dictionary (Dictionary Action) := {}

namespace Registry

def empty : Registry := {}

/-- The registry of the language itself: one tag, one attribute, which gives a widget its name, and
the built-in macros. -/
def standard : Registry where
  tags := .ofList [("element".toList, .native (.element none true))]
  macros := .ofList (BuiltinMacro.table.map fun e =>
    (Text.lower e.1.toList, .native (.builtin e.2)))
  attributes := .ofList [(universalKind, .ofList [("id".toList, .native .identity)])]

/-! ## Tags and macros

Names are kept in lower case, and looked up in lower case. What is registered last under a name is
what counts, whether it was built in, the host's, or a template's. -/

def registerTag (r : Registry) (name : Text) (p : Provider TagMaker) : Registry :=
  { r with tags := r.tags.insert (Text.lower name) p }

def tagMaker? (r : Registry) (name : Text) : Option (Provider TagMaker) :=
  r.tags.get? (Text.lower name)

def registerMacro (r : Registry) (name : Text) (p : Provider MacroMaker) : Registry :=
  { r with macros := r.macros.insert (Text.lower name) p }

def macroMaker? (r : Registry) (name : Text) : Option (Provider MacroMaker) :=
  r.macros.get? (Text.lower name)

/-! ## Attributes

An attribute is registered for a kind, and found for all kinds that extend it. The nearest kind of
the lineage decides. -/

/-- Registers an attribute for a kind of widgets, which need not have been declared. -/
def registerAttribute (r : Registry) (kind name : Text) (p : Provider AttributeMaker) :
    Registry :=
  let kind := Text.lower kind
  let ofKind := (r.attributes.get? kind).getD {}
  { r with attributes := r.attributes.insert kind (ofKind.insert (Text.lower name) p) }

/-- Declares which kinds a kind extends, in place of an earlier declaration. -/
def registerKind (r : Registry) (kind : Text) (parents : List Text) : Registry :=
  { r with parents := r.parents.insert (Text.lower kind) (parents.map Text.lower) }

def lineage (r : Registry) (kind : Text) : List Text :=
  MarkupTemplate.lineage r.parents (Text.lower kind)

/-- What an attribute's name stands for: what the first kind of the lineage has under it. A tag
without a widget only has the attributes of the universal kind. -/
def attributeMaker? (r : Registry) (kind : Option Text) (name : Text) :
    Option (Provider AttributeMaker) :=
  let kinds := match kind with
    | some kind => r.lineage kind
    | none => [universalKind]
  kinds.findSome? fun k => (r.attributes.get? k).bind fun ofKind => ofKind.get? (Text.lower name)

/-! ## Actions

Actions are the host's, and a template cannot add one. They count their calls, so calling one gives
a new registry. -/

def registerAction (r : Registry) (name : Text) (a : Action) : Registry :=
  { r with actions := r.actions.insert name a }

def registerContainer (r : Registry) (name : Text) (actions : Dictionary Action) : Registry :=
  { r with containers := r.containers.insertLast name actions }

def actionAt? (r : Registry) : ActionPlace → Option Action
  | .alone name => r.actions.get? name
  | .inside container name => (r.containers.get? container).bind fun actions => actions.get? name

/-- The place of the action that a name means: one of this name, else one whose container the name
gives, else the first one of this name in any container. A place is found before the action is
called, so that the call can be counted there. -/
def actionPlace? (r : Registry) (separator : Char) (name : Text) : Option ActionPlace :=
  if r.actions.contains name then some (.alone name)
  else
    -- A container that lacks the action does not end the search.
    let qualified : Option ActionPlace := match Text.splitFirst? separator name with
      | some (container, action) =>
        if (r.actionAt? (.inside container action)).isSome then some (.inside container action)
        else none
      | none => none
    qualified.or <| r.containers.entries.findSome? fun e =>
      if e.2.contains name then some (.inside e.1 name) else none

/-- Notes a call of the action at a place. Nothing else in the registry changes, and the entries
keep their order. -/
def countCall (r : Registry) (place : ActionPlace) : Registry :=
  let called := fun a : Action => { a with calls := a.calls + 1 }
  match place with
  | .alone name =>
    match r.actions.get? name with
    | some a => { r with actions := r.actions.insert name (called a) }
    | none => r
  | .inside container name =>
    match r.containers.get? container with
    | some actions =>
      match actions.get? name with
      | some a =>
        { r with containers := r.containers.insert container (actions.insert name (called a)) }
      | none => r
    | none => r

/-- A call of an action: the name to note, its answer, and the registry behind it. The registry is
part of it also if the answer is a fault. -/
structure Call where
  title : Text
  reply : Except Fault Value
  registry : Registry

/-- Calls the action that a name means, if there is one. -/
def call? (r : Registry) (separator : Char) (name : Text) (argument : Option Text) : Option Call :=
  (r.actionPlace? separator name).bind fun place =>
    (r.actionAt? place).map fun action =>
      ⟨action.title, action.reply action.calls argument, r.countCall place⟩

end Registry

end MarkupTemplate
