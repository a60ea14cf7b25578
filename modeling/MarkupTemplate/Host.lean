import MarkupTemplate.Error.Fault
import MarkupTemplate.Value

/-!
# What a host supplies

The program that uses templates, the host, adds tags, macros, attributes and actions of its own.
They are described by data: what they refuse, which text they put into the parse, which attribute
they pass on. An action is the one thing that computes: it is a function of how often it was called
before and of its argument.

Real code of a host is handed the parser and could do anything to it. Data can not, and that is the
assumption made here: a host leaves the open tags, the children, the roots and the listeners of
others alone. `Courteous` names it, and `hosts_courteous` shows that the engine keeps to it wherever
it runs something of the host.
-/

set_option autoImplicit false

namespace MarkupTemplate

/-- A regular tag of the host. It can refuse to be created, fail when it is closed, and append
template text then. It has no way to give its node children or to take them away. -/
structure HostTag where
  /-- The message with which the tag refuses to be created. -/
  refusal : Option Text := none
  /-- Whether the tag never takes children. -/
  isVoid : Bool := false
  /-- The kind of its widget, if it has one. -/
  widget : Option Text := none
  /-- Whether it takes text and children like an element. -/
  likeElement : Bool := false
  /-- The message it fails with when it is closed. -/
  failure : Option Text := none
  /-- The template text it appends when it is closed. -/
  appended : Text := []
deriving DecidableEq

/-- What a macro of the host does. All of it goes through the reader: a macro puts text in front of
what is unread, or has text read apart, and leaves the tree to the scanner. -/
inductive HostMacroEffect where
  /-- Appends the body. -/
  | body
  /-- Parses the body apart from the template, and tells the host what it came to. -/
  | fragment
  /-- Fails, unless anomalies are passed over. -/
  | failure (message : Text)
  /-- Appends a text of its own under a title. -/
  | append (text title : Text)
deriving DecidableEq

/-- A macro of the host. -/
structure HostMacro where
  /-- The message with which the macro refuses to be created. -/
  refusal : Option Text := none
  effect : HostMacroEffect
deriving DecidableEq

/-- The form in which an attribute of the host reads its value. -/
inductive ValueForm where
  | boolean
  | int
  | float
  | text
deriving DecidableEq

/-- An attribute of the host. It reads its value in a form and hands it on to another attribute,
which may be one of the widget or of the host again. -/
structure HostAttribute where
  kind : Text
  name : Text
  /-- The form of its value; as it is written if there is none. -/
  form : Option ValueForm := none
  /-- The attribute that gets the value. -/
  target : Option Text := none
deriving DecidableEq

/-- A function of the host that templates can call. It knows how often it was called, and may answer
the same argument differently each time; it cannot look at the parser. -/
structure Action where
  /-- The name under which calls are noted. -/
  title : Text
  /-- The answer to a call, given the number of calls before it and its argument. -/
  reply : Nat → Option Text → Except Fault Value
  calls : Nat := 0

/-- How important a message of a template is. -/
inductive LogLevel where
  | trace
  | debug
  | info
  | warn
  | error
deriving DecidableEq

end MarkupTemplate
