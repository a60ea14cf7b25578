import MarkupTemplate.Environment
import MarkupTemplate.Equation.Standard
import MarkupTemplate.Error.Diagnostics
import MarkupTemplate.Node.Basic
import MarkupTemplate.Registry.Basic
import MarkupTemplate.Settings

/-!
# The engine

Reading a template changes a machine: the parser with its reader and its open tags, the registry,
which several parsers may share, the notices that the host gets on the way, and the random numbers
that are yet to be drawn. An `Engine` computation is such a change. It may stop early, and then
keeps what it changed so far.

There are three reasons to stop early, and only the first one is an **error** of the template, with
a message and a place. Templates can loop for ever, so the computations that repeat something of
unknown length take an amount of **fuel** and stop without it; that says nothing about the template.
And a template may name a range of more texts than an array has room for, which breaks the run off:
nothing catches it, and the machine behind it is one that no host gets to see.

Random numbers are not made here. They are read off a stream that the machine is given, so what is
proved about a run holds whatever is drawn, and two runs can be compared that draw the same.
-/

set_option autoImplicit false

namespace MarkupTemplate

/-! ## State

What is kept from one step to the next. Nothing is hidden in closures or references: two runs that
start with equal machines are the same run. -/

/-- When a listener of a parser is notified. -/
inductive Phase where
  | before
  /-- Behind a parse that did not fail. -/
  | after
deriving DecidableEq, Inhabited

/-- A listener of the host. Each time it is notified it sets arguments, appends template text, adds
other listeners and then fails, as far as it is told to. That is all that a listener is taken to do
to the parser: it does not open tags, nor touch what has been read, nor take other listeners away
(`hosts_courteous`). -/
structure HostListener where
  phase : Phase
  name : Text
  /-- The number of notifications at which the listener goes. With less it is kept. -/
  keep : Nat
  calls : Nat := 0
  assigned : List (Text × Text) := []
  appended : Text := []
  added : List HostListener := []
  failure : Option Text := none
deriving Inhabited

/-- What a parser notifies. -/
inductive Listener where
  | host (l : HostListener)
  /-- Adds a hook to the nodes of some names, once or after every parse. -/
  | attach (ids : List Text) (hook : Hook Node) (keep : Bool)

/-- What a host gets to know while templates are read. Notices are for the host alone: nothing that
is read depends on them. -/
inductive Notice where
  /-- A tag like an element was created, with or without an element for its widget. -/
  | created (isElement : Bool)
  | closed (tag : Text) (children : Nat) (parent : Option Text)
  | macroRun (tag : Tag) (parent : Option Text)
  | fragment (document : Document)
  | attribute (name kind tag value : Text)
  | action (title : Text) (argument : Option Text)
  | listener (name : Text) (calls : Nat) (roots : List Text)
  | message (level : LogLevel) (text : Text)

/-- A parser, between two steps of a parse or at rest. What a template changes for good is the
environment and the listeners; the rest is the host's or belongs to the parse under way. -/
structure Parser where
  settings : Settings := {}
  operators : OperatorTable := .standard
  environment : Environment := {}
  reader : Reader := {}
  /-- The open tags, the innermost first. -/
  parents : List Node := []
  /-- The finished nodes that have no parent. -/
  roots : List Node := []
  /-- The text outside of all tags. -/
  text : Text := []
  before : List Listener := []
  after : List Listener := []

/-- The random numbers that are yet to be drawn, the next one first. They may be any numbers at all:
whoever needs a smaller one takes the remainder, so every choice is the choice of some stream. -/
abbrev Draws := Nat → Nat

/-- All that reading a template can change. The registry is beside the parser and not in it, since
several parsers may share one. -/
structure Machine where
  registry : Registry := .standard
  parser : Parser := {}
  /-- The notices, the latest first. -/
  notices : List Notice := []
  draws : Draws := fun _ => 0

/-! ## Computations

`Engine` is a state with an early end, and a computation that stops keeps the changes made before.
That is why the machine behind an error is known, and can be asked for what the error has left. -/

/-- Why a computation stopped early. Only a failure is about the template, and only a failure is
ever caught or given a place. -/
inductive Stop where
  | failure (e : Error)
  /-- The fuel is used up. -/
  | exhausted
  /-- More texts were asked for than an array has room for. -/
  | overflow

/-- A change of the machine that may stop early. -/
abbrev Engine := EStateM Stop Machine

instance : Failing Engine := ⟨fun f => throw (.failure { fault := f })⟩

namespace Engine

def parser : Engine Parser := return (← get).parser

def modifyParser (f : Parser → Parser) : Engine Unit :=
  modify fun m => { m with parser := f m.parser }

def markers : Engine Markers := return (← parser).settings.markers

def isStrict : Engine Bool := return (← parser).settings.strict

/-- Raises a fault where anomalies are errors, and passes it over where they are not. The faults
that only strict reading knows are all raised here, so being lenient is one decision and not
many. -/
def failIfStrict (f : Fault) : Engine Unit := do
  if ← isStrict then fail f

def rejectAttributes (tag : Text) (reason : String) : Engine Unit :=
  failIfStrict (.invalidAttributes tag reason.toList)

def note (n : Notice) : Engine Unit := modify fun m => { m with notices := n :: m.notices }

def modifyRegistry (f : Registry → Registry) : Engine Unit :=
  modify fun m => { m with registry := f m.registry }

/-- Draws a random number: the first one of the stream, which is one shorter then. Nothing else
reads the stream, so a run that draws nothing leaves it as it was. -/
def draw : Engine Nat := do
  let m ← get
  set { m with draws := fun n => m.draws (n + 1) }
  return m.draws 0

/-- Sets an argument of the template, in place of one with the same name. -/
def setArgument (name value : Text) : Engine Unit :=
  modifyParser fun p => { p with environment := p.environment.setArgument name value }

/-- Puts a text in front of what is unread, under a name for errors that arise in it. -/
def append (text name : Text) : Engine Unit :=
  modifyParser fun p => { p with reader := p.reader.append text name }

/-- Puts the text that a macro produces in front of what is unread, under the name of the macro with
its marks. -/
def appendFrom (macroName text : Text) : Engine Unit := do
  append text ((← markers).macroTitle macroName)

/-- The outcome of a computation, which then does not stop early itself. What it changed stays
changed. -/
def attempt {α : Type} (x : Engine α) : Engine (Except Stop α) := fun m =>
  match x m with
  | .ok a m => .ok (.ok a) m
  | .error e m => .ok (.error e) m

/-- A computation whose errors say where the reader stands. An error that has a place already keeps
it, so the innermost one counts. -/
def locating {α : Type} (x : Engine α) : Engine α := fun m =>
  match x m with
  | .error (.failure e) m => .error (.failure (e.locate m.parser.reader)) m
  | other => other

/-- A computation whose errors are replaced by another one. Running out of fuel or of room is no
error, and is passed on. -/
def failingAs {α : Type} (f : Fault) (x : Engine α) : Engine α := fun m =>
  match x m with
  | .error (.failure _) m => .error (.failure { fault := f }) m
  | other => other

end Engine

end MarkupTemplate
