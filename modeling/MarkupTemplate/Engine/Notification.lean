import MarkupTemplate.Engine.State

/-!
# Notifying listeners

In front of a parse and behind it the parser notifies its listeners in the order in which they were
added. Each one says whether it wants to be kept, or fails. After a failure the remaining ones are
kept without being notified. Listeners added meanwhile come behind those that are kept.

A round works on a list of its own: the listeners are taken off the parser first, and what the
parser has by the end was added during the round. So a listener that is added is not notified in the
same round, however often it adds others.
-/

set_option autoImplicit false

namespace MarkupTemplate

/-- What a listener says about itself when it has been notified. -/
inductive Answer where
  | keep
  | leave
  | failed (f : Fault)

/-- The listeners that are notified in a phase, in the order of notification. -/
def Parser.listeners (p : Parser) : Phase → List Listener
  | .before => p.before
  | .after => p.after

def Parser.setListeners (p : Parser) (phase : Phase) (listeners : List Listener) : Parser :=
  match phase with
  | .before => { p with before := listeners }
  | .after => { p with after := listeners }

namespace Engine

/-- Adds a listener behind the ones that a phase has. During a round there may be none, since they
have been taken off. -/
def addListener (phase : Phase) (l : Listener) : Engine Unit :=
  modifyParser fun p => p.setListeners phase (p.listeners phase ++ [l])

def addHostListener (l : HostListener) : Engine Unit := addListener l.phase (.host l)

/-- Notifies a listener of the host. The call is counted and noted before anything else happens, and
what the listener does is done also if it fails in the end. -/
def notifyHost (l : HostListener) (nodes : List Node) : Engine (HostListener × Answer) := do
  let l := { l with calls := l.calls + 1 }
  note (.listener l.name l.calls (nodes.map fun n => n.tag.name))
  l.assigned.forM fun (name, value) => setArgument name value
  append l.appended l.name
  l.added.forM addHostListener
  match l.failure with
  | some message => return (l, .failed (.custom message))
  | none => return (l, if l.calls < l.keep then .keep else .leave)

/-- Adds a hook to the first node of each name, as far as there is one that takes hooks. The other
nodes of that name get none. -/
def attachHook (hook : Hook Node) (ids : List Text) (nodes : List Node) : List Node :=
  ids.foldl (fun nodes id => Node.update id (fun n => (n.addHook? hook).getD n) nodes) nodes

/-- Notifies a listener. Only one that attaches a hook changes the nodes; the host's listeners see
the nodes and leave them as they are. -/
def notifyOne (l : Listener) (nodes : List Node) : Engine (Listener × Answer × List Node) := do
  match l with
  | .host l =>
    let (l, answer) ← notifyHost l nodes
    return (.host l, answer, nodes)
  | .attach ids hook keep => return (l, if keep then .keep else .leave, attachHook hook ids nodes)

/-- Notifies listeners in order: those that are kept, the failure if there is one, and the nodes as
they are then. The recursion stops at the first failure with the rest of the list untouched, so the
listeners behind it are kept. -/
def notifyEach : List Listener → List Node → Engine (List Listener × Option Fault × List Node)
  | [], nodes => return ([], none, nodes)
  | l :: rest, nodes => do
    let (l, answer, nodes) ← notifyOne l nodes
    match answer with
    | .failed f => return (l :: rest, some f, nodes)
    | .leave => notifyEach rest nodes
    | .keep =>
      let (kept, failure, nodes) ← notifyEach rest nodes
      return (l :: kept, failure, nodes)

/-- Notifies the listeners of a phase, which may change the nodes. The ones that are kept are back
in place before a failure is raised. -/
def notify (phase : Phase) (nodes : List Node) : Engine (List Node) := do
  let listeners := (← parser).listeners phase
  modifyParser fun p => p.setListeners phase []
  let (kept, failure, nodes) ← notifyEach listeners nodes
  -- What the parser has by now was added by the listeners notified.
  modifyParser fun p => p.setListeners phase (kept ++ p.listeners phase)
  match failure with
  | some f => fail f
  | none => return nodes

end Engine

end MarkupTemplate
