import MarkupTemplate.Engine.Parse

/-!
# Events

When an event happens to an element, the hooks on that event act one after another: each evaluates
its condition and, if that holds, delivers the document of its template. A hook that caches delivers
the document of its first parse ever after.

If a hook fails, those behind it do not act, and what was delivered before stays delivered.

A host that keeps a hook of its own lets it act on a `Stage`: the hook as it is by then, and the
scene that collects what it delivers.
-/

set_option autoImplicit false

namespace MarkupTemplate

/-- What has become of an event: the hooks as they are behind it, the documents they have delivered,
and the reason why they stopped early if they did. A stop does not take back what was delivered in
front of it. -/
structure Firing where
  hooks : List (Hook Node)
  delivered : List Document := []
  stop : Option Stop := none

namespace Engine

/-- The title under which the template of a hook is read, which is what a host finds in the place of
an error. -/
def hookTitle (event : WidgetEvent) : Text := event.name ++ " listener".toList

/-- Whether the condition of a hook holds, if it has one. It is evaluated anew for every event, also
for a hook that caches. -/
def admits (fuel : Nat) (hook : Hook Node) : Engine Bool :=
  match hook.condition with
  | some condition => holds fuel condition
  | none => return true

/-- A hook after an event, and the document it delivers if its condition holds. A document is kept
once it is there, so a hook whose template fails caches nothing and is parsed again by the next
event. -/
def fireHook (fuel : Nat) (hook : Hook Node) : Engine (Hook Node × Option Document) := do
  if !(← admits fuel hook) then return (hook, none)
  match hook.cached with
  | some document => return (hook, some document)
  | none =>
    let document ← fragment fuel hook.template (hookTitle hook.event)
    return (if hook.cache then { hook with cached := some document } else hook, some document)

/-- Lets the hooks on one event act in order, those on other events being passed over. -/
def fireHooks (fuel : Nat) (event : WidgetEvent) : List (Hook Node) → Engine Firing
  | [] => return { hooks := [] }
  | hook :: rest => do
    if hook.event ≠ event then
      let after ← fireHooks fuel event rest
      return { after with hooks := hook :: after.hooks }
    match ← attempt (fireHook fuel hook) with
    -- The hook that failed keeps its place, and those behind it do not act.
    | .error stop => return { hooks := hook :: rest, stop := some stop }
    | .ok (hook, document) =>
      let after ← fireHooks fuel event rest
      return { after with
        hooks := hook :: after.hooks, delivered := document.toList ++ after.delivered }

end Engine

/-- A hook that a host keeps for itself, and the documents it has delivered, the latest at the
end. -/
structure Stage where
  hook : Hook Node
  scene : List Document := []

/-- Lets the hook act. The answer is whether its condition held; if it fails, hook and scene stay as
they are, so a later event finds them as if the failed one had not happened. -/
def Stage.fire (fuel : Nat) (s : Stage) : Engine (Except Stop Bool × Stage) := do
  match ← Engine.attempt (Engine.fireHook fuel s.hook) with
  | .ok (hook, document) =>
    return (.ok document.isSome, { hook, scene := s.scene ++ document.toList })
  | .error stop => return (.error stop, s)

end MarkupTemplate
