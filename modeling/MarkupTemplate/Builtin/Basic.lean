import MarkupTemplate.Builtin.Argument
import MarkupTemplate.Builtin.Extension
import MarkupTemplate.Builtin.Repetition

/-!
# Running built-in macros

Besides conditionals, loops, assignments, definitions and inclusions there are macros that drop
their body, fail, or tell the host something, and macros that hang a hook on a widget.
-/

set_option autoImplicit false

namespace MarkupTemplate

/-- The message that a tag states: an attribute, all of its attributes in a row, or its body. It is
resolved before it is told. -/
def messageOf (t : Tag) : Text :=
  match t.attributes.get? "message".toList, t.attributes.values with
  | some message, _ => message
  | none, [] => t.bodyText
  | none, values => Text.joinWith [' '] values

namespace Engine

/-- A truth value among the attributes of a tag, false if it is not there. -/
def flag (fuel : Nat) (t : Tag) (name : String) : Engine Bool :=
  match t.attributes.get? name.toList with
  | some raw => boolean fuel raw
  | none => return false

/-- Hangs a hook on the widget of the innermost open tag, if that takes hooks. The tag is not in the
tree yet, and is changed where it waits to be closed. -/
def hookParent (hook : Hook Node) : Engine Bool := do
  let p ← parser
  match p.parents with
  | parent :: outer =>
    match parent.addHook? hook with
    | some parent =>
      modifyParser fun p => { p with parents := parent :: outer }
      return true
    | none => return false
  | [] => return false

/-- Hangs the body as a hook on the widgets of the given names, once the template is read, or on the
widget around the macro. In the first case it is a listener behind the parse that does it, since the
nodes may come after the macro. -/
def runHooking (fuel : Nat) (event : WidgetEvent) (t : Tag) : Engine Unit := do
  let cache ← flag fuel t "cache"
  let keep ← flag fuel t "keep"
  let hook := Hook.withCondition { event, template := t.bodyText, cache }
    (t.attributes.get? "if".toList)
  match t.attributes.get? "ids".toList with
  | some ids =>
    let ids ← array fuel ids
    modifyParser fun p => { p with after := p.after ++ [.attach ids hook keep] }
  | none =>
    if !(← hookParent hook) then
      rejectAttributes t.name "no enclosing widget accepts listeners and no ids were given"

/-- Runs a built-in macro. Those that differ in a parameter are one case, and get the parameter from
the registry. -/
def runBuiltin (fuel : Nat) (m : BuiltinMacro) (t : Tag) : Engine Unit :=
  match m with
  | .conditional => runConditional fuel t
  | .nullCheck check => runNullCheck fuel check t
  | .repetition => runRepetition fuel t
  | .parallelLoop => runParallelLoop fuel t
  | .nestedLoop => runNestedLoop fuel t
  | .whileLoop => runWhileLoop fuel t
  | .assignment how => runAssignment fuel how t
  | .hooking event => runHooking fuel event t
  | .definition what => runDefinition what t
  | .inclusion origin => runInclusion fuel origin t
  | .comment => return
  | .exception => do fail (.custom (← string fuel (messageOf t)))
  | .log level => do note (.message level (← string fuel (messageOf t)))
  | .evaluation => runEvaluation fuel t

end Engine

end MarkupTemplate
