import Mathlib
import MarkupTemplate.Proofs.Engine.Reading

/-!
# What a failed parse leaves

A parse that fails while its template is read leaves nothing unread, no open tag, no root and no
text. The settings, the operators and the listeners in front of a parse stay as they were. What the
template has told the parser for good stays as well: the arguments it has set and what it has
registered.

That should be all, but it is not. A macro that hangs a hook on nodes of other names has it wait
behind the parse, and the listeners that wait there are not looked at when the parse fails. So the
hooks of the failed template are still there (`parse_of_failed_scan`), and the next template that
has nodes of these names gets them (`not_cleared`).

That nothing but hooks can be there is proved under the assumption that hosts are courteous: code of
a host that adds a listener of its own while a template is read, or takes one away, is not described
by `HostTag` and `HostMacro`.
-/

set_option autoImplicit false

namespace MarkupTemplate

/-- Whether a listener only adds a hook to some nodes. Listeners of the host are the other kind. -/
def Listener.isAttach : Listener → Bool
  | attach .. => true
  | host _ => false

/-- Whether a parser still has the settings, the operators and the listeners of another one, with
more hooks that wait behind the parse perhaps. It is a frame for all that reading a template does,
and what makes it one is that a template can add nothing but hooks. -/
structure SameSetup (m m' : Machine) : Prop where
  settings : m'.parser.settings = m.parser.settings
  operators : m'.parser.operators = m.parser.operators
  before : m'.parser.before = m.parser.before
  after : ∃ hooks : List Listener, (∀ l ∈ hooks, l.isAttach = true) ∧
    m'.parser.after = m.parser.after ++ hooks

theorem SameSetup.of_eq {m m' : Machine} (hsettings : m'.parser.settings = m.parser.settings)
    (hoperators : m'.parser.operators = m.parser.operators)
    (hbefore : m'.parser.before = m.parser.before) (hafter : m'.parser.after = m.parser.after) :
    SameSetup m m' :=
  ⟨hsettings, hoperators, hbefore, [], by simp, by rw [hafter, List.append_nil]⟩

instance : GrowingFrame SameSetup where
  refl _ := .of_eq rfl rfl rfl rfl
  trans h h' := by
    obtain ⟨hooks, hattach, hafter⟩ := h.after
    obtain ⟨hooks', hattach', hafter'⟩ := h'.after
    refine ⟨h'.settings.trans h.settings, h'.operators.trans h.operators,
      h'.before.trans h.before, hooks ++ hooks', ?_, ?_⟩
    · exact List.forall_mem_append.mpr ⟨hattach, hattach'⟩
    · rw [hafter', hafter, List.append_assoc]
  notices _ _ := .of_eq rfl rfl rfl rfl
  registry _ _ := .of_eq rfl rfl rfl rfl
  reader _ _ := .of_eq rfl rfl rfl rfl
  environment _ _ := .of_eq rfl rfl rfl rfl
  draws _ _ := .of_eq rfl rfl rfl rfl
  text _ _ := .of_eq rfl rfl rfl rfl
  widget _ _ := .of_eq rfl rfl rfl rfl
  deferred _ ids hook keep :=
    ⟨rfl, rfl, rfl, [.attach ids hook keep], by simp [Listener.isAttach], rfl⟩
  parents _ _ := .of_eq rfl rfl rfl rfl
  roots _ _ := .of_eq rfl rfl rfl rfl

/-- The machine at rest, with what the reading of a template has told it for good, and with some
more listeners behind the next parse. -/
def Machine.cleared (start inside : Machine) (hooks : List Listener) : Machine :=
  { inside with
    parser := { start.parser.atRest with
      environment := inside.parser.environment, after := start.parser.after ++ hooks } }

namespace Engine

variable {fuel : Nat} {template name : Text} {machine start inside : Machine} {stop : Stop}

/-- Telling the place of an error leaves the machine as it was. -/
theorem exists_locating {x : Engine Unit} (h : x start = .error stop inside) :
    ∃ stop', locating x start = .error stop' inside := by
  unfold locating
  rw [h]
  cases stop with
  | failure e => exact ⟨.failure (e.locate inside.parser.reader), rfl⟩
  | exhausted => exact ⟨.exhausted, rfl⟩
  | overflow => exact ⟨.overflow, rfl⟩

/-- **A parse that fails while its template is read** leaves the machine at rest as it was when the
reading began, but for the arguments, the registry and the notices, and but for hooks that wait
behind the next parse. This holds of hosts as far as they are courteous (`hosts_courteous`): what
the engine runs of a host leaves settings, operators and listeners alone. -/
theorem parse_of_failed_scan (hstart : startParse template name machine = .ok () start)
    (hscan : scan fuel [] start = .error stop inside) :
    ∃ stop' hooks, (∀ l ∈ hooks, Listener.isAttach l = true) ∧
      parse fuel template name machine = .error stop' (start.cleared inside hooks) := by
  have hsetup : SameSetup start inside := (within_scan fuel []).of_error hscan
  obtain ⟨hooks, hattach, hafter⟩ := hsetup.after
  -- The setup is as it was but for the new hooks, and the reset leaves only the environment beside
  -- it.
  have hinside : ({ inside with parser := inside.parser.atRest } : Machine) =
      start.cleared inside hooks := by
    unfold Machine.cleared Parser.atRest
    rw [hsetup.settings, hsetup.operators, hsetup.before, hafter]
  obtain ⟨stop', hlocating⟩ := exists_locating hscan
  refine ⟨stop', hooks, hattach, ?_⟩
  rw [parse_eq, readDocument_eq, bind_of_ok hstart, bind_of_error hlocating]
  exact congrArg (EStateM.Result.error stop') hinside

/-- Where the template has left no hooks, a later parse goes as if it had never been tried, with the
arguments and the registry as they are now. -/
theorem parse_after_failed_scan (hrest : machine.parser.atRest = machine.parser)
    (hbefore : machine.parser.listeners .before = [])
    (hscan : scan fuel [] (machine.withReader (machine.parser.reader.append template name)) =
      .error stop inside)
    (hafter : inside.parser.after = machine.parser.after) (fuel' : Nat) (template' name' : Text) :
    parse fuel' template' name' (behind (parse fuel template name machine)) =
      parse fuel' template' name' { inside with
        parser := { machine.parser with environment := inside.parser.environment } } := by
  have hinside : ({ inside with parser := inside.parser.atRest } : Machine) = { inside with
      parser := { machine.parser.atRest with environment := inside.parser.environment } } := by
    -- No hook is left behind here, so of the parser only the environment remembers the failed run.
    have hsetup : SameSetup _ inside := (within_scan fuel []).of_error hscan
    unfold Parser.atRest
    rw [hsetup.settings, hsetup.operators, hsetup.before, hafter]
    rfl
  have hbehind : behind (parse fuel template name machine) =
      { inside with parser := inside.parser.atRest } := by
    obtain ⟨stop', hlocating⟩ := exists_locating hscan
    rw [parse_eq, readDocument_eq, bind_of_ok (startParse_eq hbefore), bind_of_error hlocating]
    rfl
  rw [hbehind, hinside, hrest]

/-! ## A hook that is left behind

A template hangs a hook on nodes of a name and then fails. The next template has such a node. -/

/-- The hook is hung before the stray closing tag is met. -/
def clickTemplate : Text := "<:onClick ids=\"a\">x</:onClick></b>".toList

/-- A node of the name that the hook was for. -/
def namedTemplate : Text := "<element id=\"a\"/>".toList

/-- Whether a computation fails, with fuel left. -/
def fails {α : Type} : EStateM.Result Stop Machine α → Bool
  | .error (.failure _) _ => true
  | _ => false

theorem exists_of_fails {α : Type} {outcome : EStateM.Result Stop Machine α}
    (h : fails outcome = true) : ∃ e machine, outcome = .error (.failure e) machine := by
  unfold fails at h
  split at h
  · next e machine => exact ⟨e, machine, rfl⟩
  · cases h

/-- The number of hooks on each node that a parse has given. -/
def hookCounts : EStateM.Result Stop Machine Document → List Nat
  | .ok document _ => document.nodes.map fun n =>
    match n.widget with
    | some (.element e) => e.hooks.length
    | _ => 0
  | .error .. => []

theorem parse_clickTemplate : ∃ e inside stop' hooks,
    scan 12 [] (Machine.withReader {} (Reader.append .empty clickTemplate defaultTitle)) =
      .error (.failure e) inside ∧ (∀ l ∈ hooks, Listener.isAttach l = true) ∧
    parse 12 clickTemplate defaultTitle {} = .error stop' (Machine.cleared
      (Machine.withReader {} (Reader.append .empty clickTemplate defaultTitle)) inside hooks) := by
  obtain ⟨e, inside, hscan⟩ := exists_of_fails (show fails (scan 12 []
    (Machine.withReader {} (Reader.append .empty clickTemplate defaultTitle))) = true by
      decide +kernel)
  obtain ⟨stop', hooks, hattach, hparse⟩ := parse_of_failed_scan (startParse_eq rfl) hscan
  exact ⟨e, inside, stop', hooks, hscan, hattach, hparse⟩

theorem behind_clickTemplate : behind (parse 12 clickTemplate defaultTitle {}) =
    { parser := { after := [.attach [['a']] { event := .click, template := ['x'] } false] } } := by
  cbv

theorem hookCounts_waiting : hookCounts (parse 12 namedTemplate defaultTitle { parser :=
    { after := [.attach [['a']] { event := .click, template := ['x'] } false] } }) = [1] := by
  cbv

theorem hookCounts_untried : hookCounts (parse 12 namedTemplate defaultTitle {}) = [0] := by
  cbv

/-- A node of the next template gets the hook of the failed one. -/
theorem not_cleared : ¬∀ (template template' : Text) (fuel : Nat) (e : Error) (machine : Machine),
    parse fuel template defaultTitle {} = .error (.failure e) machine →
      hookCounts (parse fuel template' defaultTitle machine) =
        hookCounts (parse fuel template' defaultTitle { machine with
          parser := { environment := machine.parser.environment } }) := by
  intro h
  obtain ⟨e, machine, hparse⟩ := exists_of_fails
    (show fails (parse 12 clickTemplate defaultTitle {}) = true by decide +kernel)
  -- The failed parse has left its hook, which a parser of the same environment would not have.
  have hmachine : machine = { parser :=
      { after := [.attach [['a']] { event := .click, template := ['x'] } false] } } := by
    rw [← behind_clickTemplate, hparse]
    rfl
  have hsame := h clickTemplate namedTemplate 12 e machine hparse
  subst hmachine
  rw [hookCounts_waiting, hookCounts_untried] at hsame
  cases hsame

end Engine

end MarkupTemplate
