import MarkupTemplate.Engine.State
import MarkupTemplate.Tag.Basic

/-!
# Faults that lenient reading spares

Some faults only tell of an anomaly that lenient reading passes over: a name that nothing is
registered for, a word where a truth value should stand, text or a tag in a place that takes none
(`Fault.isStrictOnly`). Each of them is raised in a different part of the engine, and templates,
macros, equations and hooks lead from every part to every other one.

A pure outcome is **mild** if it is none of these faults. What the engine does not decide itself,
the rules of operators and the replies of actions, has to be mild as well for lenient reading to
spare them all, which is a part of `Machine.Lenient`.

It has to be said of every call of an action, since the reply may depend on how often it was called.
A host that answered with a fault of strict reading could make a lenient parser report one, and
nothing in the parser would stop it.
-/

set_option autoImplicit false

namespace MarkupTemplate

/-- Whether a fault is one that only strict reading reports. -/
def Fault.isStrictOnly : Fault → Bool
  | unknownTag _ | unknownMacro _ | unknownAttribute .. | unknownAction _ => true
  | invalidBoolean _ | unexpectedText _ | notAParent _ => true
  | _ => false

/-! ## Outcomes -/

/-- Whether an outcome is not such a fault. -/
def Mild {α : Type} (o : Except Fault α) : Prop := ∀ f, o = .error f → f.isStrictOnly = false

section

variable {α β : Type} {o : Except Fault α}

theorem mild_ok (a : α) : Mild (.ok a : Except Fault α) := fun _ h => by cases h

theorem mild_error {f : Fault} (hf : f.isStrictOnly = false) :
    Mild (.error f : Except Fault α) := by
  rintro _ ⟨⟩
  exact hf

theorem Mild.map (h : Mild o) (g : α → β) : Mild (o.map g) := by
  cases o with
  | ok a => exact mild_ok _
  | error f => exact mild_error (h f rfl)

theorem Mild.bind {g : α → Except Fault β} (h : Mild o) (hg : ∀ a, o = .ok a → Mild (g a)) :
    Mild (o.bind g) := by
  cases o with
  | ok a => exact hg a rfl
  | error f => exact mild_error (h f rfl)

end

/-! ## The source and tags

Three parts of the engine that fail in ways of their own, none of which lenient reading spares. -/

/-- A source that cannot be read is an import error. -/
theorem Source.mild_read (s : Source) (origin : Origin) (path : Text) :
    Mild (s.read origin path) := by
  unfold Source.read
  cases s.answer origin path with
  | ok text => exact mild_ok text
  | error reason => exact mild_error rfl

theorem Attributes.mild_parse (tag text : Text) (separator : Char) :
    Mild (Attributes.parse tag text separator) := by
  unfold Attributes.parse
  split
  · exact mild_error rfl
  · split
    · exact mild_ok _
    · exact mild_ok _
    · exact mild_ok _
    · exact mild_error rfl

theorem Tag.mild_parse (m : Markers) (raw : Text) : Mild (Tag.parse m raw) := by
  unfold Tag.parse
  dsimp only
  split
  · exact mild_error rfl
  · exact (Attributes.mild_parse _ _ _).map _

/-! ## Operators and actions -/

/-- Whether an operator never fails with a fault of strict reading. -/
structure Operator.Mild (op : Operator) : Prop where
  binary : ∀ l r, MarkupTemplate.Mild (op.applyBinary l r)
  unary : ∀ o, MarkupTemplate.Mild (op.applyUnary o)

/-- Whether all operators of a table are mild. -/
def OperatorTable.Mild (t : OperatorTable) : Prop :=
  ∀ symbol op, t.get? symbol = some op → op.Mild

/-- Whether an action never fails with a fault of strict reading, however often it is called. -/
def Action.Mild (a : Action) : Prop :=
  ∀ calls argument, MarkupTemplate.Mild (a.reply calls argument)

/-- Whether all registered actions are mild. -/
def Registry.Mild (r : Registry) : Prop := ∀ place a, r.actionAt? place = some a → a.Mild

theorem Dictionary.exists_of_get?_insert {d : Dictionary Action} {name name' : Text}
    {called a : Action} {calls : Nat} (hfound : d.get? name = some called)
    (h : (d.insert name { called with calls }).get? name' = some a) :
    ∃ a', d.get? name' = some a' ∧ a'.reply = a.reply := by
  rw [Dictionary.get?_insert] at h
  split at h
  · next hname =>
    obtain rfl := Option.some.inj h
    exact ⟨called, hname ▸ hfound, rfl⟩
  · exact ⟨a, h, rfl⟩

namespace Registry

variable {r : Registry}

theorem exists_of_actionAt?_countCall {place place' : ActionPlace} {a : Action}
    (h : (r.countCall place).actionAt? place' = some a) :
    ∃ a', r.actionAt? place' = some a' ∧ a'.reply = a.reply := by
  -- Counting a call puts one action in place of another with the same replies.
  unfold countCall at h
  split at h
  · next name =>
    split at h
    · next called hfound =>
      cases place' with
      | alone name' => exact Dictionary.exists_of_get?_insert hfound h
      | inside container name' => exact ⟨a, h, rfl⟩
    · exact ⟨a, h, rfl⟩
  · next container name =>
    split at h
    · next actions hcontainer =>
      split at h
      · next called hfound =>
        cases place' with
        | alone name' => exact ⟨a, h, rfl⟩
        | inside container' name' =>
          obtain ⟨actions', hactions', ha⟩ := Option.bind_eq_some_iff.mp h
          rw [Dictionary.get?_insert] at hactions'
          split at hactions'
          · next hc =>
            obtain rfl := Option.some.inj hactions'
            obtain ⟨a', ha', hreply⟩ := Dictionary.exists_of_get?_insert hfound ha
            exact ⟨a', Option.bind_eq_some_iff.mpr ⟨actions, hc ▸ hcontainer, ha'⟩, hreply⟩
          · exact ⟨a, Option.bind_eq_some_iff.mpr ⟨actions', hactions', ha⟩, rfl⟩
      · exact ⟨a, h, rfl⟩
    · exact ⟨a, h, rfl⟩

theorem Mild.countCall (h : r.Mild) (place : ActionPlace) : (r.countCall place).Mild := by
  intro place' a ha
  obtain ⟨a', ha', hreply⟩ := exists_of_actionAt?_countCall ha
  intro calls argument
  rw [← hreply]
  exact h place' a' ha' calls argument

/-- A call is mild, and so is what the registry is then. -/
theorem Mild.call? (h : r.Mild) {separator : Char} {name : Text} {argument : Option Text}
    {call : Call} (hcall : r.call? separator name argument = some call) :
    MarkupTemplate.Mild call.reply ∧ call.registry.Mild := by
  obtain ⟨place, -, hplace⟩ := Option.bind_eq_some_iff.mp hcall
  obtain ⟨action, haction, rfl⟩ := Option.map_eq_some_iff.mp hplace
  exact ⟨h place action haction _ _, h.countCall place⟩

end Registry

/-! ## Lenient machines

The three things that have to be lenient, and that reading keeps. -/

/-- Whether a machine reads leniently, and what it asks for answers leaves strict reading alone. -/
structure Machine.Lenient (m : Machine) : Prop where
  strict : m.parser.settings.strict = false
  operators : m.parser.operators.Mild
  registry : m.registry.Mild

theorem Machine.Lenient.withParser {m : Machine} (h : m.Lenient) {p : Parser}
    (hsettings : p.settings = m.parser.settings) (hoperators : p.operators = m.parser.operators) :
    Machine.Lenient { m with parser := p } :=
  ⟨hsettings ▸ h.strict, hoperators ▸ h.operators, h.registry⟩

end MarkupTemplate
