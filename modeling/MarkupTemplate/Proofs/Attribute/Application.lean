import MarkupTemplate.Proofs.Engine.Reading
import MarkupTemplate.Proofs.Forest.Elements

/-!
# Applied attributes

To apply an attribute that a template defines is to apply the attributes that it stands for, one
after another, until one of them fails. So an application leads to others inside of it (`Nests`),
those to others again, and fuel bounds how deep.

Whether that comes to an end is a question about all amounts of fuel, so it has to be said first how
runs with different amounts hang together. More fuel only makes a difference to a computation that
was out of it (`Extends`, `Steady`). That is `shapes_apply`, the statement that fuel is mirrored,
read for a computation that never touches the parser, where nothing is left to differ
(`Mirrors.extends`). So whether an application ends does not depend on a certain amount of fuel
(`finishes_iff_exists`), and which applications are inside of it depends on none.
-/

set_option autoImplicit false

namespace MarkupTemplate

namespace Engine

/-! ## More fuel

`Extends` keeps a result together with what it leaves, and of a failure only the fault, whose line
may be another one with more fuel. The three kinds of stops are kept apart, since being out of fuel
is the only one that says nothing about the run. -/

section

variable {σ α : Type}

/-- Whether an outcome was not cut off for lack of fuel. -/
def Ended (r : EStateM.Result Stop σ α) : Prop := ∀ s, r ≠ .error .exhausted s

/-- Whether an outcome is the one that more fuel leads to. -/
def Extends : EStateM.Result Stop σ α → EStateM.Result Stop σ α → Prop
  | .ok a s, outcome => outcome = .ok a s
  | .error (.failure e) _, outcome =>
    ∃ e' s, e'.fault = e.fault ∧ outcome = .error (.failure e') s
  | .error .overflow _, outcome => ∃ s, outcome = .error .overflow s
  | .error .exhausted _, _ => True

/-- Whether more fuel makes no difference to a computation that has ended. -/
def Steady (f : Nat → EStateM.Result Stop σ α) : Prop :=
  ∀ fuel fuel', fuel ≤ fuel' → Extends (f fuel) (f fuel')

/-- The outcome of what goes on behind an outcome. A failure stays, seen from the longer run. -/
def continued {τ β : Type} (r : EStateM.Result Stop σ α) (seen : σ → τ)
    (behind : α → σ → EStateM.Result Stop τ β) : EStateM.Result Stop τ β :=
  match r with
  | .ok a s => behind a s
  | .error stop s => .error stop (seen s)

variable {r r' : EStateM.Result Stop σ α} {f : Nat → EStateM.Result Stop σ α} {fuel fuel' : Nat}
  {a : α} {s : σ}

theorem ended_ok : Ended (.ok a s : EStateM.Result Stop σ α) := fun _ h => by cases h

theorem ended_failure {e : Error} : Ended (.error (.failure e) s : EStateM.Result Stop σ α) :=
  fun _ h => by cases h

theorem ended_overflow : Ended (.error .overflow s : EStateM.Result Stop σ α) :=
  fun _ h => by cases h

@[simp] theorem continued_ok {τ β : Type} (seen : σ → τ)
    (behind : α → σ → EStateM.Result Stop τ β) :
    continued (.ok a s) seen behind = behind a s := rfl

/-- What goes on behind an outcome was not cut off just if neither the outcome nor what follows it
was. Every statement about fuel in a sequence of steps comes down to this one. -/
theorem ended_continued_iff {τ β : Type} {seen : σ → τ} {behind : α → σ → EStateM.Result Stop τ β} :
    Ended (continued r seen behind) ↔ Ended r ∧ ∀ a s, r = .ok a s → Ended (behind a s) := by
  constructor
  · intro h
    refine ⟨?_, ?_⟩
    · rintro s rfl
      exact h (seen s) rfl
    · rintro a s rfl
      exact h
  · rintro ⟨hr, hbehind⟩
    cases r with
    | ok a s => exact hbehind a s rfl
    | error stop s =>
      cases stop with
      | exhausted => exact absurd rfl (hr s)
      | overflow => exact ended_overflow
      | failure e => exact ended_failure

theorem Extends.ended (h : Extends r r') (hr : Ended r) : Ended r' := by
  cases r with
  | ok a s =>
    obtain rfl := h
    exact ended_ok
  | error stop s =>
    cases stop with
    | exhausted => exact absurd rfl (hr s)
    | overflow =>
      obtain ⟨s', rfl⟩ := h
      exact ended_overflow
    | failure e =>
      obtain ⟨e', s', -, rfl⟩ := h
      exact ended_failure

theorem Steady.ended (h : Steady f) (hle : fuel ≤ fuel') (hf : Ended (f fuel)) :
    Ended (f fuel') := (h fuel fuel' hle).ended hf

/-- A result stays the very same with more fuel. -/
theorem Steady.ok (h : Steady f) (hle : fuel ≤ fuel') (hf : f fuel = .ok a s) :
    f fuel' = .ok a s := by
  have hextends := h fuel fuel' hle
  rwa [hf] at hextends

/-- A failure stays one with more fuel, with the same fault. -/
theorem Steady.failure {e : Error} (h : Steady f) (hle : fuel ≤ fuel')
    (hf : f fuel = .error (.failure e) s) :
    ∃ e' s', e'.fault = e.fault ∧ f fuel' = .error (.failure e') s' := by
  have hextends := h fuel fuel' hle
  rwa [hf] at hextends

/-- A result is the same with every amount of fuel that is enough. -/
theorem Steady.ok_of_ended (h : Steady f) (hf : f fuel = .ok a s) (hended : Ended (f fuel')) :
    f fuel' = .ok a s := by
  rcases Nat.le_total fuel fuel' with hle | hle
  · exact h.ok hle hf
  -- With less fuel it ended too, and it cannot have ended otherwise.
  · have hextends := h fuel' fuel hle
    rw [hf] at hextends
    cases hr : f fuel' with
    | ok a' s' =>
      rw [hr] at hextends
      exact hextends.symm
    | error stop s' =>
      rw [hr] at hextends
      cases stop with
      | exhausted => exact absurd hr (hended s')
      | overflow =>
        obtain ⟨s'', h'⟩ := hextends
        cases h'
      | failure e =>
        obtain ⟨e', s'', -, h'⟩ := hextends
        cases h'

end

/-- What a computation keeps holds of the state that it ends in. -/
theorem Keeps.of_ok {σ α : Type} {I : σ → Prop} {G : Stop → Prop} {x : EStateM Stop σ α} {a : α}
    {s s' : σ} (h : Keeps I G x) (hs : I s) (hx : x s = .ok a s') : I s' := by
  have hend := (h s hs).1
  rwa [hx] at hend

/-- What is mirrored with more fuel, and never touches the parser, has the very same result. -/
theorem Mirrors.extends {α : Type} {x y : Engine α} (h : Mirrors false x y)
    (hx : Within SameParser x) (hy : Within SameParser y) (machine : Machine) :
    Extends (x machine) (y machine) := by
  have hanswer := h machine machine.parser.reader rfl
  rw [Machine.twin_false, Machine.withReader_self] at hanswer
  cases hrun : x machine with
  | ok a machine' =>
    rw [hrun] at hanswer
    obtain ⟨r, -, hy'⟩ := hanswer
    rw [Machine.twin_false] at hy'
    -- Neither computation touches the parser, so the reader of the second is that of the first.
    have hparser : machine'.parser = machine.parser := hx.of_ok hrun
    have hparser' : (machine'.withReader r).parser = machine.parser := hy.of_ok hy'
    have hr : r = machine'.parser.reader :=
      congrArg Parser.reader (hparser'.trans hparser.symm)
    rw [hy', hr]
    rfl
  | error stop machine' =>
    rw [hrun] at hanswer
    cases stop with
    | exhausted => trivial
    | overflow =>
      obtain ⟨r, -, hy'⟩ := hanswer
      exact ⟨_, hy'⟩
    | failure e =>
      obtain ⟨e', r, hfault, -, hy'⟩ := hanswer rfl
      exact ⟨e', _, hfault, hy'⟩

end Engine

namespace Shaping

open Engine

variable {α : Type} {fuel : Nat}

/-- A shaping that is mirrored with more fuel. It carries a node beside the machine, so the
statement for computations is used with the node in front of them, and then taken apart again. -/
theorem Shapes.extends {x y : Shaping α} (h : Shapes false x y)
    (hx : ∀ start machine, Keeps (Shaped start (Reached SameParser machine)) anyStop x)
    (hy : ∀ start machine, Keeps (Shaped start (Reached SameParser machine)) anyStop y)
    (s : Node × Machine) : Extends (x s) (y s) := by
  obtain ⟨n, machine⟩ := s
  -- The node is carried in the state, so each side is turned into a computation that returns it.
  have hwithin : ∀ x : Shaping α,
      (∀ start machine, Keeps (Shaped start (Reached SameParser machine)) anyStop x) →
      Within SameParser (withNode x n) := by
    intro x hx machine
    have hkeeps := (hx n machine (n, machine) (shaped_self rfl)).1.2
    unfold WithinAt withNode
    cases hrun : x (n, machine) with
    | ok a s => rw [hrun] at hkeeps; exact hkeeps
    | error stop s => rw [hrun] at hkeeps; exact hkeeps
  have hextends := Mirrors.extends (h n) (hwithin x hx) (hwithin y hy) machine
  unfold withNode at hextends
  cases hrun : x (n, machine) with
  | ok a s =>
    rw [hrun] at hextends
    cases hrun' : y (n, machine) with
    | ok a' s' =>
      rw [hrun'] at hextends
      obtain ⟨hpair, hmachine⟩ := EStateM.Result.ok.inj hextends
      obtain ⟨rfl, hnode⟩ := Prod.mk.inj hpair
      rw [Extends, Prod.ext hnode hmachine]
    | error stop s' => rw [hrun'] at hextends; cases hextends
  | error stop s =>
    rw [hrun] at hextends
    cases stop with
    | exhausted => trivial
    | overflow =>
      obtain ⟨machine', heq⟩ := hextends
      cases hrun' : y (n, machine) with
      | ok a' s' => rw [hrun'] at heq; cases heq
      | error stop' s' =>
        rw [hrun'] at heq
        obtain ⟨rfl, -⟩ := EStateM.Result.error.inj heq
        exact ⟨s', rfl⟩
    | failure e =>
      obtain ⟨e', machine', hfault, heq⟩ := hextends
      cases hrun' : y (n, machine) with
      | ok a' s' => rw [hrun'] at heq; cases heq
      | error stop' s' =>
        rw [hrun'] at heq
        obtain ⟨rfl, -⟩ := EStateM.Result.error.inj heq
        exact ⟨e', s', hfault, rfl⟩

theorem steady_expansion (d : Definition) (name value : Text) (machine : Machine) :
    Steady fun fuel => expansion fuel d name value machine := fun _ _ hle =>
  (mirrors_expansion hle d name value).extends (Keeps.within fun _ => keeps_expansion d name value)
    (Keeps.within fun _ => keeps_expansion d name value) machine

theorem steady_inForm (value : Text) (form : Option ValueForm) (machine : Machine) :
    Steady fun fuel => inForm fuel value form machine := fun _ _ hle =>
  (mirrors_inForm hle value form).extends (Keeps.within fun _ => keeps_inForm value form)
    (Keeps.within fun _ => keeps_inForm value form) machine

/-- Applying an attribute is steady. Of the four computations this is the recursive one, and what
the chains below are about. -/
theorem steady_apply (name value : Text) (s : Node × Machine) :
    Steady fun fuel => apply fuel name value s := fun _ _ hle =>
  (shapes_apply hle name value).extends (fun _ _ => keeps_apply name value)
    (fun _ _ => keeps_apply name value) s

theorem steady_applyEach (name : Text) (pairs : List (Text × Text)) (s : Node × Machine) :
    Steady fun fuel => applyEach (apply fuel) name pairs s := fun _ _ hle =>
  (shapes_applyEach (shapes_apply hle) name pairs).extends
    (fun _ _ => keeps_applyEach keeps_apply name pairs)
    (fun _ _ => keeps_applyEach keeps_apply name pairs) s

/-! ## The attributes that one stands for

The list is gone through from the left, and an attribute of the same name in it is refused before it
is applied. So the attributes in front of it are applied still. -/

variable {f : Text → Text → Shaping Unit} {name key value : Text} {rest : List (Text × Text)}
  {s : Node × Machine}

/-- How an attribute is refused that stands for itself. -/
def selfExpansion (name : Text) : Fault :=
  .invalidAttributes name "template attribute expands to itself".toList

theorem applyEach_self (h : Text.eqIgnoringCase key name = true) :
    applyEach f name ((key, value) :: rest) s =
      .error (.failure { fault := selfExpansion name }) s := by
  rw [applyEach]
  dsimp only
  rw [if_pos h]
  rfl

theorem applyEach_cons (h : Text.eqIgnoringCase key name = false) :
    applyEach f name ((key, value) :: rest) s =
      continued (f key value s) id fun _ s' => applyEach f name rest s' := by
  rw [applyEach]
  dsimp only
  rw [if_neg (by simp [h])]
  show EStateM.bind (f key value) _ s = _
  rw [EStateM.bind]
  cases f key value s <;> rfl

/-- A list of attributes is applied part by part, and what fails in the first part ends it all. -/
theorem applyEach_append {before : List (Text × Text)} :
    applyEach f name (before ++ rest) s =
      continued (applyEach f name before s) id fun _ s' => applyEach f name rest s' := by
  induction before generalizing s with
  | nil => rfl
  | cons pair before ih =>
    obtain ⟨key, value⟩ := pair
    cases hself : Text.eqIgnoringCase key name with
    | true =>
      rw [List.cons_append, applyEach_self hself, applyEach_self hself]
      rfl
    | false =>
      rw [List.cons_append, applyEach_cons hself, applyEach_cons hself]
      cases f key value s with
      | ok u s' => exact ih
      | error stop s' => rfl

/-! ## Attributes that are not expanded

What is at the end of a chain: the name of a widget, an attribute that the widget takes, and one
that it does not. None of them needs fuel. -/

theorem ended_lift {x : Engine α} {machine : Machine} (n : Node) (h : Ended (x machine)) :
    Ended (lift x (n, machine)) := by
  unfold lift
  dsimp only
  cases hx : x machine with
  | ok a machine' => exact ended_ok
  | error stop machine' =>
    cases stop with
    | exhausted => exact absurd hx (h machine')
    | overflow => exact ended_overflow
    | failure e => exact ended_failure

theorem ended_failIfStrict (fault : Fault) (machine : Machine) :
    Ended (failIfStrict fault machine) := by
  rw [failIfStrict, bind_of_ok (isStrict_eq machine)]
  split
  · exact ended_failure
  · exact ended_ok

theorem ended_nameWidget (value : Text) (s : Node × Machine) : Ended (nameWidget value s) := by
  obtain ⟨⟨tag, conduct, widget, children⟩, machine⟩ := s
  cases widget with
  | some w => exact ended_ok
  | none => exact ended_lift _ (ended_failIfStrict _ machine)

theorem ended_offerWidget (name value : Text) (s : Node × Machine) :
    Ended (offerWidget name value s) := by
  obtain ⟨n, machine⟩ := s
  have hnode : ∀ behind : Node → Shaping Unit, (node >>= behind) (n, machine) =
      behind n (n, machine) := fun _ => rfl
  rw [offerWidget, hnode]
  dsimp only
  cases n.widget.bind (Widget.setAttribute? name value) with
  | some w => exact ended_ok
  | none => exact ended_lift n (ended_failIfStrict _ machine)

end Shaping

open Engine Shaping

/-! ## Applications -/

/-- An attribute that is to be applied, the node it is for, and the machine by then. All of it
counts: the kind of the widget decides what is registered under the name, and the machine what the
placeholders stand for. -/
structure Application where
  name : Text
  value : Text
  node : Node
  machine : Machine

namespace Application

/-- How the application goes with an amount of fuel. -/
def run (a : Application) (fuel : Nat) : EStateM.Result Stop (Node × Machine) Unit :=
  Shaping.apply fuel a.name a.value (a.node, a.machine)

/-- Whether it comes to an end, with an error or without. -/
def Finishes (a : Application) : Prop := ∃ least, ∀ fuel, least ≤ fuel → Ended (a.run fuel)

/-- What is registered for the attribute. -/
def maker? (a : Application) : Option (Provider AttributeMaker) :=
  a.machine.registry.attributeMaker? (a.node.widget.map Widget.kind) a.name

/-- The machine behind the notice that an attribute of the host gets. -/
def noted (a : Application) (host : HostAttribute) : Machine :=
  { a.machine with
    notices := .attribute host.name host.kind a.node.tag.name a.value :: a.machine.notices }

/-- Whether an application comes to one of the attributes that its own one stands for: those in
front of it were applied, and left the node and the machine as they are then. -/
inductive ComesTo (a : Application) (key value : Text) (n : Node) (machine : Machine) : Prop
  | intro {d : Definition} {fuel : Nat} {before after : List (Text × Text)} {expanded : Machine}
      (hmaker : a.maker? = some (.template d))
      (hpairs : expansion fuel d a.name a.value a.machine =
        .ok (before ++ (key, value) :: after) expanded)
      (hbefore : applyEach (Shaping.apply fuel) a.name before (a.node, expanded) =
        .ok () (n, machine))

/-- Whether an application leads to another one inside of it: the attribute of a template stands for
others, and one of the host may be handed on. -/
inductive Nests (a : Application) : Application → Prop
  | expanded {key value : Text} {n : Node} {machine : Machine} (h : a.ComesTo key value n machine)
      (hother : Text.eqIgnoringCase key a.name = false) : Nests a ⟨key, value, n, machine⟩
  | handed {host : HostAttribute} {target value : Text} {fuel : Nat} {machine : Machine}
      (hmaker : a.maker? = some (.native (.host host))) (htarget : host.target = some target)
      (hvalue : inForm fuel a.value host.form (a.noted host) = .ok value machine) :
      Nests a ⟨target, value, a.node, machine⟩

/-- Whether the placeholders come to an end that are resolved for an application itself. -/
def Resolves (a : Application) : Prop :=
  match a.maker? with
  | some (.template d) => ∃ fuel, Ended (expansion fuel d a.name a.value a.machine)
  | some (.native (.host host)) => ∃ fuel, Ended (inForm fuel a.value host.form (a.noted host))
  | _ => True

variable {a b : Application} {fuel : Nat}

theorem steady_run (a : Application) : Steady a.run := steady_apply a.name a.value _

theorem finishes_iff_exists : a.Finishes ↔ ∃ fuel, Ended (a.run fuel) :=
  ⟨fun ⟨least, h⟩ => ⟨least, h least (Nat.le_refl _)⟩,
    fun ⟨least, h⟩ => ⟨least, fun _ hle => a.steady_run.ended hle h⟩⟩

/-- To the first attribute that it stands for, an application comes at once. -/
theorem ComesTo.first {key value : Text} {d : Definition} {after : List (Text × Text)}
    {machine : Machine} (hmaker : a.maker? = some (.template d))
    (hpairs : expansion fuel d a.name a.value a.machine = .ok ((key, value) :: after) machine) :
    a.ComesTo key value a.node machine :=
  @ComesTo.intro a key value a.node machine d fuel [] after machine hmaker hpairs rfl

/-! ## Runs

One equation for each kind of attribute that can be registered, and none with a case left open. -/

theorem not_ended_zero (a : Application) : ¬Ended (a.run 0) := fun h => h _ rfl

/-- The attribute of a template is expanded, and what it stands for is applied with one unit of fuel
less. -/
theorem run_template {d : Definition} (h : a.maker? = some (.template d)) (fuel : Nat) :
    a.run (fuel + 1) =
      continued (expansion fuel d a.name a.value a.machine) (a.node, ·) fun pairs machine =>
        applyEach (Shaping.apply fuel) a.name pairs (a.node, machine) := by
  have hmaker : a.machine.registry.attributeMaker? (a.node.widget.map Widget.kind) a.name =
      some (.template d) := h
  rw [run, apply_eq, hmaker]
  show EStateM.bind (lift (expansion fuel d a.name a.value)) _ _ = _
  rw [EStateM.bind, lift]
  cases expansion fuel d a.name a.value a.machine <;> rfl

/-- The attribute of a host is noticed, its value is put into the form that the host asks for, and
then it is handed on, or nothing is done. -/
theorem run_host {host : HostAttribute} (h : a.maker? = some (.native (.host host)))
    (fuel : Nat) : a.run (fuel + 1) =
      continued (inForm fuel a.value host.form (a.noted host)) (a.node, ·) fun value machine =>
        (match host.target with
          | some target => Shaping.apply fuel target value
          | none => pure ()) (a.node, machine) := by
  have hmaker : a.machine.registry.attributeMaker? (a.node.widget.map Widget.kind) a.name =
      some (.native (.host host)) := h
  rw [run, apply_eq, hmaker]
  show EStateM.bind (lift (inForm fuel a.value host.form)) _ (a.node, a.noted host) = _
  rw [EStateM.bind, lift]
  cases inForm fuel a.value host.form (a.noted host) <;> rfl

/-- An application ends if nothing has to be resolved and no other one is inside. -/
theorem ended_of_maker? (h : a.maker? = none ∨ a.maker? = some (.native .identity)) (fuel : Nat) :
    Ended (a.run (fuel + 1)) := by
  rw [run, apply_eq]
  rcases h with h | h
  · have hmaker : a.machine.registry.attributeMaker? _ a.name = none := h
    rw [hmaker]
    exact ended_offerWidget _ _ _
  · have hmaker : a.machine.registry.attributeMaker? _ a.name = some (.native .identity) := h
    rw [hmaker]
    exact ended_nameWidget _ _

end Application

end MarkupTemplate
