import MarkupTemplate.Proofs.Engine.Frame
import MarkupTemplate.Proofs.Engine.Turn
import MarkupTemplate.Proofs.Lenient.Equation

/-!
# Invariants of the machine and what its errors are like

An invariant that every step of the engine keeps holds of every machine that reading leaves, and
where a computation stops early one sees what the reasons are like, errors above all. `Keeps` says both of a computation:
started with the invariant it leaves a machine with it, whatever the outcome, and stops early only
for reasons of one kind. It passes through `bind`, so it is proved for each computation from its parts,
once for all invariants that the parts keep:

* `Resolving` is what resolving a placeholder asks of an invariant and of a kind of reasons, that the
  registry may count calls and that the faults raised there are of the kind, and lack of fuel;
* `Moving` is what reading a tag or a body adds, the moves of the reader;
* `Reading` is what macros and the reading of text add, the room of arrays and random numbers among
  it;
* `Growing` is what tags add, and macros of the host that read a fragment.

Whether a fault can be raised depends on whether reading is strict. That a machine is one in which
only some faults can be raised is an invariant like any other one. A frame is one too, if the machine
in front of everything is held fixed (`Reached`).
-/

set_option autoImplicit false

namespace MarkupTemplate

/-- Whether a registry has a macro of the host that reads a fragment. Without one, reading a
template is a single run with one reader from its beginning to its end. -/
def Registry.ReadsFragments (r : Registry) : Prop :=
  ∃ name, r.macroMaker? name = some (.native (.host ⟨none, .fragment⟩))

/-- Whether a computation that stops for a reason fails with an error of one kind, if it fails at
all. -/
def Stop.IsOf (kind : Error → Prop) : Stop → Prop
  | failure e => kind e
  | exhausted => True
  | overflow => True

/-- What resolving a placeholder asks of an invariant and of a kind of reasons to stop. The faults
that only strict reading knows are kept apart from the others, so that one can say that they are not
raised. -/
class Resolving (I : Machine → Prop) (G : Stop → Prop) : Prop where
  fault {f : Fault} : f.isStrictOnly = false → G (.failure { fault := f })
  /-- Any fault may be raised where reading is strict. -/
  strictFault {m : Machine} (f : Fault) :
    I m → m.parser.settings.strict = true → G (.failure { fault := f })
  /-- Either operators are not the ones to raise a fault that counts, or none counts. -/
  operators {m : Machine} : I m → m.parser.operators.Mild ∨ ∀ f, G (.failure { fault := f })
  exhausted : G .exhausted
  notices {m : Machine} (notices : List Notice) : I m → I { m with notices }
  /-- A call changes the registry, and may answer with a fault of the host. -/
  call {m : Machine} {separator : Char} {name : Text} {argument : Option Text}
    {call : Registry.Call} : I m → m.registry.call? separator name argument = some call →
      I { m with registry := call.registry } ∧ ∀ f, call.reply = .error f → G (.failure { fault := f })

/-- What reading a tag or a body asks. -/
class Moving (I : Machine → Prop) (G : Stop → Prop) : Prop extends Resolving I G where
  skip {m : Machine} (n : Nat) : I m → I (m.withReader (Reader.skip n m.parser.reader))

/-- What macros and the reading of text ask. Random numbers and the room of arrays come in here, as
only macros draw and count. -/
class Reading (I : Machine → Prop) (G : Stop → Prop) : Prop extends Moving I G where
  overflow : G .overflow
  draws {m : Machine} (draws : Draws) : I m → I { m with draws }
  append {m : Machine} (text name : Text) :
    I m → I (m.withReader (m.parser.reader.append text name))
  define {m : Machine} (what : Definable) (t : Tag) (d : Definition) :
    I m → I (Engine.behind (Engine.define what t d m))
  environment {m : Machine} (environment : Environment) :
    I m → I { m with parser := { m.parser with environment } }
  text {m : Machine} (text : Text) : I m → I { m with parser := { m.parser with text } }
  /-- The innermost open tag may get another widget. -/
  widget {m : Machine} {parent : Node} {outer : List Node} (w : Option (Widget Node)) :
    m.parser.parents = parent :: outer → I m →
      I { m with parser := { m.parser with parents := parent.withWidget w :: outer } }
  /-- A hook for other nodes waits behind the parse. -/
  deferred {m : Machine} (ids : List Text) (hook : Hook Node) (keep : Bool) : I m →
    I { m with parser := { m.parser with after := m.parser.after ++ [.attach ids hook keep] } }

/-- Whether reading a text apart starts and ends with the invariant, and whether telling an error
its place keeps it of the kind. -/
structure ReadsApart (I : Machine → Prop) (G : Stop → Prop) : Prop where
  apart {m : Machine} (text name : Text) : I m → I (m.apart text name)
  back {m inside : Machine} : I m → I inside → I (inside.back m)
  locate {e : Error} (r : Reader) : G (.failure e) → G (.failure (e.locate r))

/-- What tags ask, and macros of the host. A text read apart is asked about only where the registry
has a macro that reads one. -/
class Growing (I : Machine → Prop) (G : Stop → Prop) : Prop extends Reading I G where
  parents {m : Machine} (parents : List Node) :
    I m → I { m with parser := { m.parser with parents } }
  roots {m : Machine} (roots : List Node) : I m → I { m with parser := { m.parser with roots } }
  fragments {m : Machine} : I m → m.registry.ReadsFragments → ReadsApart I G

namespace Engine

/-! ## Computations

`Keeps` is the judgment that all lemmas of the form `keeps_…` are about. The hypotheses on invariant
and kind come in with the sections below, as far as a computation needs them. -/

/-- Whether a computation leaves a state with an invariant and stops early only for reasons of one
kind. The invariant is said of the state behind it in either case: an early stop is no excuse. -/
def KeepsAt {σ α : Type} (I : σ → Prop) (G : Stop → Prop) (s : σ) (x : EStateM Stop σ α) : Prop :=
  I (behind (x s)) ∧ ∀ stop s', x s = .error stop s' → G stop

/-- Whether that holds of all states that have the invariant. -/
def Keeps {σ α : Type} (I : σ → Prop) (G : Stop → Prop) (x : EStateM Stop σ α) : Prop :=
  ∀ s, I s → KeepsAt I G s x

section

variable {σ α β : Type} {I : σ → Prop} {G : Stop → Prop} {s : σ} {x : EStateM Stop σ α}
  {f : α → EStateM Stop σ β}

theorem keeps_pure (a : α) : Keeps I G (pure a : EStateM Stop σ α) :=
  fun _ hs => ⟨hs, fun _ _ h => by cases h⟩

/-- Stopping early for a reason of the kind changes nothing. -/
theorem keeps_throw {stop : Stop} (h : G stop) : Keeps I G (throw stop : EStateM Stop σ α) := by
  refine fun s hs => ⟨hs, fun stop' s' he => ?_⟩
  obtain ⟨rfl, -⟩ := EStateM.Result.error.inj he
  exact h

/-- The second part may rely on the invariant, since the first part has kept it, and on being run
only where the first part has given a value. -/
theorem KeepsAt.bind (h : KeepsAt I G s x)
    (hf : ∀ a s', x s = .ok a s' → I s' → KeepsAt I G s' (f a)) : KeepsAt I G s (x >>= f) := by
  obtain ⟨hI, herror⟩ := h
  unfold KeepsAt
  -- With the outcome of the first part known, the second one is run or the error is passed on.
  show I (behind (EStateM.bind x f s)) ∧ ∀ stop s', EStateM.bind x f s = _ → _
  rw [EStateM.bind]
  cases hx : x s with
  | ok a s' =>
    rw [hx] at hI
    exact hf a s' hx hI
  | error stop s' =>
    rw [hx] at hI herror
    refine ⟨hI, fun stop' s'' he => herror stop' s'' ?_⟩
    obtain ⟨rfl, rfl⟩ := EStateM.Result.error.inj he
    rfl

theorem Keeps.bind (h : Keeps I G x) (hf : ∀ a, Keeps I G (f a)) : Keeps I G (x >>= f) :=
  fun s hs => (h s hs).bind fun a s' _ hs' => hf a s' hs'

theorem Keeps.map (h : Keeps I G x) (g : α → β) : Keeps I G (g <$> x) := by
  rw [← bind_pure_comp]
  exact h.bind fun _ => keeps_pure _

/-- Doing something for each item of a list, by induction on the list. -/
theorem Keeps.forM {f : α → EStateM Stop σ PUnit} (h : ∀ a, Keeps I G (f a)) (l : List α) :
    Keeps I G (l.forM f) := by
  induction l with
  | nil => exact keeps_pure _
  | cons a l ih => exact (h a).bind fun _ => ih

/-- What follows may rely on the invariant of the state it looks at. -/
theorem keeps_get_bind {f : σ → EStateM Stop σ β} (h : ∀ s, I s → KeepsAt I G s (f s)) :
    Keeps I G (get >>= f) := fun s hs => h s hs

end

section

variable {α β : Type} {I : Machine → Prop} {G : Stop → Prop} {x : Engine α}

theorem keeps_failure {f : Fault} (hf : G (.failure { fault := f })) :
    Keeps I G (fail f : Engine α) := keeps_throw hf

/-- What has been decided without the state fails for its own faults only. -/
theorem keeps_outcome {o : Except Fault α} (h : ∀ f, o = .error f → G (.failure { fault := f })) :
    Keeps I G (ofOutcome o : Engine α) := by
  cases o with
  | ok a => exact keeps_pure a
  | error f => exact keeps_failure (h f rfl)

/-- An error that takes the place of another one has to be of the kind. The other reasons to stop
are passed on as they were. -/
theorem KeepsAt.recast {y : Engine α} {machine : Machine} {change : Error → Machine → Error}
    (h : KeepsAt I G machine x) (hy : y machine = Engine.recast change (x machine))
    (hchange : ∀ e m, G (.failure e) → G (.failure (change e m))) : KeepsAt I G machine y := by
  obtain ⟨hI, herror⟩ := h
  unfold KeepsAt
  rw [hy, behind_recast]
  refine ⟨hI, fun stop' m' he => ?_⟩
  cases hx : x machine with
  | ok a m => rw [hx] at he; cases he
  | error stop m =>
    have hstop := herror stop m hx
    rw [hx] at he
    cases stop with
    | exhausted | overflow =>
      obtain ⟨rfl, -⟩ := EStateM.Result.error.inj he
      exact hstop
    | failure e =>
      obtain ⟨rfl, -⟩ := EStateM.Result.error.inj he
      exact hchange e _ hstop

theorem Keeps.locating (h : Keeps I G x)
    (hlocate : ∀ e r, G (.failure e) → G (.failure (Error.locate e r))) :
    Keeps I G (locating x) :=
  fun m hm => (h m hm).recast (locating_eq_recast x m) fun e _ => hlocate e _

theorem keeps_currentParser : Keeps I G parser := fun _ hm => ⟨hm, fun _ _ h => by cases h⟩

theorem keeps_markers : Keeps I G markers := keeps_currentParser.bind fun _ => keeps_pure _

theorem keeps_isStrict : Keeps I G isStrict := keeps_currentParser.bind fun _ => keeps_pure _

theorem keeps_unread : Keeps I G unread := keeps_currentParser.bind fun _ => keeps_pure _

theorem keeps_parentName : Keeps I G parentName := keeps_currentParser.bind fun _ => keeps_pure _

theorem keeps_modifyParser {f : Parser → Parser} (h : ∀ m : Machine, I m →
    I { m with parser := f m.parser }) : Keeps I G (modifyParser f) :=
  fun m hm => ⟨h m hm, fun _ _ he => by cases he⟩

/-! ## Faults

Which faults may be raised depends on the invariant, and a lemma for a single computation asks no
more than that its own faults are allowed for. -/

variable [hI : Resolving I G]

/-- A fault that is no anomaly may be raised in any case. -/
theorem keeps_fail {f : Fault} (hf : f.isStrictOnly = false) : Keeps I G (fail f : Engine α) :=
  keeps_failure (hI.fault hf)

theorem keeps_ofOutcome {o : Except Fault α} (h : Mild o) : Keeps I G (ofOutcome o : Engine α) :=
  keeps_outcome fun f hf => hI.fault (h f hf)

/-- **The faults of strict reading are only raised by way of this.** So an invariant by which
reading is lenient rules them out for all computations at once. -/
theorem keeps_failIfStrict (f : Fault) : Keeps I G (failIfStrict f) := by
  intro m hm
  -- It fails in one way of reading and does nothing in the other.
  cases hstrict : m.parser.settings.strict with
  | true =>
    unfold KeepsAt
    rw [failIfStrict_eq hstrict]
    refine ⟨hm, fun stop m' he => ?_⟩
    obtain ⟨rfl, -⟩ := EStateM.Result.error.inj he
    exact hI.strictFault f hm hstrict
  | false =>
    have hnothing : failIfStrict f m = .ok () m := by
      rw [failIfStrict, bind_of_ok (isStrict_eq m), hstrict]
      rfl
    unfold KeepsAt
    rw [hnothing]
    exact ⟨hm, fun _ _ h => by cases h⟩

theorem keeps_rejectAttributes (tag : Text) (reason : String) :
    Keeps I G (rejectAttributes tag reason) := keeps_failIfStrict _

/-- The fault that takes the place of the others is no anomaly. -/
theorem Keeps.failingAs (h : Keeps I G x) {f : Fault} (hf : f.isStrictOnly = false) :
    Keeps I G (failingAs f x) :=
  fun m hm => (h m hm).recast (failingAs_eq_recast f x m) fun _ _ _ => hI.fault hf

end

/-! ## Frames

A frame of some kind is an invariant of the same kind, so that all that is proved about `Keeps` is
there for `Within` as well. -/

/-- The machines that are related to a given one. For a frame this is an invariant, with the machine
in front of everything held fixed. -/
def Reached (R : Machine → Machine → Prop) (start m : Machine) : Prop := R start m

/-- Any reason to stop at all, for invariants that have nothing to say about the reasons. -/
def anyStop (_ : Stop) : Prop := True

section

variable {α : Type} {R : Machine → Machine → Prop}

/-- A computation that keeps being reached from any machine is within the frame. -/
theorem Keeps.within [hR : Frame R] {x : Engine α}
    (h : ∀ start, Keeps (Reached R start) anyStop x) : Within R x :=
  fun m => (h m m (hR.refl m)).1

instance [hR : ResolvingFrame R] (start : Machine) : Resolving (Reached R start) anyStop where
  fault _ := trivial
  strictFault _ _ _ := trivial
  operators _ := .inr fun _ => trivial
  exhausted := trivial
  notices notices h := hR.trans h (hR.notices _ notices)
  call h _ := ⟨hR.trans h (hR.registry _ _), fun _ _ => trivial⟩

instance [hR : MovingFrame R] (start : Machine) : Moving (Reached R start) anyStop where
  skip _ h := hR.trans h (hR.reader _ _)

instance [hR : ReadingFrame R] (start : Machine) : Reading (Reached R start) anyStop where
  overflow := trivial
  draws draws h := hR.trans h (hR.draws _ draws)
  append _ _ h := hR.trans h (hR.reader _ _)
  define _ _ _ h := hR.trans h (hR.registry _ _)
  environment environment h := hR.trans h (hR.environment _ environment)
  text text h := hR.trans h (hR.text _ text)
  widget w hparents h := hR.trans h (hR.widget w hparents)
  deferred ids hook keep h := hR.trans h (hR.deferred _ ids hook keep)

instance [hR : GrowingFrame R] (start : Machine) : Growing (Reached R start) anyStop where
  parents parents h := hR.trans h (hR.parents _ parents)
  roots roots h := hR.trans h (hR.roots _ roots)
  fragments _ _ := by
    have hreplace : ∀ (m : Machine) (r : Reader) (parents roots : List Node) (t : Text),
        R m { m with parser := { m.parser with reader := r, parents, roots, text := t } } := by
      intro m r parents roots t
      have htree := hR.trans (hR.parents m parents) (hR.roots _ roots)
      exact hR.trans htree (hR.trans (hR.reader _ r) (hR.text _ t))
    exact
      { apart := fun _ _ h => hR.trans h (hreplace _ _ _ _ _)
        back := fun _ h => hR.trans h (hreplace _ _ _ _ _)
        locate := fun _ _ => trivial }

end

end Engine

end MarkupTemplate
