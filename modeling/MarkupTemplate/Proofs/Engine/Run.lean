import MarkupTemplate.Engine.Scan

/-!
# Running engine computations

An engine computation is a function on machines. The lemmas here put the run of a computation
together from the runs of its parts: `bind_of_ok` says how it goes on behind a part that gave a
result, and `bind_eq_ok_iff` that both parts gave one if the whole did. Most of what reading does is
to move the reader, so there is a word for a machine that differs in nothing else,
`Machine.withReader`.
-/

set_option autoImplicit false

namespace MarkupTemplate

/-- The machine with another reader, and nothing else changed. -/
def Machine.withReader (machine : Machine) (r : Reader) : Machine :=
  { machine with parser := { machine.parser with reader := r } }

namespace Machine

variable (machine : Machine) (r : Reader)

@[simp] theorem withReader_reader : (machine.withReader r).parser.reader = r := rfl

@[simp] theorem withReader_settings :
    (machine.withReader r).parser.settings = machine.parser.settings := rfl

@[simp] theorem withReader_withReader (r' : Reader) :
    (machine.withReader r).withReader r' = machine.withReader r' := rfl

@[simp] theorem withReader_self : machine.withReader machine.parser.reader = machine := rfl

end Machine

namespace Engine

variable {α β : Type} {x : Engine α} {f : α → Engine β} {machine machine' : Machine}

/-- Behind a part that has given a value, a computation is what follows on the machine that the part
has left. Most proofs about a run walk along it with this. -/
theorem bind_of_ok {a : α} (h : x machine = .ok a machine') :
    (x >>= f) machine = f a machine' := by
  show EStateM.bind x f machine = _
  rw [EStateM.bind, h]

/-- What comes behind goes on alike if the outcomes in front are the same. -/
theorem bind_congr_of_eq {y : Engine α} (h : x machine = y machine') :
    (x >>= f) machine = (y >>= f) machine' := by
  show EStateM.bind x f machine = EStateM.bind y f machine'
  rw [EStateM.bind, EStateM.bind, h]

/-- A part that stops early is all of the run. -/
theorem bind_of_error {e : Stop} (h : x machine = .error e machine') :
    (x >>= f) machine = .error e machine' := by
  show EStateM.bind x f machine = _
  rw [EStateM.bind, h]

/-- A run has given a value just if both of its parts have. This takes a run apart, where
`bind_of_ok` puts one together. -/
theorem bind_eq_ok_iff {b : β} {machine'' : Machine} :
    (x >>= f) machine = .ok b machine'' ↔
      ∃ a machine', x machine = .ok a machine' ∧ f a machine' = .ok b machine'' := by
  show EStateM.bind x f machine = _ ↔ _
  rw [EStateM.bind]
  constructor
  · intro h
    cases hx : x machine with
    | ok a machine' => exact ⟨a, machine', rfl, by rw [hx] at h; exact h⟩
    | error e machine' => rw [hx] at h; exact absurd h (by simp)
  · rintro ⟨a, machine', hx, hf⟩
    rw [hx]
    exact hf

theorem throw_ne_ok {e : Stop} {a : α} : (throw e : Engine α) machine ≠ .ok a machine' := by
  intro h
  cases h

/-- A value that was there already is given without any change. -/
theorem ofOutcome_eq_ok_iff {o : Except Fault α} {a : α} :
    (ofOutcome o : Engine α) machine = .ok a machine' ↔ o = .ok a ∧ machine = machine' := by
  cases o with
  | error e => exact ⟨fun h => absurd h throw_ne_ok, fun h => by simp at h⟩
  | ok b =>
    constructor
    · intro h
      obtain ⟨rfl, rfl⟩ := EStateM.Result.ok.inj h
      exact ⟨rfl, rfl⟩
    · rintro ⟨h, rfl⟩
      rw [Except.ok.inj h]
      rfl

/-! ## Errors on their way

An error gets a place where it comes out of a parse, and another fault where a value cannot be read.
Both are the same thing for whatever does not look into errors: `recast` says what they leave alone,
which is the value, the machine, and every other reason to stop. -/

/-- An outcome with another error in the place of the one that it has, if it has one. What the new
one is may depend on the machine that the computation stopped at. -/
def recast (change : Error → Machine → Error) :
    EStateM.Result Stop Machine α → EStateM.Result Stop Machine α
  | .error (.failure e) m => .error (.failure (change e m)) m
  | other => other

theorem locating_eq_recast (x : Engine α) (machine : Machine) :
    locating x machine = recast (fun e m => e.locate m.parser.reader) (x machine) := by
  rw [locating]
  cases x machine with
  | ok a m => rfl
  | error stop m => cases stop <;> rfl

theorem failingAs_eq_recast (f : Fault) (x : Engine α) (machine : Machine) :
    failingAs f x machine = recast (fun _ _ => { fault := f }) (x machine) := by
  rw [failingAs]
  cases x machine with
  | ok a m => rfl
  | error stop m => cases stop <;> rfl

/-- Replacing errors makes no value of what had none. -/
theorem recast_eq_ok_iff {change : Error → Machine → Error} {a : α}
    {outcome : EStateM.Result Stop Machine α} :
    recast change outcome = .ok a machine ↔ outcome = .ok a machine := by
  cases outcome with
  | ok b m => exact Iff.rfl
  | error stop m =>
    refine ⟨fun h => ?_, fun h => by cases h⟩
    cases stop <;> cases h

/-! ## The smallest parts

What looks at the machine gives what it sees, and what changes it gives nothing. The equations hold
by `rfl`, and have names so that proofs can say where they are. -/

theorem parser_eq (machine : Machine) : parser machine = .ok machine.parser machine := rfl

theorem markers_eq (machine : Machine) :
    markers machine = .ok machine.parser.settings.markers machine := rfl

theorem isStrict_eq (machine : Machine) :
    isStrict machine = .ok machine.parser.settings.strict machine := rfl

theorem modifyParser_eq (f : Parser → Parser) (machine : Machine) :
    modifyParser f machine = .ok () { machine with parser := f machine.parser } := rfl

theorem failIfStrict_eq (h : machine.parser.settings.strict = true) (f : Fault) :
    failIfStrict f machine = .error (.failure { fault := f }) machine := by
  rw [failIfStrict, bind_of_ok (isStrict_eq machine), if_pos h]
  rfl

/-- Reading a character takes it off the unread text. -/
theorem next_eq {c : Char} {t : Text} (h : machine.parser.reader.unread = c :: t) :
    next machine =
      .ok (some c) (machine.withReader ⟨Reader.advance c machine.parser.reader.stack, t⟩) := by
  have hnext := Reader.next_of_unread_cons h
  rw [next, hnext]
  rfl

/-- Where nothing is unread nothing is read, but the exhausted sequences are gone. -/
theorem next_end (h : machine.parser.reader.unread = []) :
    next machine = .ok none (machine.withReader machine.parser.reader.next.2) := by
  rw [next, Reader.next_of_unread_nil h]
  rfl

end Engine

/-! ## Shaping

A shaping runs on a node beside the machine. From its run follows that of `shape`, which gives the
node only where the shaping has not stopped early. -/

namespace Shaping

open Engine

variable {x : Shaping Unit} {n n' : Node} {machine machine' : Machine}

theorem shape_of_ok (h : x (n, machine) = .ok () (n', machine')) :
    shape x n machine = .ok n' machine' := by
  have hrun : run x n machine = .ok (.ok (), n') machine' := by rw [run, h]
  rw [shape, bind_of_ok hrun]
  rfl

theorem shape_of_error {stop : Stop} (h : x (n, machine) = .error stop (n', machine')) :
    shape x n machine = .error stop machine' := by
  have hrun : run x n machine = .ok (.error stop, n') machine' := by rw [run, h]
  rw [shape, bind_of_ok hrun]
  rfl

end Shaping

end MarkupTemplate
