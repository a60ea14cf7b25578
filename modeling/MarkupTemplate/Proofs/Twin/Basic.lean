import MarkupTemplate.Proofs.Engine.Run

/-!
# Twins

Two machines are twins if they differ in nothing but how their unread text is queued, and, where the
second is **lax**, in that it passes over anomalies. A computation *mirrors* another if on a twin it
does what the other does: it gives the same result or fails with the same fault, and leaves a twin.
Three things are left open, since they are what twins are for. A fault may be reported at another
place of the text. A lax twin may do anything where the first machine failed. And where the first
run was out of fuel, the second may have had more.

`Mirrors` passes through `bind`, so it is proved for each computation from its parts. Where a
computation looks at the strictness itself it only mirrors another on some machines; `MirrorsAt` is
for those.
-/

set_option autoImplicit false

namespace MarkupTemplate

/-- The parser with another reader, and lenient if the twin is lax. Everything else is shared, the
arguments and the listeners among it. -/
def Parser.twin (p : Parser) (lax : Bool) (r : Reader) : Parser :=
  { p with reader := r, settings := { p.settings with strict := p.settings.strict && !lax } }

/-- The machine with the parser of a twin. The registry, the notices and the random numbers are the
same ones, so the two runs look up the same names and draw the same numbers. -/
def Machine.twin (machine : Machine) (lax : Bool) (r : Reader) : Machine :=
  { machine with parser := machine.parser.twin lax r }

/-- Where the strictness is the same, only the reader is another one. -/
theorem Machine.twin_false (machine : Machine) (r : Reader) :
    machine.twin false r = machine.withReader r := by
  simp [Machine.twin, Parser.twin, Machine.withReader]

namespace Engine

/-! ## Outcomes and computations

`Answers` compares two outcomes, and `Mirrors` two computations by their outcomes on all twins. The
comparison goes one way only. Where it is wanted both ways, as for two machines that differ in the
queueing alone, it is used once for each way. -/

/-- Whether an outcome is the one of a twin. If the first run fails, a lax twin may do anything,
since what failed may have been the anomaly that it passes over; if the first run is out of fuel,
nothing is known at all. -/
def Answers {α : Type} (lax : Bool) :
    EStateM.Result Stop Machine α → EStateM.Result Stop Machine α → Prop
  | .ok a machine, outcome =>
    ∃ r, r.unread = machine.parser.reader.unread ∧ outcome = .ok a (machine.twin lax r)
  | .error .exhausted _, _ => True
  | .error .overflow machine, outcome =>
    ∃ r, r.unread = machine.parser.reader.unread ∧
      outcome = .error .overflow (machine.twin lax r)
  | .error (.failure e) machine, outcome =>
    lax = false → ∃ e' r, e'.fault = e.fault ∧ r.unread = machine.parser.reader.unread ∧
      outcome = .error (.failure e') (machine.twin lax r)

/-- Whether a computation does on the twins of a machine what another does on the machine. The two
are mostly the same computation, with more fuel for the second. -/
def MirrorsAt {α : Type} (lax : Bool) (machine : Machine) (x y : Engine α) : Prop :=
  ∀ r, r.unread = machine.parser.reader.unread → Answers lax (x machine) (y (machine.twin lax r))

/-- Whether that holds on every machine. -/
def Mirrors {α : Type} (lax : Bool) (x y : Engine α) : Prop :=
  ∀ machine, MirrorsAt lax machine x y

section

variable {α β : Type} {lax : Bool} {machine : Machine} {x y : Engine α} {f g : α → Engine β}

/-- Running on behind a computation. The second part may rely on the machine being one that the
first part has left, which is how facts about single machines get through. -/
theorem MirrorsAt.bind (h : MirrorsAt lax machine x y)
    (hf : ∀ a machine', x machine = .ok a machine' → MirrorsAt lax machine' (f a) (g a)) :
    MirrorsAt lax machine (x >>= f) (y >>= g) := by
  intro r hr
  have hxy := h r hr
  show Answers lax (EStateM.bind x f machine) (EStateM.bind y g (machine.twin lax r))
  rw [EStateM.bind, EStateM.bind]
  -- How the first half ended on one side says how it ended on the other.
  cases hx : x machine with
  | ok a machine' =>
    rw [hx] at hxy
    obtain ⟨r', hr', hy⟩ := hxy
    rw [hy]
    exact hf a machine' hx r' hr'
  | error e machine' =>
    rw [hx] at hxy
    cases e with
    | exhausted => trivial
    | overflow =>
      obtain ⟨r', hr', hy⟩ := hxy
      exact ⟨r', hr', by rw [hy]⟩
    | failure e =>
      intro hlax
      obtain ⟨e', r', he, hr', hy⟩ := hxy hlax
      exact ⟨e', r', he, hr', by rw [hy]⟩

theorem Mirrors.bind (h : Mirrors lax x y) (hf : ∀ a, Mirrors lax (f a) (g a)) :
    Mirrors lax (x >>= f) (y >>= g) :=
  fun machine => (h machine).bind fun a machine' _ => hf a machine'

theorem mirrors_pure (a : α) : Mirrors lax (pure a) (pure a) :=
  fun _ r hr => ⟨r, hr, rfl⟩

theorem mirrors_fail (e : Fault) : Mirrors lax (fail e : Engine α) (fail e) :=
  fun _ r hr _ => ⟨{ fault := e }, r, rfl, hr, rfl⟩

/-- What fails is mirrored by anything on a lax twin. -/
theorem mirrorsAt_fail (e : Fault) : MirrorsAt true machine (fail e) y := by
  intro r hr hlax
  cases hlax

/-- Lack of fuel is mirrored by anything. -/
theorem mirrors_exhausted : Mirrors lax (throw .exhausted) y :=
  fun _ _ _ => trivial

/-- Lack of room is mirrored by lack of room only: a twin has the same arrays. -/
theorem mirrors_overflow : Mirrors lax (throw .overflow : Engine α) (throw .overflow) :=
  fun _ r hr => ⟨r, hr, rfl⟩

/-- What has been decided without the machine is the same for both. -/
theorem mirrors_ofOutcome (o : Except Fault α) :
    Mirrors lax (ofOutcome o : Engine α) (ofOutcome o) := by
  cases o with
  | ok a => exact mirrors_pure a
  | error e => exact mirrors_fail e

end

/-! ## Reading the machine

What follows a look at the machine gets a different machine on the twin. So these lemmas come with
what follows, and hand it what is known about the difference. -/

section

variable {α : Type} {lax : Bool}

/-- What looks at the parser sees another reader with the same unread text, and other settings
perhaps. -/
theorem mirrors_parser_bind {f g : Parser → Engine α}
    (h : ∀ p r, r.unread = p.reader.unread → Mirrors lax (f p) (g (p.twin lax r))) :
    Mirrors lax (parser >>= f) (parser >>= g) :=
  fun machine r hr => h machine.parser r hr machine r hr

/-- What looks at the whole machine sees the same registry. -/
theorem mirrors_get_bind {f g : Machine → Engine α}
    (h : ∀ m r, r.unread = m.parser.reader.unread → Mirrors lax (f m) (g (m.twin lax r))) :
    Mirrors lax (get >>= f) (get >>= g) :=
  fun machine r hr => h machine r hr machine r hr

theorem mirrors_markers : Mirrors lax markers markers :=
  mirrors_parser_bind fun _ _ _ => mirrors_pure _

/-- What looks at the strictness sees a lenient parser on a lax twin. -/
theorem mirrors_isStrict_bind {f g : Bool → Engine α}
    (h : ∀ strict, Mirrors lax (f strict) (g (strict && !lax))) :
    Mirrors lax (isStrict >>= f) (isStrict >>= g) :=
  fun machine r hr => h machine.parser.settings.strict machine r hr

/-! ## Changing the machine

A change is mirrored if it commutes with taking the twin. For almost all changes that is by `rfl`,
as they touch neither the reader nor the settings. -/

/-- A change of the parser, if what it makes of a twin is a twin of what it makes of the parser. The
reader of the twin may have become another one. -/
theorem mirrors_modifyParser {f : Parser → Parser}
    (h : ∀ p r, r.unread = p.reader.unread → ∃ r', r'.unread = (f p).reader.unread ∧
      f (p.twin lax r) = (f p).twin lax r') :
    Mirrors lax (modifyParser f) (modifyParser f) := by
  intro machine r hr
  obtain ⟨r', hr', heq⟩ := h machine.parser r hr
  refine ⟨r', hr', ?_⟩
  show EStateM.Result.ok () { machine.twin lax r with parser := f (machine.parser.twin lax r) } = _
  rw [heq]
  rfl

/-- A change that reads nothing of the reader and the settings, and leaves them alone. -/
theorem mirrors_modifyParser_apart {f : Parser → Parser}
    (h : ∀ p r, f (p.twin lax r) = (f p).twin lax r)
    (hr : ∀ p, (f p).reader = p.reader) : Mirrors lax (modifyParser f) (modifyParser f) :=
  mirrors_modifyParser fun p r hpr => ⟨r, by rw [hr p, hpr], h p r⟩

theorem mirrors_note (n : Notice) : Mirrors lax (note n) (note n) :=
  fun _ r hr => ⟨r, hr, rfl⟩

theorem mirrors_modifyRegistry (f : Registry → Registry) :
    Mirrors lax (modifyRegistry f) (modifyRegistry f) :=
  fun _ r hr => ⟨r, hr, rfl⟩

/-- Twins draw the same numbers, since they have the same stream. Nothing is assumed about the
numbers in it. -/
theorem mirrors_draw : Mirrors lax draw draw := fun _ r hr => ⟨r, hr, rfl⟩

/-- Where the machine fails the lax twin goes on, which is the one place where the strictness makes
a difference by itself. -/
theorem mirrors_failIfStrict (e : Fault) : Mirrors lax (failIfStrict e) (failIfStrict e) := by
  refine mirrors_isStrict_bind fun strict => ?_
  cases strict with
  | false => exact mirrors_pure _
  | true =>
    cases lax with
    | false => exact mirrors_fail e
    | true => exact fun machine => mirrorsAt_fail e

theorem mirrors_rejectAttributes (tag : Text) (reason : String) :
    Mirrors lax (rejectAttributes tag reason) (rejectAttributes tag reason) :=
  mirrors_failIfStrict _

theorem mirrors_setArgument (name value : Text) :
    Mirrors lax (setArgument name value) (setArgument name value) :=
  mirrors_modifyParser_apart (fun _ _ => rfl) fun _ => rfl

/-- Appending keeps the unread texts equal, however each of them is queued. -/
theorem mirrors_append (text name : Text) : Mirrors lax (append text name) (append text name) := by
  refine mirrors_modifyParser fun p r hr => ⟨r.append text name, ?_, rfl⟩
  rw [Reader.unread_append, Reader.unread_append, hr]

theorem mirrors_appendFrom (macroName text : Text) :
    Mirrors lax (appendFrom macroName text) (appendFrom macroName text) :=
  mirrors_markers.bind fun _ => mirrors_append _ _

/-- Errors that are replaced on both sides. They still have one fault, and `Answers` does not look at
anything else of them. -/
theorem Answers.recast {outcome outcome' : EStateM.Result Stop Machine α}
    {change change' : Error → Machine → Error} (h : Answers lax outcome outcome')
    (hfault : ∀ e e' m m', e'.fault = e.fault → (change' e' m').fault = (change e m).fault) :
    Answers lax (recast change outcome) (recast change' outcome') := by
  cases outcome with
  | ok a machine =>
    obtain ⟨r, hr, rfl⟩ := h
    exact ⟨r, hr, rfl⟩
  | error stop machine =>
    cases stop with
    | exhausted => trivial
    | overflow =>
      obtain ⟨r, hr, rfl⟩ := h
      exact ⟨r, hr, rfl⟩
    | failure e =>
      intro hlax
      obtain ⟨e', r, he, hr, rfl⟩ := h hlax
      exact ⟨_, r, hfault _ _ _ _ he, hr, rfl⟩

/-- A computation whose failures are renamed. The fault is then the same on both sides whatever it
was before. -/
theorem Mirrors.failingAs {x y : Engine α} (h : Mirrors lax x y) (e : Fault) :
    Mirrors lax (failingAs e x) (failingAs e y) := by
  intro machine r hr
  rw [failingAs_eq_recast, failingAs_eq_recast]
  exact (h machine r hr).recast fun _ _ _ _ _ => rfl

/-- A computation whose failures say where the reader stands. The places differ, and `Answers` does
not look at them. -/
theorem MirrorsAt.locating {machine : Machine} {x y : Engine α} (h : MirrorsAt lax machine x y) :
    MirrorsAt lax machine (locating x) (locating y) := by
  intro r hr
  rw [locating_eq_recast, locating_eq_recast]
  refine (h r hr).recast fun e e' m m' he => ?_
  rw [Error.fault_locate, Error.fault_locate, he]

end

end Engine

end MarkupTemplate
