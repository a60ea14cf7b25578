import MarkupTemplate.Proofs.Engine.Turn
import MarkupTemplate.Proofs.Engine.Frame

/-!
# Audiences

The audience of a parser is the listeners that wait for a parse to begin and to end, and what the
host has been told so far. Reading adds to it: a hook may have to wait for the end of the parse, and
of much that happens the host gets a notice. But reading never looks at it, and it never notifies
anyone.

A computation with these two properties is **oblivious**. In front of an audience, `Machine.facing`,
it does what it does without one, and the audience still has everything that it had. The property
passes through `bind`, so it is proved for each computation from its parts.
-/

set_option autoImplicit false

namespace MarkupTemplate

/-- Listeners in front of a parse and behind it, and notices, the latest first. Listeners that are
to be notified are part of it, and the hooks that only wait are as well: in the parser they are in
the same list. -/
structure Audience where
  before : List Listener := []
  after : List Listener := []
  notices : List Notice := []

/-- The parser in front of an audience that was there earlier than its own, so the listeners of the
audience come first. -/
def Parser.facing (p : Parser) (a : Audience) : Parser :=
  { p with before := a.before ++ p.before, after := a.after ++ p.after }

/-- The machine in front of an audience. Its own notices are the later ones and come first. -/
def Machine.facing (m : Machine) (a : Audience) : Machine :=
  { m with parser := m.parser.facing a, notices := m.notices ++ a.notices }

/-- Whether a host is told that a listener of its own was notified. The host has no other way to
hear of it, so a run without such a notice has notified none. -/
def Notice.isListener : Notice → Bool
  | listener .. => true
  | _ => false

/-- Whether no listener of the host has been notified. -/
def Machine.Quiet (m : Machine) : Prop := ∀ n ∈ m.notices, n.isListener = false

namespace Engine

/-- An outcome in front of an audience. The value or the reason to stop is the same, also its place:
no position of a reader tells who is listening. -/
def outcomeFacing {α : Type} (a : Audience) :
    EStateM.Result Stop Machine α → EStateM.Result Stop Machine α
  | .ok v m => .ok v (m.facing a)
  | .error stop m => .error stop (m.facing a)

/-- Whether a computation takes no notice of the audience, and notifies nobody. The first half is an
equation and not a simulation, so it can be rewritten with; the second half is about the notices
that are added, and starts from a machine that has none of a listener. -/
structure Oblivious {α : Type} (x : Engine α) : Prop where
  facing (a : Audience) (m : Machine) : x (m.facing a) = outcomeFacing a (x m)
  quiet {m : Machine} : m.Quiet → (behind (x m)).Quiet

section

variable {α β : Type} {x : Engine α} {f : α → Engine β}

theorem oblivious_pure (v : α) : Oblivious (pure v : Engine α) := ⟨fun _ _ => rfl, id⟩

theorem oblivious_throw (stop : Stop) : Oblivious (throw stop : Engine α) := ⟨fun _ _ => rfl, id⟩

theorem oblivious_fail (f : Fault) : Oblivious (fail f : Engine α) := oblivious_throw _

/-- Oblivious computations one after another. The value goes through unchanged, so what follows is
the same computation with and without the audience. -/
theorem Oblivious.bind (h : Oblivious x) (hf : ∀ v, Oblivious (f v)) : Oblivious (x >>= f) := by
  constructor
  · intro a m
    show EStateM.bind x f (m.facing a) = outcomeFacing a (EStateM.bind x f m)
    rw [EStateM.bind, EStateM.bind, h.facing]
    cases x m with
    | ok v m' => exact (hf v).facing a m'
    | error stop m' => rfl
  · intro m hm
    have hquiet := h.quiet hm
    show (behind (EStateM.bind x f m)).Quiet
    rw [EStateM.bind]
    cases hx : x m with
    | ok v m' =>
      rw [hx] at hquiet
      exact (hf v).quiet hquiet
    | error stop m' =>
      rw [hx] at hquiet
      exact hquiet

theorem Oblivious.map (h : Oblivious x) (g : α → β) : Oblivious (g <$> x) := by
  rw [← bind_pure_comp]
  exact h.bind fun _ => oblivious_pure _

theorem oblivious_ofOutcome (o : Except Fault α) : Oblivious (ofOutcome o : Engine α) := by
  cases o with
  | ok v => exact oblivious_pure v
  | error f => exact oblivious_fail f

/-! ## Looking at the machine

What follows a look may depend on anything but the audience. That is asked of it as an equation, and
holds by `rfl` wherever the audience is not mentioned. -/

/-- What is done with the parser may depend on all but its audience. -/
theorem oblivious_parser_bind {f : Parser → Engine α} (hf : ∀ p a, f (p.facing a) = f p)
    (h : ∀ p, Oblivious (f p)) : Oblivious (parser >>= f) := by
  constructor
  · intro a m
    show f (m.parser.facing a) (m.facing a) = outcomeFacing a (f m.parser m)
    rw [hf]
    exact (h m.parser).facing a m
  · intro m hm
    exact (h m.parser).quiet hm

/-- What is done with the machine may depend on all but the audience, the notices among it. -/
theorem oblivious_get_bind {f : Machine → Engine α} (hf : ∀ m a, f (m.facing a) = f m)
    (h : ∀ m, Oblivious (f m)) : Oblivious (get >>= f) := by
  constructor
  · intro a m
    show f (m.facing a) (m.facing a) = outcomeFacing a (f m m)
    rw [hf]
    exact (h m).facing a m
  · intro m hm
    exact (h m).quiet hm

theorem oblivious_markers : Oblivious markers :=
  oblivious_parser_bind (fun _ _ => rfl) fun _ => oblivious_pure _

theorem oblivious_isStrict : Oblivious isStrict :=
  oblivious_parser_bind (fun _ _ => rfl) fun _ => oblivious_pure _

/-! ## Changing the machine

A change is oblivious if it commutes with standing in front of an audience. Those that add to the
lists of the audience do so at their own end. -/

/-- A change of the parser that goes past the audience. -/
theorem oblivious_modifyParser {f : Parser → Parser} (hf : ∀ p a, f (p.facing a) = (f p).facing a) :
    Oblivious (modifyParser f) := by
  constructor
  · intro a m
    show EStateM.Result.ok () { m.facing a with parser := f (m.parser.facing a) } = _
    rw [hf]
    rfl
  · exact id

/-- A notice comes in front of those that the audience has, as the later one. It must not be one of
a listener. -/
theorem oblivious_note {n : Notice} (hn : n.isListener = false) : Oblivious (note n) :=
  ⟨fun _ _ => rfl, fun hm => List.forall_mem_cons.mpr ⟨hn, hm⟩⟩

theorem oblivious_modifyRegistry (f : Registry → Registry) : Oblivious (modifyRegistry f) :=
  ⟨fun _ _ => rfl, id⟩

/-- An audience draws nothing, so the numbers are the ones that are drawn without it. -/
theorem oblivious_draw : Oblivious draw := ⟨fun _ _ => rfl, id⟩

theorem oblivious_failIfStrict (f : Fault) : Oblivious (failIfStrict f) := by
  refine oblivious_isStrict.bind fun strict => ?_
  cases strict with
  | false => exact oblivious_pure _
  | true => exact oblivious_fail f

theorem oblivious_rejectAttributes (tag : Text) (reason : String) :
    Oblivious (rejectAttributes tag reason) := oblivious_failIfStrict _

theorem oblivious_setArgument (name value : Text) : Oblivious (setArgument name value) :=
  oblivious_modifyParser fun _ _ => rfl

theorem oblivious_append (text name : Text) : Oblivious (append text name) :=
  oblivious_modifyParser fun _ _ => rfl

theorem oblivious_appendFrom (macroName text : Text) : Oblivious (appendFrom macroName text) :=
  oblivious_markers.bind fun _ => oblivious_append _ _

/-! ## Errors

What is done to an error on its way looks at the error and at the reader. -/

/-- What an error is replaced by must not depend on the audience either. -/
theorem recast_outcomeFacing {change : Error → Machine → Error} {a : Audience}
    (h : ∀ e m, change e (m.facing a) = change e m) (outcome : EStateM.Result Stop Machine α) :
    recast change (outcomeFacing a outcome) = outcomeFacing a (recast change outcome) := by
  cases outcome with
  | ok v m => rfl
  | error stop m =>
    cases stop with
    | exhausted | overflow => rfl
    | failure e => rw [outcomeFacing, recast, h, recast, outcomeFacing]

theorem Oblivious.failingAs (h : Oblivious x) (f : Fault) : Oblivious (failingAs f x) where
  facing a m := by
    rw [failingAs_eq_recast, failingAs_eq_recast, h.facing, recast_outcomeFacing fun _ _ => rfl]
  quiet hm := by
    rw [behind_failingAs]
    exact h.quiet hm

/-- Where the reader stands has nothing to do with the audience. -/
theorem Oblivious.locating (h : Oblivious x) : Oblivious (locating x) where
  facing a m := by
    rw [locating_eq_recast, locating_eq_recast, h.facing, recast_outcomeFacing fun _ _ => rfl]
  quiet hm := by
    rw [behind_locating]
    exact h.quiet hm

end

/-- A text is read apart in front of the same audience. The fresh reader and the empty tree that it
gets are no part of that. -/
theorem oblivious_apart {read : Engine Unit} (h : Oblivious read) (text name : Text) :
    Oblivious (apart read text name) := by
  constructor
  · intro a m
    have hread : Engine.locating read ((m.facing a).apart text name) =
        outcomeFacing a (Engine.locating read (m.apart text name)) :=
      h.locating.facing a (m.apart text name)
    rw [apart_eq, apart_eq, hread]
    cases Engine.locating read (m.apart text name) <;> rfl
  · intro m hm
    -- The notices are those of the outer parse, so the fragment starts out as quiet.
    have hinside : (m.apart text name).Quiet := hm
    have hquiet := h.locating.quiet hinside
    rw [apart_eq]
    cases hread : Engine.locating read (m.apart text name) with
    | ok v inside =>
      rw [hread] at hquiet
      exact hquiet
    | error stop inside =>
      rw [hread] at hquiet
      exact hquiet

end Engine

end MarkupTemplate
