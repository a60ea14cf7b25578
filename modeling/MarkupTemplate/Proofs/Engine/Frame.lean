import MarkupTemplate.Proofs.Engine.Run

/-!
# Frames

Most of what is done while a template is read leaves most of the machine as it is. `Within` is that
a computation, whatever its outcome, leaves a machine that is related to the one in front of it; the
relation says what stays. It passes through `bind` if the relation is a **frame**, that is reflexive
and transitive. Which computations are within a frame depends on the changes that it allows for:

* a `ResolvingFrame` allows for what resolving a placeholder changes, which is the registry and the
  notices;
* a `MovingFrame` also for a move of the reader, which is all that reading a tag or a body adds;
* a `ReadingFrame` also for what macros and the reading of text change, which is all but the shape
  of the tree, the settings and what the host has set up;
* a `GrowingFrame` also for what tags do to the tree.
-/

set_option autoImplicit false

namespace MarkupTemplate

/-- The node with another widget. What reading text and shaping do to a node is of this form. -/
def Node.withWidget (n : Node) (w : Option (Widget Node)) : Node := { n with widget := w }

@[simp] theorem Node.withWidget_tag (n : Node) (w : Option (Widget Node)) :
    (n.withWidget w).tag = n.tag := rfl

@[simp] theorem Node.withWidget_children (n : Node) (w : Option (Widget Node)) :
    (n.withWidget w).children = n.children := rfl

theorem Node.withWidget_self (n : Node) : n.withWidget n.widget = n := by
  cases n
  rfl

/-- A relation between states that composes: from a state to itself, and from one step to the
next. -/
class Frame {σ : Type} (R : σ → σ → Prop) : Prop where
  refl (s : σ) : R s s
  trans {s s' s'' : σ} : R s s' → R s' s'' → R s s''

/-- A frame for what resolving a placeholder changes. Calls of actions are noted, and counted in the
registry. -/
class ResolvingFrame (R : Machine → Machine → Prop) : Prop extends Frame R where
  notices (m : Machine) (notices : List Notice) : R m { m with notices }
  registry (m : Machine) (registry : Registry) : R m { m with registry }

/-- A frame for what reading a tag changes. Any other reader is allowed for, so the frame says
nothing about what is unread. -/
class MovingFrame (R : Machine → Machine → Prop) : Prop extends ResolvingFrame R where
  reader (m : Machine) (r : Reader) : R m (m.withReader r)

/-- A frame for what macros and the reading of text change. Each field is one kind of change, and
the tree is among them only in so far as the innermost open tag may get another widget. -/
class ReadingFrame (R : Machine → Machine → Prop) : Prop extends MovingFrame R where
  environment (m : Machine) (environment : Environment) :
    R m { m with parser := { m.parser with environment } }
  draws (m : Machine) (draws : Draws) : R m { m with draws }
  text (m : Machine) (text : Text) : R m { m with parser := { m.parser with text } }
  /-- The innermost open tag may get another widget. -/
  widget {m : Machine} {parent : Node} {outer : List Node} (w : Option (Widget Node)) :
    m.parser.parents = parent :: outer →
      R m { m with parser := { m.parser with parents := parent.withWidget w :: outer } }
  /-- A hook for other nodes waits behind the parse. -/
  deferred (m : Machine) (ids : List Text) (hook : Hook Node) (keep : Bool) :
    R m { m with parser := { m.parser with after := m.parser.after ++ [.attach ids hook keep] } }

/-- A frame for all that reading a template changes. The open tags and the roots may become any
others. -/
class GrowingFrame (R : Machine → Machine → Prop) : Prop extends ReadingFrame R where
  parents (m : Machine) (parents : List Node) : R m { m with parser := { m.parser with parents } }
  roots (m : Machine) (roots : List Node) : R m { m with parser := { m.parser with roots } }

namespace Engine

/-- The state that a computation leaves, whether it has come to its end or not. -/
def behind {ε σ α : Type} : EStateM.Result ε σ α → σ
  | .ok _ s => s
  | .error _ s => s

/-- The value that a computation gave, if it has given one. -/
def answer? {α : Type} : EStateM.Result Stop Machine α → Option α
  | .ok a _ => some a
  | .error .. => none

theorem eq_of_answer? {α : Type} {outcome : EStateM.Result Stop Machine α} {a : α}
    (h : answer? outcome = some a) : outcome = .ok a (behind outcome) := by
  cases outcome with
  | ok b machine =>
    obtain rfl := Option.some.inj h
    rfl
  | error stop machine => cases h

/-- Whether a computation leaves a state that is related to a given one in front of it. There is
nothing about the value, and an early stop counts like an end. -/
def WithinAt {ε σ α : Type} (R : σ → σ → Prop) (s : σ) (x : EStateM ε σ α) : Prop :=
  R s (behind (x s))

/-- Whether that holds of all states in front of it. -/
def Within {ε σ α : Type} (R : σ → σ → Prop) (x : EStateM ε σ α) : Prop := ∀ s, WithinAt R s x

section

variable {ε σ α β : Type} {R : σ → σ → Prop} {s s' : σ} {x : EStateM ε σ α} {f : α → EStateM ε σ β}

/-- What a frame says about a run that has given a value. -/
theorem Within.of_ok {a : α} (h : Within R x) (hx : x s = .ok a s') : R s s' := by
  have hs := h s
  rwa [WithinAt, hx] at hs

/-- What a frame says about a run that has stopped early. -/
theorem Within.of_error {e : ε} (h : Within R x) (hx : x s = .error e s') : R s s' := by
  have hs := h s
  rwa [WithinAt, hx] at hs

variable [hR : Frame R]

theorem within_pure (a : α) : Within R (pure a : EStateM ε σ α) := hR.refl

theorem within_throw (e : ε) : Within R (throw e : EStateM ε σ α) := hR.refl

theorem within_get : Within R (get : EStateM ε σ σ) := hR.refl

/-- The second part starts where the first has come to its end, and the frame composes. -/
theorem WithinAt.bind (h : WithinAt R s x) (hf : ∀ a s', x s = .ok a s' → WithinAt R s' (f a)) :
    WithinAt R s (x >>= f) := by
  show R s (behind (EStateM.bind x f s))
  unfold WithinAt at h
  rw [EStateM.bind]
  cases hx : x s with
  | ok a s' =>
    rw [hx] at h
    exact hR.trans h (hf a s' hx)
  | error e s' =>
    rw [hx] at h
    exact h

theorem Within.bind (h : Within R x) (hf : ∀ a, Within R (f a)) : Within R (x >>= f) :=
  fun s => (h s).bind fun a s' _ => hf a s'

/-- Doing something for each item of a list stays within a frame if each time does, by induction on
the list. -/
theorem Within.forM {f : α → EStateM ε σ PUnit} (h : ∀ a, Within R (f a)) (l : List α) :
    Within R (l.forM f) := by
  induction l with
  | nil => exact within_pure _
  | cons a l ih => exact (h a).bind fun _ => ih

end

section

variable {α : Type} {R : Machine → Machine → Prop}

/-- What becomes of an error is put into the error, not into the machine. -/
theorem behind_recast (change : Error → Machine → Error)
    (outcome : EStateM.Result Stop Machine α) : behind (recast change outcome) = behind outcome := by
  cases outcome with
  | ok a m => rfl
  | error stop m => cases stop <;> rfl

theorem behind_locating (x : Engine α) (machine : Machine) :
    behind (locating x machine) = behind (x machine) := by
  rw [locating_eq_recast, behind_recast]

theorem behind_failingAs (f : Fault) (x : Engine α) (machine : Machine) :
    behind (failingAs f x machine) = behind (x machine) := by
  rw [failingAs_eq_recast, behind_recast]

variable [hR : Frame R]

theorem within_fail (e : Fault) : Within R (fail e : Engine α) := within_throw _

theorem within_currentParser : Within R parser := within_get.bind fun _ => within_pure _

theorem within_isStrict : Within R isStrict := within_currentParser.bind fun _ => within_pure _

/-- An anomaly changes nothing, whether it is raised or passed over. -/
theorem within_failIfStrict (e : Fault) : Within R (failIfStrict e) := by
  refine within_isStrict.bind fun strict => ?_
  split
  · exact within_fail e
  · exact within_pure _

end

end Engine

end MarkupTemplate
