import MarkupTemplate.Engine.Firing
import MarkupTemplate.Proofs.Engine.Failure

/-!
# What a lenient parser reports

That a machine is lenient is an invariant of reading, and the faults that lenient reading raises are
none of strict reading. A parse, a fragment and the hooks on an event all read templates, with
listeners around it or a condition in front. A listener only fails with a message of its own. So on
a lenient machine none of them reports a fault of strict reading (`isStrictOnly_of_lenient`), and
the machine is lenient behind them, whatever the template has defined and whichever actions it has
called; this holds of every run of any length.

The work is in the one instance of `Growing` below. It says of each thing that reading does to a
machine, a definition, a call of an action, a number that is drawn, that it leaves the machine
lenient; the induction over reading itself is that of `Engine/Keeping`, and is not made again here.
What is left for this module is what stands around reading: listeners, which are taken out of the
parser and put back, and hooks, of which one may stop the others.
-/

set_option autoImplicit false

namespace MarkupTemplate

/-- Whether an error has a fault that strict reading has not to itself. Faults of actions, of
sources and of equations are mild, and so are those of the structure that both ways of reading
insist on. -/
def Error.Mild (e : Error) : Prop := e.fault.isStrictOnly = false

/-- A fragment is read by a parser of its own with the settings of the machine, so it starts
leniently too, and being placed in the text does not change which fault an error has. -/
theorem Machine.Lenient.readsApart : ReadsApart Machine.Lenient (Stop.IsOf Error.Mild) where
  apart _ _ h := h.withParser rfl rfl
  back _ h := h.withParser rfl rfl
  locate _ h := (congrArg Fault.isStrictOnly (Error.fault_locate _ _)).trans h

/-- What templates define leaves the actions as they are. -/
instance : Growing Machine.Lenient (Stop.IsOf Error.Mild) where
  fault h := h
  strictFault _ h hstrict := by
    rw [h.strict] at hstrict
    cases hstrict
  operators h := .inl h.operators
  exhausted := trivial
  notices _ h := ⟨h.strict, h.operators, h.registry⟩
  call h hcall := by
    obtain ⟨hreply, hregistry⟩ := h.registry.call? hcall
    exact ⟨⟨h.strict, h.operators, hregistry⟩, hreply⟩
  skip _ h := h.withParser rfl rfl
  overflow := trivial
  draws _ h := ⟨h.strict, h.operators, h.registry⟩
  append _ _ h := h.withParser rfl rfl
  define what _ _ h := ⟨h.strict, h.operators, by cases what <;> exact h.registry⟩
  environment _ h := h.withParser rfl rfl
  text _ h := h.withParser rfl rfl
  widget _ _ h := h.withParser rfl rfl
  deferred _ _ _ h := h.withParser rfl rfl
  parents _ h := h.withParser rfl rfl
  roots _ h := h.withParser rfl rfl
  fragments _ _ := Machine.Lenient.readsApart

namespace Engine

/-- Whether a computation started leniently does not fail with a fault of strict reading. -/
abbrev Spares {α : Type} (x : Engine α) : Prop := Keeps Machine.Lenient (Stop.IsOf Error.Mild) x

/-! ## Listeners

Listeners are called between the readings of a parse. What they may do to the machine is what a
macro of the host may do, and what they answer with is no fault of reading. -/

theorem spares_setListeners (phase : Phase) (f : Parser → List Listener) :
    Spares (modifyParser fun p => p.setListeners phase (f p)) :=
  keeps_modifyParser fun _ hm =>
    hm.withParser (by cases phase <;> rfl) (by cases phase <;> rfl)

theorem spares_addHostListener (l : HostListener) : Spares (addHostListener l) := by
  unfold addHostListener addListener
  exact spares_setListeners l.phase _

theorem spares_notifyHost (l : HostListener) (nodes : List Node) : Spares (notifyHost l nodes) := by
  unfold notifyHost
  dsimp only
  refine (keeps_note _).bind fun _ =>
    (Keeps.forM (fun pair : Text × Text => keeps_setArgument pair.1 pair.2) _).bind fun _ =>
      (keeps_append _ _).bind fun _ => (Keeps.forM spares_addHostListener _).bind fun _ => ?_
  split
  · exact keeps_pure _
  · exact keeps_pure _

theorem spares_notifyOne (l : Listener) (nodes : List Node) : Spares (notifyOne l nodes) := by
  cases l with
  | host l => exact (spares_notifyHost l nodes).bind fun _ => keeps_pure _
  | attach ids hook keep => exact keeps_pure _

theorem spares_notifyEach (listeners : List Listener) (nodes : List Node) :
    Spares (notifyEach listeners nodes) := by
  induction listeners generalizing nodes with
  | nil => exact keeps_pure _
  | cons l rest ih =>
    refine (spares_notifyOne l nodes).bind fun r => ?_
    obtain ⟨l, answer, nodes⟩ := r
    cases answer with
    | failed f => exact keeps_pure _
    | leave => exact ih nodes
    | keep => exact (ih nodes).bind fun _ => keeps_pure _

variable {machine machine' : Machine}

/-- A listener fails with a message of its own, if it does. The hook attacher never fails. -/
theorem exists_of_notifyOne {l l' : Listener} {nodes nodes' : List Node} {f : Fault}
    (h : notifyOne l nodes machine = .ok (l', .failed f, nodes') machine') :
    ∃ message, f = .custom message := by
  cases l with
  | host l =>
    obtain ⟨⟨after, answer⟩, m, hnotify, hpure⟩ := bind_eq_ok_iff.mp h
    obtain ⟨heq, -⟩ := EStateM.Result.ok.inj hpure
    obtain ⟨-, rfl, -⟩ := by simpa only [Prod.mk.injEq] using heq
    -- Four steps stand in front of the answer: the notice, the arguments, the text and the
    -- listeners.
    unfold notifyHost at hnotify
    obtain ⟨_, _, -, hnotify⟩ := bind_eq_ok_iff.mp hnotify
    obtain ⟨_, _, -, hnotify⟩ := bind_eq_ok_iff.mp hnotify
    obtain ⟨_, _, -, hnotify⟩ := bind_eq_ok_iff.mp hnotify
    obtain ⟨_, _, -, hnotify⟩ := bind_eq_ok_iff.mp hnotify
    cases hfailure : l.failure with
    | some message =>
      simp only [hfailure] at hnotify
      obtain ⟨heq, -⟩ := EStateM.Result.ok.inj hnotify
      obtain ⟨-, ⟨⟩⟩ := Prod.mk.inj heq
      exact ⟨message, rfl⟩
    | none =>
      simp only [hfailure] at hnotify
      obtain ⟨heq, -⟩ := EStateM.Result.ok.inj hnotify
      obtain ⟨-, hanswer⟩ := Prod.mk.inj heq
      split at hanswer <;> cases hanswer
  | attach ids hook keep =>
    obtain ⟨heq, -⟩ := EStateM.Result.ok.inj h
    cases keep <;> cases heq

/-- The same of a round: the failure of a round is that of one of its listeners. -/
theorem exists_of_notifyEach {listeners kept : List Listener} {nodes nodes' : List Node} {f : Fault}
    (h : notifyEach listeners nodes machine = .ok (kept, some f, nodes') machine') :
    ∃ message, f = .custom message := by
  induction listeners generalizing nodes kept machine machine' with
  | nil =>
    obtain ⟨⟨⟩, -⟩ := EStateM.Result.ok.inj h
  | cons l rest ih =>
    obtain ⟨⟨l, answer, nodes⟩, m, hone, hrest⟩ := bind_eq_ok_iff.mp h
    cases answer with
    | failed f' =>
      obtain ⟨⟨⟩, -⟩ := EStateM.Result.ok.inj hrest
      exact exists_of_notifyOne hone
    | leave => exact ih hrest
    | keep =>
      obtain ⟨⟨kept', failure, nodes⟩, m', heach, hpure⟩ := bind_eq_ok_iff.mp hrest
      obtain ⟨⟨⟩, -⟩ := EStateM.Result.ok.inj hpure
      exact ih heach

/-- Notifying a phase spares the machine. The failure of the round is raised here, behind the round,
so that it is a listener's message has to be known at this point. -/
theorem spares_notify (phase : Phase) (nodes : List Node) : Spares (notify phase nodes) := by
  refine keeps_currentParser.bind fun p => (spares_setListeners phase _).bind fun _ => ?_
  refine fun m hm => (spares_notifyEach _ nodes m hm).bind fun r m' hr hm' => ?_
  obtain ⟨kept, failure, nodes⟩ := r
  refine ((spares_setListeners phase _).bind fun _ => ?_) m' hm'
  cases failure with
  | none => exact keeps_pure _
  | some f =>
    obtain ⟨message, rfl⟩ := exists_of_notifyEach hr
    exact keeps_fail rfl

/-! ## Parsing

A parse notifies, reads, and notifies again. Its parser is put to rest whatever came of that. -/

theorem spares_finishParse : Spares finishParse := by
  have hhandOver : Spares (modifyParser fun p => { p with roots := [], text := [] }) :=
    keeps_modifyParser fun _ hm => hm.withParser rfl rfl
  exact keeps_currentParser.bind fun _ => hhandOver.bind fun _ => (spares_notify _ _).bind fun _ =>
    keeps_pure _

theorem spares_readDocument (fuel : Nat) (template name : Text) :
    Spares (readDocument fuel template name) := by
  rw [readDocument_eq]
  have hscan : Spares (locating (scan fuel [])) :=
    (keeps_scan fuel []).locating fun _ => Machine.Lenient.readsApart.locate
  exact ((spares_notify _ _).bind fun _ => keeps_append _ _).bind fun _ =>
    hscan.bind fun _ => spares_finishParse

/-- **A parse does not fail with a fault of strict reading**, and leaves a lenient machine. -/
theorem spares_parse (fuel : Nat) (template name : Text) : Spares (parse fuel template name) := by
  intro m hm
  -- Whatever came of the document, what a parse does behind it is put its parser at rest.
  obtain ⟨hlenient, hfault⟩ := spares_readDocument fuel template name m hm
  unfold KeepsAt
  rw [parse_eq]
  cases hread : readDocument fuel template name m with
  | ok document m' =>
    rw [hread] at hlenient
    exact ⟨hlenient.withParser rfl rfl, fun _ _ he => by cases he⟩
  | error stop m' =>
    rw [hread] at hlenient
    refine ⟨hlenient.withParser rfl rfl, fun e m'' he => ?_⟩
    obtain ⟨rfl, -⟩ := EStateM.Result.error.inj he
    exact hfault stop m' hread

theorem spares_fragment (fuel : Nat) (template name : Text) :
    Spares (fragment fuel template name) :=
  keeps_apart Machine.Lenient.readsApart (keeps_scan fuel []) template name

/-! ## Hooks -/

theorem spares_fireHook (fuel : Nat) (hook : Hook Node) : Spares (fireHook fuel hook) := by
  have hadmits : Spares (admits fuel hook) := by
    unfold admits
    split
    · exact keeps_holds _
    · exact keeps_pure _
  refine hadmits.bind fun admitted => ?_
  split
  · exact keeps_pure _
  · split
    · exact keeps_pure _
    · exact (spares_fragment _ _ _).bind fun _ => keeps_pure _

/-- Hooks on an event stop for no fault of strict reading either. -/
theorem isStrictOnly_of_fireHooks {fuel : Nat} {event : WidgetEvent} {hooks : List (Hook Node)}
    (hm : machine.Lenient) {firing : Firing}
    (h : fireHooks fuel event hooks machine = .ok firing machine') {e : Error}
    (hstop : firing.stop = some (.failure e)) : e.fault.isStrictOnly = false := by
  induction hooks generalizing machine machine' firing with
  | nil =>
    obtain ⟨rfl, -⟩ := EStateM.Result.ok.inj h
    cases hstop
  | cons hook rest ih =>
    -- A hook on another event or one that was taken off is passed over.
    unfold fireHooks at h
    split at h
    · obtain ⟨after, m, hrest, hpure⟩ := bind_eq_ok_iff.mp h
      obtain ⟨rfl, -⟩ := EStateM.Result.ok.inj hpure
      exact ih hm hrest hstop
    · -- A hook that fails stops the others; one that does not leaves a lenient machine to them.
      obtain ⟨outcome, m, hattempt, hrest⟩ := bind_eq_ok_iff.mp h
      obtain ⟨hlenient, hfault⟩ := spares_fireHook fuel hook machine hm
      unfold attempt at hattempt
      cases hfire : fireHook fuel hook machine with
      | error stop m' =>
        rw [hfire] at hattempt
        obtain ⟨rfl, rfl⟩ := EStateM.Result.ok.inj hattempt
        obtain ⟨rfl, -⟩ := EStateM.Result.ok.inj hrest
        cases hstop
        exact hfault (.failure e) m' hfire
      | ok r m' =>
        rw [hfire] at hattempt
        have hm' : Machine.Lenient m' := by rwa [hfire] at hlenient
        obtain ⟨rfl, rfl⟩ := EStateM.Result.ok.inj hattempt
        obtain ⟨after, m'', hafter, hpure⟩ := bind_eq_ok_iff.mp hrest
        obtain ⟨rfl, -⟩ := EStateM.Result.ok.inj hpure
        exact ih hm' hafter hstop

/-! ## What is reported -/

/-- **A lenient parser reports no fault of strict reading**, be it by a parse, by a fragment or by a
hook, or as the reason why the hooks on an event stopped. -/
theorem isStrictOnly_of_lenient (hm : machine.Lenient) (fuel : Nat) :
    (∀ template name e m, parse fuel template name machine = .error (.failure e) m →
      e.fault.isStrictOnly = false) ∧
    (∀ template name e m, fragment fuel template name machine = .error (.failure e) m →
      e.fault.isStrictOnly = false) ∧
    (∀ hook e m, fireHook fuel hook machine = .error (.failure e) m →
      e.fault.isStrictOnly = false) ∧
    ∀ event hooks firing m e, fireHooks fuel event hooks machine = .ok firing m →
      firing.stop = some (.failure e) → e.fault.isStrictOnly = false :=
  ⟨fun template name e m => (spares_parse fuel template name machine hm).2 (.failure e) m,
    fun template name e m => (spares_fragment fuel template name machine hm).2 (.failure e) m,
    fun hook e m => (spares_fireHook fuel hook machine hm).2 (.failure e) m,
    fun _ _ _ _ _ h => isStrictOnly_of_fireHooks hm h⟩

/-- An unknown tag with an unknown macro and an unknown action in it, and an action that fails. -/
def anomalousTemplate : Text := "<b><:m/>\x7b$lost\x7d\x7b$broken\x7d</b>".toList

def brokenAction : Action where
  title := "broken".toList
  reply _ _ := .error (.actionFailed "broken".toList "no".toList)

/-- A lenient machine with an action that fails. -/
def brokenMachine : Machine where
  registry := Registry.standard.registerAction "broken".toList brokenAction
  parser := { settings := { strict := false } }

theorem lenient_brokenMachine : brokenMachine.Lenient where
  strict := rfl
  operators := OperatorTable.standard_mild
  registry := by
    intro place a ha
    have hbroken : a = brokenAction := by
      -- The action is the only one there is.
      cases place with
      | alone name =>
        have hget : (Registry.standard.actions.insert "broken".toList brokenAction).get? name =
          some a := ha
        rw [Dictionary.get?_insert] at hget
        split at hget
        · exact (Option.some.inj hget).symm
        · cases hget
      | inside container name => cases ha
    subst hbroken
    exact fun _ _ => mild_error rfl

theorem isStrictOnly_anomalousTemplate : brokenMachine.Lenient ∧
    ∃ e m, parse 30 anomalousTemplate defaultTitle brokenMachine = .error (.failure e) m ∧
      e.fault.isStrictOnly = false := by
  obtain ⟨e, m, hparse⟩ := exists_of_fails
    (show fails (parse 30 anomalousTemplate defaultTitle brokenMachine) = true by decide +kernel)
  exact ⟨lenient_brokenMachine, e, m, hparse,
    (isStrictOnly_of_lenient lenient_brokenMachine 30).1 anomalousTemplate defaultTitle e m hparse⟩

end Engine

end MarkupTemplate
