import MarkupTemplate.Proofs.Engine.Frame
import MarkupTemplate.Proofs.Notification.Attaching

/-!
# A round of notifications

The listeners of a phase are taken out of the parser while they are notified, and put back behind
that with what they have added meanwhile. What a listener does when it is notified follows from the
listener alone: `exists_notifyOne` is what one notification does, and `exists_notifyEach`, by
induction on the listeners, what a round does.

So no listener is lost or doubled, however the listeners before the first failure answer
(`notify_round`): those that leave are gone, those behind the failure are there without having been
notified, and the new ones come last.

A round is described here by functions of the list of listeners (`called`, `kept`, `additions`,
`notices`), without the machine. `Heard` is all that a round does to the machine that matters to
later rounds, and it composes, so the induction has nothing to carry but it.
-/

set_option autoImplicit false

namespace MarkupTemplate

/-! ## What a listener does -/

namespace Listener

/-- What a listener fails with when it is notified, if it does. -/
def failure? : Listener → Option Fault
  | host l => l.failure.map .custom
  | attach .. => none

/-- Whether a listener does not fail when it is notified. -/
def succeeds (l : Listener) : Bool := l.failure?.isNone

/-- Whether a listener that does not fail asks to be kept. -/
def stays : Listener → Bool
  | host l => decide (l.calls + 1 < l.keep)
  | attach _ _ keep => keep

/-- The answer of a listener to its next notification. -/
def answer (l : Listener) : Answer :=
  match l.failure? with
  | some f => .failed f
  | none => if l.stays then .keep else .leave

/-- The listener behind a notification. -/
def notified : Listener → Listener
  | host l => host { l with calls := l.calls + 1 }
  | attach ids hook keep => attach ids hook keep

/-- The listeners of a phase that a listener adds when it is notified. -/
def additions (phase : Phase) : Listener → List Listener
  | host l => (l.added.filter fun a => a.phase = phase).map host
  | attach .. => []

/-- What a listener makes of the nodes. -/
def applied : Listener → List Node → List Node
  | host _, nodes => nodes
  | attach ids hook _, nodes => Engine.attachHook hook ids nodes

/-- What the host is told when a listener is notified that has been notified `calls` times. -/
def notices (nodes : List Node) : Listener → List Notice
  | host l => [.listener l.name (l.calls + 1) (nodes.map fun n => n.tag.name)]
  | attach .. => []

/-! ## What a round does -/

/-- The listeners that are notified: those up to the first one that fails. -/
def called (listeners : List Listener) : List Listener :=
  listeners.takeWhile succeeds ++ (listeners.dropWhile succeeds).take 1

/-- The listeners that are kept: those that ask for it, the first one that fails, and all behind
it. -/
def kept (listeners : List Listener) : List Listener :=
  ((listeners.takeWhile succeeds).filter stays).map notified ++
    (listeners.dropWhile succeeds).modifyHead notified

variable {l : Listener} {listeners : List Listener}

theorem called_cons_of_succeeds (h : l.succeeds = true) :
    called (l :: listeners) = l :: called listeners := by
  simp [called, h]

theorem called_cons_of_fails (h : l.succeeds = false) : called (l :: listeners) = [l] := by
  simp [called, h]

theorem kept_cons_of_succeeds (h : l.succeeds = true) :
    kept (l :: listeners) = (if l.stays then [l.notified] else []) ++ kept listeners := by
  cases hstays : l.stays with
  | true => simp [kept, h, hstays]
  | false => simp [kept, h, hstays]

theorem kept_cons_of_fails (h : l.succeeds = false) :
    kept (l :: listeners) = l.notified :: listeners := by
  simp [kept, h]

end Listener

/-! ## Nodes

A listener changes nodes by hanging hooks on them, which leaves their tags as they were. -/

theorem Listener.map_tag_applied (l : Listener) (nodes : List Node) :
    (l.applied nodes).map Node.tag = nodes.map Node.tag := by
  cases l with
  | host l => rfl
  | attach ids hook keep => exact Engine.map_tag_attachHook hook ids nodes

/-- What the host is told does not depend on the hooks. -/
theorem Listener.notices_applied (l l' : Listener) (nodes : List Node) :
    l'.notices (l.applied nodes) = l'.notices nodes := by
  have hnames := congrArg (List.map Tag.name) (l.map_tag_applied nodes)
  rw [List.map_map, List.map_map] at hnames
  cases l' with
  | attach ids hook keep => rfl
  | host host => exact congrArg (fun names => [Notice.listener _ _ names]) hnames

/-! ## Machines

What is left of a notification besides its answer: the listeners that it adds, and what the host was
told. -/

/-- Whether a machine has more listeners than another one, and has told the host more. The listeners
of each phase come in the order in which they were added, and what the host was told has the latest
first. -/
structure Heard (added : Phase → List Listener) (told : List Notice) (m m' : Machine) : Prop where
  listeners : ∀ phase, m'.parser.listeners phase = m.parser.listeners phase ++ added phase
  notices : m'.notices = told.reverse ++ m.notices

namespace Heard

theorem refl (m : Machine) : Heard (fun _ => []) [] m m :=
  ⟨fun _ => (List.append_nil _).symm, rfl⟩

theorem trans {added added' : Phase → List Listener} {told told' : List Notice}
    {m m' m'' : Machine} (h : Heard added told m m') (h' : Heard added' told' m' m'') :
    Heard (fun phase => added phase ++ added' phase) (told ++ told') m m'' := by
  constructor
  · intro phase
    rw [h'.listeners, h.listeners, List.append_assoc]
  · rw [h'.notices, h.notices, List.reverse_append, List.append_assoc]

end Heard

namespace Engine

theorem listeners_setListeners (p : Parser) (phase other : Phase) (listeners : List Listener) :
    (p.setListeners phase listeners).listeners other =
      if other = phase then listeners else p.listeners other := by
  cases phase with
  | before => cases other <;> rfl
  | after => cases other <;> rfl

theorem exists_setArguments (pairs : List (Text × Text)) (machine : Machine) :
    ∃ machine', (pairs.forM fun (name, value) => setArgument name value) machine =
      .ok () machine' ∧ Heard (fun _ => []) [] machine machine' := by
  induction pairs generalizing machine with
  | nil => exact ⟨machine, rfl, .refl machine⟩
  | cons pair pairs ih =>
    obtain ⟨machine', hrun, hheard⟩ := ih (behind (setArgument pair.1 pair.2 machine))
    refine ⟨machine', hrun, ⟨fun phase => ?_, hheard.notices⟩⟩
    rw [hheard.listeners]
    cases phase <;> rfl

theorem exists_addHostListeners (added : List HostListener) (machine : Machine) :
    ∃ machine', added.forM addHostListener machine = .ok () machine' ∧
      Heard (fun phase => (added.filter fun a => a.phase = phase).map .host) [] machine machine' := by
  induction added generalizing machine with
  | nil => exact ⟨machine, rfl, .refl machine⟩
  | cons l added ih =>
    obtain ⟨machine', hrun, hheard⟩ := ih (behind (addHostListener l machine))
    refine ⟨machine', hrun, ⟨fun phase => ?_, hheard.notices⟩⟩
    have hbehind : (behind (addHostListener l machine)).parser =
        machine.parser.setListeners l.phase (machine.parser.listeners l.phase ++ [.host l]) := rfl
    rw [hheard.listeners, hbehind, listeners_setListeners]
    by_cases hphase : phase = l.phase
    · subst hphase
      simp
    · simp [hphase, Ne.symm hphase]

/-- **One notification** gives the answer of the listener, adds what it adds and tells the host of
it. It does not fail by itself, whatever the listener answers: failing is left to the round. -/
theorem exists_notifyOne (l : Listener) (nodes : List Node) (machine : Machine) :
    ∃ machine', notifyOne l nodes machine = .ok (l.notified, l.answer, l.applied nodes) machine' ∧
      Heard l.additions (l.notices nodes) machine machine' := by
  cases l with
  | attach ids hook keep => exact ⟨machine, rfl, .refl machine⟩
  | host l =>
    -- The machine goes through four states: told, with arguments, with a text, with listeners.
    let told : Machine := { machine with
      notices := .listener l.name (l.calls + 1) (nodes.map fun n => n.tag.name) ::
        machine.notices }
    obtain ⟨assigned, hassigned, hheard⟩ := exists_setArguments l.assigned told
    let appended := assigned.withReader (assigned.parser.reader.append l.appended l.name)
    obtain ⟨machine', hadded, hheard'⟩ := exists_addHostListeners l.added appended
    have hanswer : notifyHost l nodes machine =
        .ok ({ l with calls := l.calls + 1 }, (Listener.host l).answer) machine' := by
      have htold : note (.listener l.name (l.calls + 1) (nodes.map fun n => n.tag.name)) machine =
          .ok () told := rfl
      have happended : append l.appended l.name assigned = .ok () appended := rfl
      rw [notifyHost]
      dsimp only
      rw [bind_of_ok htold, bind_of_ok hassigned, bind_of_ok happended, bind_of_ok hadded]
      cases hfailure : l.failure with
      | some message =>
        simp only [Listener.answer, Listener.failure?, hfailure, Option.map_some]
        rfl
      | none =>
        simp only [Listener.answer, Listener.failure?, Listener.stays, hfailure, Option.map_none,
          decide_eq_true_eq]
        rfl
    refine ⟨machine', ?_, ⟨fun phase => ?_, ?_⟩⟩
    · rw [notifyOne, bind_of_ok hanswer]
      rfl
    · have happended : appended.parser.listeners phase = assigned.parser.listeners phase := by
        cases phase <;> rfl
      have htold : told.parser.listeners phase = machine.parser.listeners phase := rfl
      rw [hheard'.listeners, happended, hheard.listeners, htold, List.append_nil]
      rfl
    · rw [hheard'.notices]
      exact hheard.notices

/-! ## Rounds -/

/-- **A round of notifications**, by induction on the listeners. The nodes are handed from one
listener to the next, and what a listener tells the host of them does not depend on what the earlier
ones have hung on them. -/
theorem exists_notifyEach (listeners : List Listener) (nodes : List Node) (machine : Machine) :
    ∃ machine', notifyEach listeners nodes machine =
        .ok (Listener.kept listeners, listeners.findSome? Listener.failure?,
          (Listener.called listeners).foldl (fun nodes l => l.applied nodes) nodes) machine' ∧
      Heard (fun phase => (Listener.called listeners).flatMap (Listener.additions phase))
        ((Listener.called listeners).flatMap (Listener.notices nodes)) machine machine' := by
  induction listeners generalizing nodes machine with
  | nil => exact ⟨machine, rfl, .refl machine⟩
  | cons l listeners ih =>
    obtain ⟨between, hone, hheard⟩ := exists_notifyOne l nodes machine
    -- A failure ends the round here, and all behind it is kept as it is.
    cases hfailure : l.failure? with
    | some f =>
      have hfails : l.succeeds = false := by simp [Listener.succeeds, hfailure]
      have hanswer : l.answer = .failed f := by rw [Listener.answer, hfailure]
      refine ⟨between, ?_, ?_⟩
      · rw [notifyEach, bind_of_ok hone, hanswer, Listener.kept_cons_of_fails hfails,
          Listener.called_cons_of_fails hfails, List.findSome?_cons, hfailure]
        rfl
      · rw [Listener.called_cons_of_fails hfails]
        simpa using hheard
    | none =>
      have hsucceeds : l.succeeds = true := by simp [Listener.succeeds, hfailure]
      obtain ⟨machine', hrest, hheard'⟩ := ih (l.applied nodes) between
      have hnotices : (Listener.called listeners).flatMap (Listener.notices (l.applied nodes)) =
          (Listener.called listeners).flatMap (Listener.notices nodes) :=
        congrArg (fun told => (Listener.called listeners).flatMap told)
          (funext fun l' => l.notices_applied l' nodes)
      refine ⟨machine', ?_, ?_⟩
      · rw [notifyEach, bind_of_ok hone, Listener.kept_cons_of_succeeds hsucceeds,
          Listener.called_cons_of_succeeds hsucceeds, List.findSome?_cons, hfailure,
          List.foldl_cons]
        cases hstays : l.stays with
        | true =>
          have hanswer : l.answer = .keep := by rw [Listener.answer, hfailure, hstays]; rfl
          rw [hanswer]
          dsimp only
          rw [bind_of_ok hrest]
          rfl
        | false =>
          have hanswer : l.answer = .leave := by rw [Listener.answer, hfailure, hstays]; rfl
          rw [hanswer]
          exact hrest
      · rw [Listener.called_cons_of_succeeds hsucceeds]
        rw [hnotices] at hheard'
        exact hheard.trans hheard'

/-- **No listener is lost or doubled** when those of a phase are notified. The ones up to the first
failure are called, once each and in their order. The phase then has those of them that asked to be
kept, the one that failed and all behind it, and then the listeners that were added, in the order in
which they were. The outcome is the first failure, if there is one. The other phase only has what was
added to it. -/
theorem notify_round (phase : Phase) (nodes : List Node) (machine : Machine) :
    ∃ machine', notify phase nodes machine =
        (match (machine.parser.listeners phase).findSome? Listener.failure? with
          | some f => .error (.failure { fault := f }) machine'
          | none => .ok ((Listener.called (machine.parser.listeners phase)).foldl
              (fun nodes l => l.applied nodes) nodes) machine') ∧
      machine'.parser.listeners phase = Listener.kept (machine.parser.listeners phase) ++
        (Listener.called (machine.parser.listeners phase)).flatMap (Listener.additions phase) ∧
      (∀ other, other ≠ phase → machine'.parser.listeners other =
        machine.parser.listeners other ++
          (Listener.called (machine.parser.listeners phase)).flatMap (Listener.additions other)) ∧
      machine'.notices = ((Listener.called (machine.parser.listeners phase)).flatMap
        (Listener.notices nodes)).reverse ++ machine.notices := by
  -- While the round is under way the phase is empty, so that what is added to it is all there
  -- is.
  let emptied : Machine := { machine with parser := machine.parser.setListeners phase [] }
  obtain ⟨between, heach, hheard⟩ :=
    exists_notifyEach (machine.parser.listeners phase) nodes emptied
  let machine' : Machine := { between with
    parser := between.parser.setListeners phase
      (Listener.kept (machine.parser.listeners phase) ++ between.parser.listeners phase) }
  refine ⟨machine', ?_, ?_, fun other hother => ?_, hheard.notices⟩
  · rw [notify, bind_of_ok (parser_eq machine), bind_of_ok (modifyParser_eq _ machine),
      bind_of_ok heach]
    dsimp only
    rw [bind_of_ok (modifyParser_eq _ between)]
    cases (machine.parser.listeners phase).findSome? Listener.failure? with
    | some f => rfl
    | none => rfl
  · have hadded := hheard.listeners phase
    rw [listeners_setListeners, if_pos rfl, List.nil_append] at hadded
    rw [listeners_setListeners, if_pos rfl, hadded]
  · rw [listeners_setListeners, if_neg hother, hheard.listeners, listeners_setListeners,
      if_neg hother]

def guest (name : Text) : HostListener := { phase := .after, name, keep := 1 }

/-- A listener that stays for a while and brings others. -/
def host : HostListener :=
  { guest "host".toList with keep := 3, added := [guest "late".toList, guest "later".toList] }

def spoiler : HostListener := { guest "spoiler".toList with failure := some "no".toList }

def hookAttacher : Listener := .attach ["x".toList] { event := .click, template := [] } true

/-- A machine with a listener behind the parse for each thing that one can do. -/
def attended : Machine where
  parser.before := [.host { guest "early".toList with phase := .before }]
  parser.after := [.host (guest "guest".toList), .host host, hookAttacher, .host spoiler,
    .host (guest "last".toList)]

theorem notify_attended : ∃ machine',
    notify .after [] attended = .error (.failure { fault := .custom "no".toList }) machine' ∧
    machine'.parser.after = [.host { host with calls := 1 }, hookAttacher,
      .host { spoiler with calls := 1 }, .host (guest "last".toList),
      .host (guest "late".toList), .host (guest "later".toList)] ∧
    machine'.parser.before = attended.parser.before ∧
    machine'.notices = [.listener "spoiler".toList 1 [], .listener "host".toList 1 [],
      .listener "guest".toList 1 []] := by
  obtain ⟨machine', hnotify, hphase, hother, hnotices⟩ := notify_round .after [] attended
  exact ⟨machine', hnotify, hphase, hother .before (by decide), hnotices⟩

end Engine

end MarkupTemplate
