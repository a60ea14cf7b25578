import MarkupTemplate.Engine.Firing
import MarkupTemplate.Proofs.Engine.Run

/-!
# Hooks that cache

A hook acts on one occasion after another, and in between the data, the registry and the actions may
become anything. So a history is a list of arbitrary machines (`Occasion`), and what a hook does is
compared with what a reading of its template would have given on each of them
(`Occasion.document?`).

What a hook that caches remembers is the first of these documents, and one that does not cache
remembers nothing (`Hook.remembered`). `Stage.Recalls` says so of the hook and of its scene after a
history; one more occasion keeps it (`Stage.Recalls.after`), whichever of the five things that can
happen does: the condition fails or does not hold, the hook replays, or it reads its template, which
fails or gives a document.

An occasion carries the draws of its machine like everything else that a reading depends on. So
`Occasion.document?` is what this occasion would have given, and a hook that reads on two occasions
with the same data but other draws may well read two documents.
-/

set_option autoImplicit false

namespace MarkupTemplate

open Engine

/-- The machine on which a hook is to act, as others left it, and the fuel. -/
structure Occasion where
  fuel : Nat
  machine : Machine

/-- The document that a hook would read on an occasion. There is none if its condition does not hold
or its template cannot be read. -/
def Occasion.document? (hook : Hook Node) (o : Occasion) : Option Document :=
  match admits o.fuel hook o.machine with
  | .ok true behind =>
    match fragment o.fuel hook.template (hookTitle hook.event) behind with
    | .ok document _ => some document
    | .error .. => none
  | _ => none

theorem Occasion.document?_eq_some_iff {hook : Hook Node} {o : Occasion} {d : Document} :
    o.document? hook = some d ↔ ∃ behind behind', admits o.fuel hook o.machine = .ok true behind ∧
      fragment o.fuel hook.template (hookTitle hook.event) behind = .ok d behind' := by
  unfold document?
  constructor
  · intro h
    split at h
    · next behind hadmits =>
      split at h
      · next d' behind' hread =>
        obtain rfl := Option.some.inj h
        exact ⟨behind, behind', hadmits, hread⟩
      · exact absurd h (by simp)
    · exact absurd h (by simp)
  · rintro ⟨behind, behind', hadmits, hread⟩
    rw [hadmits]
    dsimp only
    rw [hread]

/-! ## One occasion

What a hook does is decided by its condition first and by what it remembers next. In each of the
cases the outcome is known in terms of the reading alone. -/

namespace Engine

variable {fuel : Nat} {hook : Hook Node} {machine behind behind' : Machine} {d : Document}

/-- A replay reads nothing: the machine is the one behind the condition. -/
theorem fireHook_of_cached (h : admits fuel hook machine = .ok true behind)
    (hcached : hook.cached = some d) :
    fireHook fuel hook machine = .ok (hook, some d) behind := by
  rw [fireHook, bind_of_ok h, hcached]
  rfl

/-- Without a remembered document all depends on the reading. -/
theorem fireHook_of_not_cached (h : admits fuel hook machine = .ok true behind)
    (hcached : hook.cached = none) :
    fireHook fuel hook machine =
      (match fragment fuel hook.template (hookTitle hook.event) behind with
      | .error stop behind' => .error stop behind'
      | .ok d behind' =>
        .ok ({ hook with cached := if hook.cache then some d else none }, some d) behind') := by
  have hhook : ∀ d, (if hook.cache then { hook with cached := some d } else hook) =
      { hook with cached := if hook.cache then some d else none } := by
    intro d
    by_cases hcache : hook.cache = true
    · rw [if_pos hcache, if_pos hcache]
    · rw [if_neg hcache, if_neg hcache, ← hcached]
  rw [fireHook, bind_of_ok h, hcached]
  cases hread : fragment fuel hook.template (hookTitle hook.event) behind with
  | error stop behind' => exact bind_of_error hread
  | ok d behind' =>
    dsimp only
    rw [← hhook]
    exact bind_of_ok hread

end Engine

namespace Stage

variable {s : Stage} {fuel : Nat} {machine behind behind' : Machine} {stop : Stop}
  {hook : Hook Node} {document : Option Document} {d : Document}

/-- A hook that fails changes nothing, and its failure is the answer. -/
theorem fire_of_error (h : fireHook fuel s.hook machine = .error stop behind) :
    s.fire fuel machine = .ok (.error stop, s) behind := by
  have hattempt : attempt (fireHook fuel s.hook) machine = .ok (.error stop) behind := by
    rw [attempt, h]
  rw [fire, bind_of_ok hattempt]
  rfl

/-- What a hook delivers is added to the scene. -/
theorem fire_of_ok (h : fireHook fuel s.hook machine = .ok (hook, document) behind) :
    s.fire fuel machine =
      .ok (.ok document.isSome, { hook, scene := s.scene ++ document.toList }) behind := by
  have hattempt : attempt (fireHook fuel s.hook) machine = .ok (.ok (hook, document)) behind := by
    rw [attempt, h]
  rw [fire, bind_of_ok hattempt]
  rfl

/-- A condition that fails is a failure of the hook. -/
theorem fire_of_condition_fails (h : admits fuel s.hook machine = .error stop behind) :
    s.fire fuel machine = .ok (.error stop, s) behind :=
  fire_of_error (by rw [fireHook, bind_of_error h])

/-- A condition that does not hold leaves the stage as it is. -/
theorem fire_of_rejected (h : admits fuel s.hook machine = .ok false behind) :
    s.fire fuel machine = .ok (.ok false, s) behind := by
  have hhook : fireHook fuel s.hook machine = .ok (s.hook, none) behind := by
    rw [fireHook, bind_of_ok h]
    rfl
  rw [fire_of_ok hhook, Option.isSome_none, Option.toList_none, List.append_nil]

theorem fire_of_cached (h : admits fuel s.hook machine = .ok true behind)
    (hcached : s.hook.cached = some d) :
    s.fire fuel machine = .ok (.ok true, { s with scene := s.scene ++ [d] }) behind :=
  fire_of_ok (fireHook_of_cached h hcached)

/-- A template that cannot be read is a failure, and nothing is remembered. -/
theorem fire_of_fragment_fails (h : admits fuel s.hook machine = .ok true behind)
    (hcached : s.hook.cached = none)
    (hread : fragment fuel s.hook.template (hookTitle s.hook.event) behind =
      .error stop behind') :
    s.fire fuel machine = .ok (.error stop, s) behind' :=
  fire_of_error (by rw [fireHook_of_not_cached h hcached, hread])

/-- A template that is read is delivered, and remembered if the hook caches. -/
theorem fire_of_fragment (h : admits fuel s.hook machine = .ok true behind)
    (hcached : s.hook.cached = none)
    (hread : fragment fuel s.hook.template (hookTitle s.hook.event) behind = .ok d behind') :
    s.fire fuel machine = .ok (.ok true,
      { hook := { s.hook with cached := if s.hook.cache then some d else none }
        scene := s.scene ++ [d] }) behind' := by
  have hhook := fireHook_of_not_cached h hcached
  rw [hread] at hhook
  exact fire_of_ok hhook

end Stage

/-! ## What is remembered

The first document of the past, for a hook that caches. It is a function of the occasions, without a
look at what the hook did on them. -/

/-- What a hook remembers of the occasions so far. -/
def Hook.remembered (hook : Hook Node) (past : List Occasion) : Option Document :=
  if hook.cache then past.findSome? (Occasion.document? hook) else none

variable {hook : Hook Node} {past : List Occasion} {s : Stage} {o : Occasion} {d : Document}

namespace Hook

theorem remembered_of_cache (hcache : hook.cache = true) :
    hook.remembered past = past.findSome? (Occasion.document? hook) :=
  if_pos hcache

theorem remembered_of_not_cache (hcache : hook.cache = false) : hook.remembered past = none :=
  if_neg (by simp [hcache])

theorem cache_of_remembered (h : hook.remembered past = some d) : hook.cache = true := by
  cases hcache : hook.cache with
  | true => rfl
  | false =>
    rw [remembered_of_not_cache hcache] at h
    exact absurd h (by simp)

theorem remembered_append_of_some (h : hook.remembered past = some d) :
    hook.remembered (past ++ [o]) = some d := by
  have hcache := cache_of_remembered h
  rw [remembered_of_cache hcache] at h ⊢
  rw [List.findSome?_append, h, Option.some_or]

/-- As long as nothing is remembered, the next document is. -/
theorem remembered_append_of_none (h : hook.remembered past = none) :
    hook.remembered (past ++ [o]) = if hook.cache then o.document? hook else none := by
  cases hcache : hook.cache with
  | true =>
    rw [remembered_of_cache hcache] at h ⊢
    rw [List.findSome?_append, h, Option.none_or, List.findSome?_singleton, if_pos rfl]
  | false => rw [remembered_of_not_cache hcache, if_neg Bool.false_ne_true]

end Hook

/-- What holds of a stage after some occasions. -/
structure Stage.Recalls (hook : Hook Node) (past : List Occasion) (s : Stage) : Prop where
  hook_eq : s.hook = { hook with cached := hook.remembered past }
  cached : hook.cache = true → ∀ d ∈ s.scene, hook.remembered past = some d
  fresh : hook.cache = false → s.scene = past.filterMap (Occasion.document? hook)

namespace Stage.Recalls

/-- An occasion on which a hook would read nothing leaves the stage as it is. -/
theorem append_of_none (h : Recalls hook past s) (hnone : o.document? hook = none) :
    Recalls hook (past ++ [o]) s := by
  have hsame : hook.remembered (past ++ [o]) = hook.remembered past := by
    cases hd : hook.remembered past with
    | some d => exact Hook.remembered_append_of_some hd
    | none => rw [Hook.remembered_append_of_none hd, hnone, ite_self]
  constructor
  · rw [hsame, h.hook_eq]
  · rw [hsame]
    exact h.cached
  · intro hcache
    rw [h.fresh hcache, List.filterMap_append, List.filterMap_cons_none hnone, List.filterMap_nil,
      List.append_nil]

theorem append_of_remembered (h : Recalls hook past s) (hd : hook.remembered past = some d) :
    Recalls hook (past ++ [o]) { s with scene := s.scene ++ [d] } := by
  have hcache := Hook.cache_of_remembered hd
  have hsame : hook.remembered (past ++ [o]) = some d := Hook.remembered_append_of_some hd
  constructor
  · rw [hsame, ← hd, h.hook_eq]
  · intro _ d' hmem
    rcases List.mem_append.mp hmem with hmem | hmem
    · rw [hsame, ← hd, h.cached hcache d' hmem]
    · rw [hsame, List.mem_singleton.mp hmem]
  · intro hcache'
    exact absurd (hcache.symm.trans hcache') (by simp)

theorem append_of_some (h : Recalls hook past s) (hnone : hook.remembered past = none)
    (hd : o.document? hook = some d) :
    Recalls hook (past ++ [o])
      { hook := { hook with cached := if hook.cache then some d else none }
        scene := s.scene ++ [d] } := by
  have hread := @Hook.remembered_append_of_none hook past o hnone
  rw [hd] at hread
  constructor
  · rw [hread]
  · intro hcache d' hmem
    rw [if_pos hcache] at hread
    rcases List.mem_append.mp hmem with hmem | hmem
    · exact absurd (h.cached hcache d' hmem) (by simp [hnone])
    · rw [hread, List.mem_singleton.mp hmem]
  · intro hcache
    rw [h.fresh hcache, List.filterMap_append, List.filterMap_cons_some hd, List.filterMap_nil]

end Stage.Recalls

/-! ## Histories

One occasion after another, each on a machine of its own. -/

/-- What a hook that remembers `memory` does on an occasion. -/
structure Stage.Fires (hook : Hook Node) (memory : Option Document) (s : Stage) (o : Occasion) :
    Prop where
  fails : ∀ stop behind, admits o.fuel hook o.machine = .error stop behind →
    s.fire o.fuel o.machine = .ok (.error stop, s) behind
  rejects : ∀ behind, admits o.fuel hook o.machine = .ok false behind →
    s.fire o.fuel o.machine = .ok (.ok false, s) behind
  /-- Nothing is read: the machine is the one behind the condition. -/
  replays : ∀ behind d, admits o.fuel hook o.machine = .ok true behind → memory = some d →
    s.fire o.fuel o.machine = .ok (.ok true, { s with scene := s.scene ++ [d] }) behind
  misreads : ∀ behind stop behind', admits o.fuel hook o.machine = .ok true behind →
    memory = none →
    fragment o.fuel hook.template (hookTitle hook.event) behind = .error stop behind' →
    s.fire o.fuel o.machine = .ok (.error stop, s) behind'
  reads : ∀ behind d behind', admits o.fuel hook o.machine = .ok true behind → memory = none →
    fragment o.fuel hook.template (hookTitle hook.event) behind = .ok d behind' →
    s.fire o.fuel o.machine = .ok (.ok true,
      { hook := { hook with cached := if hook.cache then some d else none }
        scene := s.scene ++ [d] }) behind'

/-- The stage after an occasion. -/
def Stage.after (s : Stage) (o : Occasion) : Stage :=
  match s.fire o.fuel o.machine with
  | .ok (_, s') _ => s'
  | .error .. => s

/-- The stage of a hook after some occasions. -/
def Hook.stage (hook : Hook Node) (past : List Occasion) : Stage :=
  past.foldl Stage.after { hook }

namespace Stage.Recalls

/-- What a stage does on the next occasion is decided by what it remembers. -/
theorem fires (h : Recalls hook past s) (o : Occasion) : Fires hook (hook.remembered past) s o := by
  obtain ⟨hook', scene⟩ := s
  obtain rfl : hook' = { hook with cached := hook.remembered past } := h.hook_eq
  -- A condition and a template are the same whatever is remembered.
  exact {
    fails := fun _ _ hadmits => fire_of_condition_fails hadmits
    rejects := fun _ hadmits => fire_of_rejected hadmits
    replays := fun _ _ hadmits hmemory => fire_of_cached hadmits hmemory
    misreads := fun _ _ _ hadmits hmemory hread => fire_of_fragment_fails hadmits hmemory hread
    reads := fun _ _ _ hadmits hmemory hread => fire_of_fragment hadmits hmemory hread }

/-- **One more occasion** keeps what holds, and adds one document or changes nothing. -/
theorem exists_fire (h : Recalls hook past s) (o : Occasion) :
    ∃ answer s' behind, s.fire o.fuel o.machine = .ok (answer, s') behind ∧
      Recalls hook (past ++ [o]) s' ∧
      (answer ≠ .ok true ∧ s' = s ∨ answer = .ok true ∧ ∃ d, s'.scene = s.scene ++ [d]) := by
  have hfires := h.fires o
  -- The five things that can happen, in the order in which they are decided.
  cases hadmits : admits o.fuel hook o.machine with
  | error stop behind =>
    have hnone : o.document? hook = none := by rw [Occasion.document?, hadmits]
    exact ⟨_, _, _, hfires.fails stop behind hadmits, h.append_of_none hnone,
      Or.inl ⟨by simp, rfl⟩⟩
  | ok holds behind =>
    cases holds with
    | false =>
      have hnone : o.document? hook = none := by rw [Occasion.document?, hadmits]
      exact ⟨_, _, _, hfires.rejects behind hadmits, h.append_of_none hnone,
        Or.inl ⟨by simp, rfl⟩⟩
    | true =>
      cases hmemory : hook.remembered past with
      | some d =>
        exact ⟨_, _, _, hfires.replays behind d hadmits hmemory, h.append_of_remembered hmemory,
          Or.inr ⟨rfl, d, rfl⟩⟩
      | none =>
        cases hread : fragment o.fuel hook.template (hookTitle hook.event) behind with
        | error stop behind' =>
          have hnone : o.document? hook = none := by
            rw [Occasion.document?, hadmits]
            dsimp only
            rw [hread]
          exact ⟨_, _, _, hfires.misreads behind stop behind' hadmits hmemory hread,
            h.append_of_none hnone, Or.inl ⟨by simp, rfl⟩⟩
        | ok d behind' =>
          have hsome : o.document? hook = some d :=
            Occasion.document?_eq_some_iff.mpr ⟨behind, behind', hadmits, hread⟩
          exact ⟨_, _, _, hfires.reads behind d behind' hadmits hmemory hread,
            h.append_of_some hmemory hsome, Or.inr ⟨rfl, d, rfl⟩⟩

/-- One more occasion keeps what holds of a stage. -/
theorem after (h : Recalls hook past s) (o : Occasion) :
    Recalls hook (past ++ [o]) (s.after o) := by
  obtain ⟨answer, s', behind, hfire, hrecalls, -⟩ := h.exists_fire o
  rwa [Stage.after, hfire]

/-- **A history** keeps what holds, by induction on it. -/
theorem foldl_after (h : Recalls hook past s) (later : List Occasion) :
    Recalls hook (past ++ later) (later.foldl Stage.after s) := by
  induction later generalizing past s with
  | nil =>
    rw [List.append_nil]
    exact h
  | cons o later ih =>
    have hlater := ih (h.after o)
    rwa [List.append_assoc, List.singleton_append] at hlater

end Stage.Recalls

/-- After any history a stage recalls what it should. -/
theorem Hook.recalls_stage (hcached : hook.cached = none) (past : List Occasion) :
    Stage.Recalls hook past (hook.stage past) := by
  have hempty : hook.remembered [] = none := ite_self none
  have hstart : Stage.Recalls hook [] { hook } := {
    hook_eq := by rw [hempty, ← hcached]
    cached := fun _ d hd => absurd hd List.not_mem_nil
    fresh := fun _ => rfl }
  exact hstart.foldl_after past

/-- **A hook that caches reads its template once.** Whatever becomes of the machine between the
occasions, it reads on every occasion whose condition holds until it gets a document. This document
is the only one that it ever delivers. A hook that does not cache delivers what it reads each time.
The answer is that its condition held if and only if it delivers one document, and if it does not,
hook and scene stay as they are. -/
theorem Hook.stage_fire (hook : Hook Node) (hcached : hook.cached = none) (past : List Occasion)
    (now : Occasion) :
    Stage.Recalls hook past (hook.stage past) ∧
    Stage.Fires hook (hook.remembered past) (hook.stage past) now ∧
    ∃ answer s' behind, (hook.stage past).fire now.fuel now.machine = .ok (answer, s') behind ∧
      (answer = .ok true ↔ ∃ d, s'.scene = (hook.stage past).scene ++ [d]) ∧
      (answer ≠ .ok true → s' = hook.stage past) := by
  have hrecalls := recalls_stage hcached past
  refine ⟨hrecalls, hrecalls.fires now, ?_⟩
  obtain ⟨answer, s', behind, hfire, -, ⟨hanswer, rfl⟩ | ⟨rfl, d, hd⟩⟩ := hrecalls.exists_fire now
  · refine ⟨answer, _, behind, hfire, ⟨fun htrue => absurd htrue hanswer, ?_⟩, fun _ => rfl⟩
    rintro ⟨d, hd⟩
    exact absurd hd (by simp)
  · exact ⟨_, s', behind, hfire, ⟨fun _ => ⟨d, hd⟩, fun _ => rfl⟩, fun hne => absurd rfl hne⟩

namespace Engine

/-- An occasion on which an argument has some value. -/
def supplied (value : Text) : Occasion where
  fuel := 50
  machine.parser.environment := ({} : Environment).setArgument "x".toList value

def echoing : Hook Node :=
  { event := .click, template := "{x}".toList, condition := some "{x}!=no".toList, cache := true }

/-- Nothing is delivered on the first two occasions: the template is no markup, then the condition
does not hold. -/
def unsettled : List Occasion :=
  [supplied "<".toList, supplied "no".toList, supplied "b".toList]

/-- The hook delivers the first document that it could read, though by now it would read another. -/
theorem stage_fire_echoing : echoing.cached = none ∧
    (echoing.stage unsettled).scene.map Parsed.text = ["b".toList] ∧
    ((supplied "c".toList).document? echoing).map Parsed.text = some "c".toList ∧
    ∃ s' behind, (echoing.stage unsettled).fire 50 (supplied "c".toList).machine =
        .ok (.ok true, s') behind ∧
      s'.scene.map Parsed.text = ["b".toList, "b".toList] := by
  have hscene : (echoing.stage unsettled).scene.map Parsed.text = ["b".toList] := by decide +kernel
  have hnow : ((supplied "c".toList).document? echoing).map Parsed.text = some "c".toList := by
    decide +kernel
  have hpast : (echoing.remembered unsettled).map Parsed.text = some "b".toList := by
    decide +kernel
  obtain ⟨d, hmemory, hd⟩ := Option.map_eq_some_iff.mp hpast
  obtain ⟨_, hread, -⟩ := Option.map_eq_some_iff.mp hnow
  obtain ⟨behind, -, hadmits, -⟩ := Occasion.document?_eq_some_iff.mp hread
  obtain ⟨-, hfires, -⟩ := Hook.stage_fire echoing rfl unsettled (supplied "c".toList)
  refine ⟨rfl, hscene, hnow, _, behind, hfires.replays behind d hadmits hmemory, ?_⟩
  rw [List.map_append, hscene, List.map_singleton, hd]
  rfl

end Engine

end MarkupTemplate
