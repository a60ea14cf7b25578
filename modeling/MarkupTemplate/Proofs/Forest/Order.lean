import MarkupTemplate.Proofs.Forest.Listing

/-!
# The order of tags

No tag is lost, doubled or moved. While a template is read, the tags in the tree, finished or not,
are those that were opened so far, in the order in which they were opened: a step of the scanner
adds the tag that it opens to the listing, if it opens one (`Step.listing_eq`), and so a run adds
the tags that it opens (`Run.listing_eq`). At the end no tag is open, and listeners behind the parse
may hang hooks on nodes but leave their tags alone. So the nodes of a document hold the tags that
were opened by the run that read it (`tags_in_order`).

This is as true of what a macro of the host has read apart, which is a run of its own with a tree of
its own.

The code of a host takes part in this. Its tags make nodes, its macros run while the template is
read, and its listeners are told of the finished tree. That it leaves the children of nodes, the
open tags and the listeners as they are is what `hosts_courteous` states of it, and the lemmas on
hosts are the only place where that is used.
-/

set_option autoImplicit false

namespace MarkupTemplate

/-! ## Steps and runs

What the scanner does, cut into steps. A step is described by its turn and by the tag that it reads,
so a run of steps is the recursion of the scanner and nothing else (`scan_eq_ok_iff`). -/

/-- The scanner between two steps: how much fuel it has, the text since the last tag, the last
character first, and the machine. -/
structure Pause where
  fuel : Nat
  pending : Text
  machine : Machine

/-- What the scanner does from a pause on. -/
def Pause.run (p : Pause) : EStateM.Result Stop Machine Unit :=
  Engine.scan p.fuel p.pending p.machine

/-- Whether the scanner, with one more step, comes to the end of what is unread. -/
def Pause.Ends (p : Pause) (machine : Machine) : Prop :=
  ∃ fuel, p.fuel = fuel + 1 ∧ Engine.turn fuel p.pending p.machine = .ok .finished machine

/-- A step of the scanner, and the tag that it opens. -/
inductive Step : Pause → Option Tag → Pause → Prop
  | text {fuel : Nat} {pending pending' : Text} {machine machine' : Machine} :
      Engine.turn fuel pending machine = .ok (.text pending') machine' →
        Step ⟨fuel + 1, pending, machine⟩ none ⟨fuel, pending', machine'⟩
  | tag {fuel : Nat} {pending raw : Text} {machine between machine' : Machine} :
      Engine.turn fuel pending machine = .ok (.tag raw) between →
      Engine.readTag fuel (Engine.apart (Engine.scan fuel [])) raw between = .ok () machine' →
        Step ⟨fuel + 1, pending, machine⟩ (Engine.opened? between raw) ⟨fuel, [], machine'⟩

/-- Any number of steps, and the tags that they open. -/
inductive Run : Pause → List Tag → Pause → Prop
  | refl (p : Pause) : Run p [] p
  | step {p q r : Pause} {opened : List Tag} {t : Option Tag} :
      Run p opened q → Step q t r → Run p (opened ++ t.toList) r

open Engine

variable {p q r : Pause} {opened : List Tag} {t : Option Tag}

theorem Step.run_eq (h : Step p t q) : p.run = q.run := by
  cases h with
  | text hturn =>
    show scan _ _ _ = _
    rw [scan_succ, bind_of_ok hturn]
    rfl
  | tag hturn hread =>
    show scan _ _ _ = _
    rw [scan_succ, bind_of_ok hturn, goOn, bind_of_ok hread]
    rfl

theorem Run.run_eq (h : Run p opened q) : p.run = q.run := by
  induction h with
  | refl => rfl
  | step _ hstep ih => exact ih.trans hstep.run_eq

/-- A step in front of a run makes a longer one. -/
theorem Run.of_step (hstep : Step p t q) (h : Run q opened r) : Run p (t.toList ++ opened) r := by
  induction h with
  | refl =>
    have hrun := (Run.refl p).step hstep
    rwa [List.nil_append, ← List.append_nil t.toList] at hrun
  | step _ hlast ih =>
    rw [← List.append_assoc]
    exact ih.step hlast

/-- A scan that gives a result is a run to the end of what is unread. -/
theorem exists_run_of_scan {fuel : Nat} {pending : Text} {machine machine' : Machine}
    (h : scan fuel pending machine = .ok () machine') :
    ∃ opened q, Run ⟨fuel, pending, machine⟩ opened q ∧ q.Ends machine' := by
  induction fuel generalizing pending machine with
  | zero => exact absurd h throw_ne_ok
  | succ fuel ih =>
    rw [scan_succ] at h
    obtain ⟨after, between, hturn, h⟩ := bind_eq_ok_iff.mp h
    -- A turn ends the scan, goes on with a text, or reads a tag before it goes on.
    cases after with
    | finished =>
      obtain ⟨_, rfl⟩ := EStateM.Result.ok.inj h
      exact ⟨[], _, .refl _, fuel, rfl, hturn⟩
    | text pending' =>
      obtain ⟨opened, q, hrun, hends⟩ := ih h
      exact ⟨_, q, .of_step (.text hturn) hrun, hends⟩
    | tag raw =>
      obtain ⟨_, behind, hread, h⟩ := bind_eq_ok_iff.mp h
      obtain ⟨opened, q, hrun, hends⟩ := ih h
      exact ⟨_, q, .of_step (.tag hturn hread) hrun, hends⟩

/-- A scan that is at its end gives its machine. -/
theorem Pause.Ends.run_eq {machine : Machine} (h : p.Ends machine) : p.run = .ok () machine := by
  obtain ⟨fuel, hfuel, hturn⟩ := h
  unfold Pause.run
  rw [hfuel, scan_succ, bind_of_ok hturn]
  rfl

/-- Scanning gives a result just if a run comes to the end of what is unread. -/
theorem scan_eq_ok_iff {fuel : Nat} {pending : Text} {machine machine' : Machine} :
    scan fuel pending machine = .ok () machine' ↔
      ∃ opened q, Run ⟨fuel, pending, machine⟩ opened q ∧ q.Ends machine' := by
  constructor
  · exact exists_run_of_scan
  · rintro ⟨opened, q, hrun, hends⟩
    exact hrun.run_eq.trans hends.run_eq

/-- **A step adds the tag that it opens to the listing.** -/
theorem Step.listing_eq (h : Step p t q) :
    q.machine.listing = p.machine.listing ++ t.toList := by
  cases h with
  | text hturn =>
    have hsame : SameListing _ _ := (within_turn _).of_ok hturn
    exact hsame.trans (List.append_nil _).symm
  | tag hturn hread =>
    have hsame : SameListing _ _ := (within_turn _).of_ok hturn
    exact (listing_of_readTag hread).trans (congrArg (· ++ _) hsame)

/-- **A run adds the tags that it opens to the listing**, in the order in which it opens them. -/
theorem Run.listing_eq (h : Run p opened q) :
    q.machine.listing = p.machine.listing ++ opened := by
  induction h with
  | refl => exact (List.append_nil _).symm
  | step _ hstep ih => rw [hstep.listing_eq, ih, List.append_assoc]

/-! ## Documents -/

namespace Engine

variable {fuel : Nat} {machine machine' : Machine} {nodes nodes' : List Node}

theorem parents_of_checkClosed (h : checkClosed machine = .ok () machine') :
    machine'.parser.parents = [] := by
  unfold checkClosed at h
  have hname : parentName machine =
      .ok (machine.parser.parents.head?.map fun n => n.tag.name) machine := rfl
  rw [bind_of_ok hname] at h
  cases hparents : machine.parser.parents with
  | nil =>
    rw [hparents] at h
    obtain ⟨_, rfl⟩ := EStateM.Result.ok.inj h
    exact hparents
  | cons parent outer =>
    rw [hparents] at h
    exact absurd h throw_ne_ok

theorem parents_of_finished {pending : Text}
    (h : turn fuel pending machine = .ok .finished machine') : machine'.parser.parents = [] := by
  unfold turn at h
  rw [bind_of_ok (markers_eq machine)] at h
  obtain ⟨c, machine₁, _, h⟩ := bind_eq_ok_iff.mp h
  cases c with
  | none =>
    obtain ⟨_, machine₂, _, h⟩ := bind_eq_ok_iff.mp h
    obtain ⟨_, machine₃, hclosed, h⟩ := bind_eq_ok_iff.mp h
    obtain ⟨_, rfl⟩ := EStateM.Result.ok.inj h
    exact parents_of_checkClosed hclosed
  | some c =>
    -- All other turns end with text or a tag.
    dsimp only at h
    split at h
    · obtain ⟨_, _, _, h⟩ := bind_eq_ok_iff.mp h
      obtain ⟨_, _, _, h⟩ := bind_eq_ok_iff.mp h
      obtain ⟨_, _, _, h⟩ := bind_eq_ok_iff.mp h
      cases h
    · split at h
      · obtain ⟨_, _, _, h⟩ := bind_eq_ok_iff.mp h
        split at h
        · obtain ⟨_, _, _, h⟩ := bind_eq_ok_iff.mp h
          cases h
        · obtain ⟨_, _, _, h⟩ := bind_eq_ok_iff.mp h
          obtain ⟨_, _, _, h⟩ := bind_eq_ok_iff.mp h
          cases h
      · cases h

/-! ### Listeners -/

/-- A hook that is hung on nodes leaves their tags alone. -/
theorem tags_attachHook (hook : Hook Node) (ids : List Text) (nodes : List Node) :
    Node.tags (attachHook hook ids nodes) = Node.tags nodes := by
  have hhooked : ∀ n : Node, Node.tags [(n.addHook? hook).getD n] = Node.tags [n] := by
    intro n
    cases h : n.addHook? hook with
    | none => rfl
    | some hooked =>
      obtain ⟨w, rfl⟩ := Node.eq_of_addHook? h
      exact Node.tags_withWidget n w
  unfold attachHook
  induction ids generalizing nodes with
  | nil => rfl
  | cons id ids ih => exact (ih _).trans (Node.tags_update hhooked nodes)

/-- A listener leaves the tags of the nodes alone. -/
theorem tags_of_notifyOne {l l' : Listener} {answer : Answer}
    (h : notifyOne l nodes machine = .ok (l', answer, nodes') machine') :
    Node.tags nodes' = Node.tags nodes := by
  cases l with
  | host host =>
    obtain ⟨_, machine₁, _, h⟩ := bind_eq_ok_iff.mp h
    obtain ⟨heq, _⟩ := EStateM.Result.ok.inj h
    rw [(Prod.mk.inj (Prod.mk.inj heq).2).2]
  | attach ids hook keep =>
    obtain ⟨heq, _⟩ := EStateM.Result.ok.inj h
    rw [← (Prod.mk.inj (Prod.mk.inj heq).2).2, tags_attachHook]

theorem tags_of_notifyEach {listeners kept : List Listener} {failure : Option Fault}
    (h : notifyEach listeners nodes machine = .ok (kept, failure, nodes') machine') :
    Node.tags nodes' = Node.tags nodes := by
  induction listeners generalizing nodes nodes' machine machine' kept failure with
  | nil =>
    obtain ⟨heq, _⟩ := EStateM.Result.ok.inj h
    rw [(Prod.mk.inj (Prod.mk.inj heq).2).2]
  | cons l listeners ih =>
    obtain ⟨⟨l', answer, between⟩, machine₁, hone, h⟩ := bind_eq_ok_iff.mp h
    have hbetween := tags_of_notifyOne hone
    cases answer with
    | failed f =>
      obtain ⟨heq, _⟩ := EStateM.Result.ok.inj h
      rw [← (Prod.mk.inj (Prod.mk.inj heq).2).2, hbetween]
    | leave => exact (ih h).trans hbetween
    | keep =>
      obtain ⟨⟨kept', failure', behind⟩, machine₂, hrest, h⟩ := bind_eq_ok_iff.mp h
      obtain ⟨heq, _⟩ := EStateM.Result.ok.inj h
      rw [← (Prod.mk.inj (Prod.mk.inj heq).2).2, ih hrest, hbetween]

/-- Listeners may hang hooks on nodes, but take none away and add none. -/
theorem tags_of_notify {phase : Phase} (h : notify phase nodes machine = .ok nodes' machine') :
    Node.tags nodes' = Node.tags nodes := by
  unfold notify at h
  rw [bind_of_ok (parser_eq machine), bind_of_ok (modifyParser_eq _ machine)] at h
  obtain ⟨⟨kept, failure, behind⟩, machine₁, heach, h⟩ := bind_eq_ok_iff.mp h
  have hbehind := tags_of_notifyEach heach
  dsimp only at h
  rw [bind_of_ok (modifyParser_eq _ machine₁)] at h
  cases failure with
  | some f => exact absurd h throw_ne_ok
  | none =>
    obtain ⟨rfl, _⟩ := EStateM.Result.ok.inj h
    exact hbehind

theorem sameListing_notifyOne (l : Listener) (nodes : List Node) :
    Within SameListing (notifyOne l nodes) := by
  cases l with
  | attach ids hook keep => exact within_pure _
  | host host => exact (within_notifyHost host nodes).bind fun _ => within_pure _

theorem sameListing_notifyEach (listeners : List Listener) (nodes : List Node) :
    Within SameListing (notifyEach listeners nodes) := by
  induction listeners generalizing nodes with
  | nil => exact within_pure _
  | cons l listeners ih =>
    refine (sameListing_notifyOne l nodes).bind fun outcome => ?_
    obtain ⟨l, answer, nodes⟩ := outcome
    cases answer with
    | failed f => exact within_pure _
    | leave => exact ih nodes
    | keep => exact (ih nodes).bind fun _ => within_pure _

theorem sameListing_notify (phase : Phase) (nodes : List Node) :
    Within SameListing (notify phase nodes) := by
  refine within_currentParser.bind fun p => ?_
  refine (within_setListeners fun _ => (phase, [])).bind fun _ => ?_
  refine (sameListing_notifyEach _ nodes).bind fun outcome => ?_
  refine (within_setListeners fun p => (phase, outcome.1 ++ p.listeners phase)).bind
    fun _ => ?_
  cases outcome.2.1 with
  | none => exact within_pure _
  | some f => exact within_fail f

/-! ### Parses

A parse has listeners in front of it and behind it, and the run of the scanner in between. -/

/-- Whether scanning from a machine comes to the end of what is unread and opens these tags on the
way. -/
def Opens (fuel : Nat) (start : Machine) (opened : List Tag) : Prop :=
  ∃ last behind, Run ⟨fuel, [], start⟩ opened last ∧ last.Ends behind

/-- At the end all tags of the listing are in the roots. -/
theorem tags_of_ends {last : Pause} (h : last.Ends machine) :
    Node.tags machine.parser.roots = last.machine.listing := by
  obtain ⟨more, _, hturn⟩ := h
  have hsame : SameListing last.machine machine := (within_turn _).of_ok hturn
  have hlisting : machine.listing = Node.tags machine.parser.roots := by
    unfold Machine.listing
    rw [parents_of_finished hturn, List.reverse_nil, List.append_nil]
  exact hlisting.symm.trans hsame

/-- If there are none before, the tags of the roots are those that were opened. -/
theorem opens_of_scan {start : Machine} (hstart : start.listing = [])
    (h : scan fuel [] start = .ok () machine) :
    Opens fuel start (Node.tags machine.parser.roots) := by
  obtain ⟨opened, last, hrun, hends⟩ := scan_eq_ok_iff.mp h
  have hopened : Node.tags machine.parser.roots = opened := by
    rw [tags_of_ends hends, hrun.listing_eq, hstart, List.nil_append]
  rw [hopened]
  exact ⟨last, machine, hrun, hends⟩

theorem ok_of_locating {x : Engine Unit} {u : Unit} (h : locating x machine = .ok u machine') :
    x machine = .ok u machine' := by
  rw [locating_eq_recast, recast_eq_ok_iff] at h
  exact h

theorem tags_of_finishParse {document : Document}
    (h : finishParse machine = .ok document machine') :
    Node.tags document.nodes = Node.tags machine.parser.roots := by
  unfold finishParse at h
  rw [bind_of_ok (parser_eq machine), bind_of_ok (modifyParser_eq _ machine)] at h
  obtain ⟨nodes, machine₁, hnotify, h⟩ := bind_eq_ok_iff.mp h
  obtain ⟨rfl, _⟩ := EStateM.Result.ok.inj h
  exact tags_of_notify hnotify

variable {template name : Text} {document : Document}

/-- A document holds the tags that were opened while it was read. -/
theorem opens_of_parse (hrest : machine.parser.atRest = machine.parser)
    (h : parse fuel template name machine = .ok document machine') :
    ∃ start, startParse template name machine = .ok () start ∧
      Opens fuel start (Node.tags document.nodes) := by
  rw [parse_eq] at h
  cases hread : readDocument fuel template name machine with
  | error stop machine₁ =>
    rw [hread] at h
    cases h
  | ok read machine₁ =>
    rw [hread] at h
    obtain ⟨rfl, _⟩ := EStateM.Result.ok.inj h
    rw [readDocument_eq] at hread
    obtain ⟨_, start, hstart, hread⟩ := bind_eq_ok_iff.mp hread
    obtain ⟨_, scanned, hscan, hread⟩ := bind_eq_ok_iff.mp hread
    have hwithin : Within SameListing (startParse template name) :=
      (sameListing_notify _ _).bind fun _ => within_append _ _
    -- A parser at rest has opened nothing yet, and listeners in front open nothing either.
    have hempty : start.listing = [] := by
      have hsame : SameListing machine start := hwithin.of_ok hstart
      rw [hsame, Machine.listing, ← hrest]
      rfl
    refine ⟨start, hstart, ?_⟩
    rw [tags_of_finishParse hread]
    exact opens_of_scan hempty (ok_of_locating hscan)

theorem opens_of_fragment (h : fragment fuel template name machine = .ok document machine') :
    Opens fuel (machine.apart template name) (Node.tags document.nodes) := by
  rw [fragment, apart_eq] at h
  cases hread : locating (scan fuel []) (machine.apart template name) with
  | error stop inside =>
    rw [hread] at h
    cases h
  | ok u inside =>
    rw [hread] at h
    obtain ⟨rfl, _⟩ := EStateM.Result.ok.inj h
    exact opens_of_scan rfl (ok_of_locating hread)

/-- **No tag is lost, doubled or moved.** Between any two steps of the scanner the listing is the
tags that were there before the run and then those that the run has opened, in order; and a
document, or what is read apart, holds the tags that were opened while it was read.

What this takes from hosts is said in `hosts_courteous` and enters by four lemmas: their tags make
nodes without children and their finished nodes go where they should (`within_makeNode`,
`within_finish`), their macros add no tag but by reading templates (`keeps_runHostMacro`), and their
listeners leave the tree as it is (`within_notifyHost`). A host that edited the tree by itself would
not be one of these. -/
theorem tags_in_order :
    (∀ {p q : Pause} {opened : List Tag}, Run p opened q →
      q.machine.listing = p.machine.listing ++ opened) ∧
    (∀ {fuel : Nat} {template name : Text} {machine machine' : Machine} {document : Document},
      machine.parser.atRest = machine.parser →
      parse fuel template name machine = .ok document machine' →
        ∃ start, startParse template name machine = .ok () start ∧
          Opens fuel start (Node.tags document.nodes)) ∧
    (∀ {fuel : Nat} {template name : Text} {machine machine' : Machine} {document : Document},
      fragment fuel template name machine = .ok document machine' →
        Opens fuel (machine.apart template name) (Node.tags document.nodes)) :=
  ⟨Run.listing_eq, opens_of_parse, opens_of_fragment⟩

/-- Two roots, and a tag in the first one that comes out of a macro. -/
def familyTemplate : Text := "<element><:if test=true><br/></:if></element><br/>".toList

/-- A machine that takes in tags of unknown names. -/
def lenientMachine : Machine := { parser := { settings := { strict := false } } }

/-- The names of the tags of a document. -/
def tagNames? : EStateM.Result Stop Machine Document → Option (List Text)
  | .ok document _ => some ((Node.tags document.nodes).map Tag.name)
  | .error .. => none

/-- A parse whose tags have names has given a document. -/
theorem exists_of_tagNames? {outcome : EStateM.Result Stop Machine Document} {names : List Text}
    (h : tagNames? outcome = some names) : ∃ document machine, outcome = .ok document machine ∧
      (Node.tags document.nodes).map Tag.name = names := by
  unfold tagNames? at h
  split at h
  · next document machine => exact ⟨document, machine, rfl, Option.some.inj h⟩
  · cases h

/-- The tag out of the macro is where the macro stood, in front of the second root. -/
theorem tags_in_order_familyTemplate : ∃ document machine start last,
    parse 60 familyTemplate defaultTitle lenientMachine = .ok document machine ∧
      (Node.tags document.nodes).map Tag.name =
        ["element".toList, "br".toList, "br".toList] ∧
      Run ⟨60, [], start⟩ (Node.tags document.nodes) last ∧
      last.machine.listing = start.listing ++ Node.tags document.nodes := by
  obtain ⟨document, machine, hparse, hnames⟩ := exists_of_tagNames?
    (show tagNames? (parse 60 familyTemplate defaultTitle lenientMachine) =
      some ["element".toList, "br".toList, "br".toList] by decide +kernel)
  obtain ⟨start, _, last, _, hrun, _⟩ := tags_in_order.2.1 rfl hparse
  exact ⟨document, machine, start, last, hparse, hnames, hrun, tags_in_order.1 hrun⟩

end Engine

end MarkupTemplate
