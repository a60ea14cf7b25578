import MarkupTemplate.Proofs.Repetition.Combinations
import MarkupTemplate.Proofs.Resolution.Decisions

/-!
# Loops as long as a condition holds

Such a loop evaluates its condition again and again, and what the condition comes to depends on what
the host answers, and that on what it was asked before. So the condition has a sequence of outcomes,
each from the machine that the evaluation in front of it left (`Evaluated`).

The step of the loop is `countHolding`: it stops at the limit, or else evaluates once. The run lemma
takes all evaluations together in which the condition holds (`countHolding_of_evaluated`, by
induction on how many these are). What comes behind them is the limit, an evaluation that does not
hold or one that fails, and `runWhileLoop_evaluations` says what the loop does then. It evaluates as
often as it takes to see this, and not once more: the machine behind the loop is the one behind the
last of these evaluations, but for what the loop appended.

Without a limit a loop need not end, and nothing is said of one whose condition never stops to hold.
Fuel enters twice, for the evaluations and for the count. Both are taken large enough, which is no
loss, since more of it changes no outcome (`Steady`).
-/

set_option autoImplicit false

namespace MarkupTemplate

/-! ## Iterations

The bodies of this loop have the count in them and no elements. -/

namespace Repetition

theorem unrolled_replicate (m : Markers) (t : Tag) (n : Nat) :
    unrolled m t (List.replicate n []) = (List.range n).flatMap (iteration m t []) := by
  rw [unrolled_eq, List.length_replicate]
  refine List.flatMap_congr fun k hk => ?_
  rw [List.getElem?_replicate_of_lt (List.mem_range.mp hk)]
  rfl

end Repetition

namespace Engine

open Repetition

/-! ## Evaluations

One evaluation goes on with the machine that the one in front of it left. -/

/-- Whether evaluating a condition so many times, one evaluation behind another, has the given
outcomes and leaves a machine. -/
inductive Evaluated (condition : Text) (outcome : Nat → Bool) (start : Machine) :
    Nat → Machine → Prop
  | zero : Evaluated condition outcome start 0 start
  | succ {n : Nat} {between behind : Machine} (fuel : Nat) :
      Evaluated condition outcome start n between →
        holds fuel condition between = .ok (outcome n) behind →
        Evaluated condition outcome start (n + 1) behind

/-- Whether a limit, if there is one, is larger than a count. -/
def Allows (limit : Option Nat) (count : Nat) : Prop := ∀ l ∈ limit, count < l

/-- A number, but at most the limit. -/
def capped (limit : Option Nat) (n : Nat) : Nat := limit.elim n (min n)

section

variable {condition : Text} {outcome : Nat → Bool} {limit : Option Nat} {start between : Machine}
  {k n : Nat}

/-- Evaluating a condition does not touch the parser, so what is unread waits for the loop. -/
theorem Evaluated.sameParser (h : Evaluated condition outcome start n between) :
    SameParser start between := by
  induction h with
  | zero => rfl
  | succ fuel _ hholds ih =>
    have hsame : SameParser _ _ := (within_holds condition).of_ok hholds
    exact hsame.trans ih

/-! ## Counting

The count goes on by one for each evaluation that holds, and ends in one of three ways. -/

theorem countHolding_of_limit {evaluate : Engine Bool} (h : k ∈ limit) (fuel : Nat)
    (machine : Machine) : countHolding evaluate limit (fuel + 1) k machine = .ok k machine := by
  obtain rfl := Option.mem_def.mp h
  rw [countHolding, if_pos (by simp)]
  rfl

/-- Below the limit there is one evaluation, and the count goes on behind it just if that holds. -/
theorem countHolding_of_allows {evaluate : Engine Bool} (h : Allows limit k) (fuel : Nat) :
    countHolding evaluate limit (fuel + 1) k =
      evaluate >>= fun b => if b then countHolding evaluate limit fuel (k + 1) else pure k := by
  rw [countHolding, if_neg]
  rw [Option.any_eq_true]
  rintro ⟨l, hl, hle⟩
  exact absurd (of_decide_eq_true hle) (Nat.not_le.mpr (h l hl))

/-- **The evaluations in which the condition holds** take the count on by one each. -/
theorem countHolding_of_evaluated (h : Evaluated condition outcome start n between)
    (htrue : ∀ i < n, outcome i = true) (hallows : ∀ i < n, Allows limit i) :
    ∃ least, ∀ fuel, least ≤ fuel → ∀ more,
      countHolding (holds fuel condition) limit (more + n) 0 start =
        countHolding (holds fuel condition) limit more n between := by
  induction h with
  | zero => exact ⟨0, fun fuel _ more => rfl⟩
  | @succ n between behind enough _ hholds ih =>
    obtain ⟨least, ih⟩ := ih (fun i hi => htrue i (Nat.lt_succ_of_lt hi))
      fun i hi => hallows i (Nat.lt_succ_of_lt hi)
    rw [htrue n (Nat.lt_succ_self n)] at hholds
    refine ⟨max least enough, fun fuel hfuel more => ?_⟩
    have hholds' : holds fuel condition between = .ok true behind :=
      (steady_holds condition between).ok ((Nat.le_max_right _ _).trans hfuel) hholds
    -- The rounds so far have used up one unit of fuel each, and the last of them is one more.
    calc countHolding (holds fuel condition) limit (more + (n + 1)) 0 start
        = countHolding (holds fuel condition) limit (more + 1 + n) 0 start := by
          rw [Nat.add_right_comm, Nat.add_assoc]
      _ = countHolding (holds fuel condition) limit (more + 1) n between :=
          ih fuel ((Nat.le_max_left _ _).trans hfuel) (more + 1)
      _ = countHolding (holds fuel condition) limit more (n + 1) behind := by
          rw [countHolding_of_allows (hallows n (Nat.lt_succ_self n)), bind_of_ok hholds', if_pos rfl]

/-- What comes behind these evaluations decides what the count is. -/
theorem countHolding_behind (h : Evaluated condition outcome start n between)
    (htrue : ∀ i < n, outcome i = true) (hallows : ∀ i < n, Allows limit i) :
    ∃ least, ∀ fuel, least ≤ fuel → ∃ more,
      countHolding (holds fuel condition) limit fuel 0 start =
        countHolding (holds fuel condition) limit (more + 1) n between := by
  obtain ⟨least, hcount⟩ := countHolding_of_evaluated h htrue hallows
  refine ⟨max least (n + 1), fun fuel hfuel => ⟨fuel - (n + 1), ?_⟩⟩
  rw [← hcount fuel ((Nat.le_max_left _ _).trans hfuel), Nat.add_assoc, Nat.add_comm 1 n,
    Nat.sub_add_cancel ((Nat.le_max_right _ _).trans hfuel)]

/-- **The count stops** at the first evaluation that does not hold, or at the limit. -/
theorem countHolding_stops (htrue : ∀ i < k, outcome i = true)
    (hstop : outcome k = false ∨ ∃ l ∈ limit, l ≤ k)
    (h : Evaluated condition outcome start (capped limit (k + 1)) between) :
    ∃ least, ∀ fuel, least ≤ fuel → countHolding (holds fuel condition) limit fuel 0 start =
      .ok (capped limit k) between := by
  -- Either the limit was reached, without an evaluation at it, or the last evaluation did not
  -- hold.
  by_cases hlimit : ∃ l ∈ limit, l ≤ k
  · obtain ⟨l, hl, hle⟩ := hlimit
    obtain rfl := Option.mem_def.mp hl
    have hcapped : capped (some l) k = l := Nat.min_eq_right hle
    rw [show capped (some l) (k + 1) = l from Nat.min_eq_right (Nat.le_succ_of_le hle)] at h
    have hallows : ∀ i < l, Allows (some l) i := fun i hi => by simpa [Allows] using hi
    obtain ⟨least, hcount⟩ := countHolding_behind h
      (fun i hi => htrue i (Nat.lt_of_lt_of_le hi hle)) hallows
    refine ⟨least, fun fuel hfuel => ?_⟩
    obtain ⟨more, hcount⟩ := hcount fuel hfuel
    rw [hcount, countHolding_of_limit hl, hcapped]
  · have hallows : Allows limit k := fun l hl => Nat.lt_of_not_le fun hle => hlimit ⟨l, hl, hle⟩
    have hfalse : outcome k = false := hstop.resolve_right hlimit
    have hcapped : capped limit k = k ∧ capped limit (k + 1) = k + 1 := by
      cases limit with
      | none => exact ⟨rfl, rfl⟩
      | some l =>
        have hlt := hallows l rfl
        exact ⟨Nat.min_eq_left (Nat.le_of_lt hlt), Nat.min_eq_left hlt⟩
    rw [hcapped.2] at h
    obtain - | @⟨_, before, _, enough, hbefore, hholds⟩ := h
    rw [hfalse] at hholds
    obtain ⟨least, hcount⟩ := countHolding_behind hbefore htrue
      fun i hi l hl => hi.trans (hallows l hl)
    refine ⟨max least enough, fun fuel hfuel => ?_⟩
    obtain ⟨more, hcount⟩ := hcount fuel ((Nat.le_max_left _ _).trans hfuel)
    have hholds' : holds fuel condition before = .ok false between :=
      (steady_holds condition before).ok ((Nat.le_max_right _ _).trans hfuel) hholds
    rw [hcount, countHolding_of_allows hallows, bind_of_ok hholds', hcapped.1]
    rfl

/-- **The count fails** as the first evaluation does that fails, if the limit allows it. -/
theorem countHolding_fails (htrue : ∀ i < k, outcome i = true) (hallows : Allows limit k)
    (h : Evaluated condition outcome start k between)
    (hfails : ∃ fuel e behind, holds fuel condition between = .error (.failure e) behind) :
    ∃ least, ∀ fuel, least ≤ fuel → ∃ e behind,
      holds fuel condition between = .error (.failure e) behind ∧
      countHolding (holds fuel condition) limit fuel 0 start = .error (.failure e) behind := by
  obtain ⟨enough, e, behind, hfails⟩ := hfails
  obtain ⟨least, hcount⟩ := countHolding_behind h htrue fun i hi l hl => hi.trans (hallows l hl)
  refine ⟨max least enough, fun fuel hfuel => ?_⟩
  obtain ⟨more, hcount⟩ := hcount fuel ((Nat.le_max_left _ _).trans hfuel)
  -- With more fuel the evaluation still fails, if with another error.
  obtain ⟨e', behind', -, hfails'⟩ :=
    (steady_holds condition between).failure ((Nat.le_max_right _ _).trans hfuel) hfails
  refine ⟨e', behind', hfails', ?_⟩
  rw [hcount, countHolding_of_allows hallows, bind_of_error hfails']

/-- What comes to an end, and is followed by what comes to an end, comes to an end. -/
theorem ended_bind {α β : Type} {x : Engine α} {f : α → Engine β} {machine : Machine}
    (hx : Ended (x machine)) (hf : ∀ a behind, x machine = .ok a behind → Ended (f a behind)) :
    Ended ((x >>= f) machine) := by
  cases hrun : x machine with
  | ok a behind =>
    rw [bind_of_ok hrun]
    exact hf a behind hrun
  | error stop behind =>
    rw [bind_of_error hrun]
    cases stop with
    | exhausted => exact absurd hrun (hx behind)
    | overflow => exact ended_overflow
    | failure e => exact ended_failure

theorem ended_countHolding_succ {evaluate : Engine Bool} {machine : Machine} {fuel : Nat}
    (hallows : Allows limit k) (hended : Ended (evaluate machine))
    (hnext : ∀ behind, evaluate machine = .ok true behind →
      Ended (countHolding evaluate limit fuel (k + 1) behind)) :
    Ended (countHolding evaluate limit (fuel + 1) k machine) := by
  rw [countHolding_of_allows hallows]
  refine ended_bind hended fun b behind hevaluate => ?_
  cases b with
  | true => exact hnext behind hevaluate
  | false => exact ended_ok

/-- **The count comes to an end** if there is a limit and each evaluation in front of it comes to
one. The induction is on how far the limit is. -/
theorem ended_countHolding {l : Nat} (hends : ∀ n < l, ∀ between,
      Evaluated condition (fun _ => true) start n between →
      ∃ fuel, Ended (holds fuel condition between)) (left : Nat) :
    ∀ n between, n + left = l → Evaluated condition (fun _ => true) start n between →
      ∃ least, ∀ fuel, least ≤ fuel → ∀ more, least ≤ more →
        Ended (countHolding (holds fuel condition) (some l) more n between) := by
  induction left with
  | zero =>
    rintro n between rfl -
    refine ⟨1, fun fuel _ more hmore => ?_⟩
    obtain ⟨more, rfl⟩ := Nat.exists_eq_add_of_le' hmore
    rw [countHolding_of_limit (Option.mem_def.mpr (congrArg some (Nat.add_zero n)))]
    exact ended_ok
  | succ left ih =>
    intro n between hl h
    have hlt : n < l := by omega
    have hsteady := steady_holds condition between
    obtain ⟨enough, hended⟩ := hends n hlt between h
    -- Enough for all that comes next, if the condition holds; else nothing does.
    obtain ⟨least, hnext⟩ : ∃ least, ∀ behind, holds enough condition between = .ok true behind →
        ∀ fuel, least ≤ fuel → ∀ more, least ≤ more →
          Ended (countHolding (holds fuel condition) (some l) more (n + 1) behind) := by
      by_cases htrue : ∃ behind, holds enough condition between = .ok true behind
      · obtain ⟨behind, htrue⟩ := htrue
        obtain ⟨least, ih⟩ := ih (n + 1) behind (by omega) (h.succ enough htrue)
        refine ⟨least, fun behind' htrue' => ?_⟩
        obtain rfl := (EStateM.Result.ok.inj (htrue.symm.trans htrue')).2
        exact ih
      · exact ⟨0, fun behind hbehind => absurd ⟨behind, hbehind⟩ htrue⟩
    refine ⟨max enough (least + 1), fun fuel hfuel more hmore => ?_⟩
    obtain ⟨more, rfl⟩ : ∃ m, more = m + 1 := Nat.exists_eq_add_of_le' (by omega)
    refine ended_countHolding_succ (by simpa [Allows] using hlt)
      (hsteady.ended (by omega : enough ≤ fuel) hended) fun behind htrue => ?_
    exact hnext behind (hsteady.ok_of_ended htrue hended) fuel (by omega) more (by omega)

end

/-! ## The loop

The loop reads its limit, counts, and appends the bodies for all counts at once. -/

/-- Whether the limit that a tag states, if it does, is read from one machine on to another one. With
a negative one there is no iteration, as with 0. -/
def LimitIs (t : Tag) (machine : Machine) (limit : Option Nat) (start : Machine) : Prop :=
  match t.attributes.get? "limit".toList with
  | none => limit = none ∧ start = machine
  | some raw => ∃ fuel i, int fuel raw machine = .ok i start ∧ limit = some i.toInt.toNat

variable {t : Tag} {machine start : Machine} {limit : Option Nat}

theorem within_int (fuel : Nat) (raw : Text) : Within SameParser (int fuel raw) :=
  Keeps.within fun _ => keeps_int raw

theorem steady_int (raw : Text) (machine : Machine) : Steady fun fuel => int fuel raw machine :=
  fun _ _ hle => (mirrors_int hle raw).extends (within_int _ raw) (within_int _ raw) machine

theorem LimitIs.sameParser (h : LimitIs t machine limit start) : SameParser machine start := by
  unfold LimitIs at h
  split at h
  · exact congrArg Machine.parser h.2
  · next raw _ =>
    obtain ⟨fuel, i, hint, -⟩ := h
    exact (within_int fuel raw).of_ok hint

/-- Behind the limit, the loop counts and then appends. -/
theorem runWhileLoop_of_limitIs (hcondition : Text.isBlankText (conditionOf t) = false)
    (h : LimitIs t machine limit start) : ∃ least, ∀ fuel, least ≤ fuel →
      runWhileLoop fuel t machine = (countHolding (holds fuel (conditionOf t)) limit fuel 0 >>=
        fun count => appendIterations t (List.replicate count [])) start := by
  unfold LimitIs at h
  split at h
  · next hlimit =>
    obtain ⟨rfl, rfl⟩ := h
    refine ⟨0, fun fuel _ => ?_⟩
    rw [runWhileLoop, hlimit]
    dsimp only
    rw [if_neg (by simp [hcondition])]
    rfl
  · next raw hlimit =>
    obtain ⟨least, i, hint, rfl⟩ := h
    refine ⟨least, fun fuel hfuel => ?_⟩
    -- The limit is the number that its text is read as.
    have hread : (some <$> (fun i : Int64 => i.toInt.toNat) <$> int fuel raw) machine =
        .ok (some i.toInt.toNat) start := by
      rw [map_eq_pure_bind, map_eq_pure_bind, bind_assoc,
        bind_of_ok ((steady_int raw machine).ok hfuel hint)]
      rfl
    rw [runWhileLoop, hlimit]
    dsimp only
    rw [if_neg (by simp [hcondition])]
    exact bind_of_ok hread

theorem appendIterations_replicate (t : Tag) (n : Nat) (machine : Machine) :
    appendIterations t (List.replicate n []) machine =
      .ok () (machine.withReader (machine.parser.reader.append
        ((List.range n).flatMap (iteration machine.parser.settings.markers t []))
        (machine.parser.settings.markers.macroTitle t.name))) := by
  rw [← unrolled_replicate]
  rfl

/-- **A loop as long as its condition holds.** Let `k` be the first index at which the condition
does not hold, or one that the limit does not allow. If no evaluation in front of it fails, the loop
ends behind `k` iterations, or as many as the limit allows; the condition has been evaluated `k + 1`
times then, or as often as the limit allows, and the bodies for the counts from 0 on are appended.
If an evaluation fails that the limit allows, the loop fails as it does and appends nothing. With a
limit the loop always comes to an end, if the evaluations do. A tag without a condition evaluates and
appends nothing. -/
theorem runWhileLoop_evaluations (t : Tag) (machine : Machine) :
    (Text.isBlankText (conditionOf t) = true → ∀ fuel,
      (machine.parser.settings.strict = false → runWhileLoop fuel t machine = .ok () machine) ∧
      (machine.parser.settings.strict = true → runWhileLoop fuel t machine = .error (.failure
        { fault := .invalidAttributes t.name "missing condition".toList }) machine)) ∧
    (Text.isBlankText (conditionOf t) = false →
      ∀ limit start, LimitIs t machine limit start →
        (∀ (k : Nat) (outcome : Nat → Bool) (behind : Machine), (∀ i < k, outcome i = true) →
          (outcome k = false ∨ ∃ l ∈ limit, l ≤ k) →
          Evaluated (conditionOf t) outcome start (capped limit (k + 1)) behind →
          ∃ least, ∀ fuel, least ≤ fuel → runWhileLoop fuel t machine =
            .ok () (behind.withReader (machine.parser.reader.append
              ((List.range (capped limit k)).flatMap
                (iteration machine.parser.settings.markers t []))
              (machine.parser.settings.markers.macroTitle t.name)))) ∧
        (∀ (k : Nat) (outcome : Nat → Bool) (between : Machine), (∀ i < k, outcome i = true) →
          Allows limit k → Evaluated (conditionOf t) outcome start k between →
          (∃ fuel e behind, holds fuel (conditionOf t) between = .error (.failure e) behind) →
          ∃ least, ∀ fuel, least ≤ fuel → ∃ e behind,
            holds fuel (conditionOf t) between = .error (.failure e) behind ∧
            runWhileLoop fuel t machine = .error (.failure e) behind ∧
            behind.parser = machine.parser) ∧
        (∀ l ∈ limit, (∀ n < l, ∀ between,
            Evaluated (conditionOf t) (fun _ => true) start n between →
            ∃ fuel, Ended (holds fuel (conditionOf t) between)) →
          ∃ least, ∀ fuel, least ≤ fuel → Ended (runWhileLoop fuel t machine))) := by
  refine ⟨fun hblank fuel => ?_, fun hcondition limit start hlimit => ?_⟩
  -- Without a condition the tag is rejected, which only fails strictly.
  · have hreject : runWhileLoop fuel t = rejectAttributes t.name "missing condition" := by
      rw [runWhileLoop, if_pos hblank]
    rw [hreject]
    refine ⟨fun hlax => ?_, fun hstrict => failIfStrict_eq hstrict _⟩
    rw [rejectAttributes, failIfStrict, bind_of_ok (isStrict_eq machine), hlax]
    rfl
  obtain ⟨first, hrun⟩ := runWhileLoop_of_limitIs hcondition hlimit
  refine ⟨fun k outcome behind htrue hstop hevaluated => ?_,
    fun k outcome between htrue hallows hevaluated hfails => ?_, fun l hl hends => ?_⟩
  · obtain ⟨least, hcount⟩ := countHolding_stops htrue hstop hevaluated
    have hparser : behind.parser = machine.parser :=
      hevaluated.sameParser.trans hlimit.sameParser
    refine ⟨max first least, fun fuel hfuel => ?_⟩
    rw [hrun fuel ((Nat.le_max_left _ _).trans hfuel),
      bind_of_ok (hcount fuel ((Nat.le_max_right _ _).trans hfuel)), appendIterations_replicate,
      hparser]
  · obtain ⟨least, hcount⟩ := countHolding_fails htrue hallows hevaluated hfails
    refine ⟨max first least, fun fuel hfuel => ?_⟩
    obtain ⟨e, behind, hholds, hfails⟩ := hcount fuel ((Nat.le_max_right _ _).trans hfuel)
    have hsame : SameParser between behind := (within_holds _).of_error hholds
    refine ⟨e, behind, hholds, ?_,
      hsame.trans (hevaluated.sameParser.trans hlimit.sameParser)⟩
    rw [hrun fuel ((Nat.le_max_left _ _).trans hfuel), bind_of_error hfails]
  · obtain rfl := Option.mem_def.mp hl
    obtain ⟨least, hcount⟩ := ended_countHolding hends l 0 start (Nat.zero_add l) .zero
    refine ⟨max first least, fun fuel hfuel => ?_⟩
    rw [hrun fuel ((Nat.le_max_left _ _).trans hfuel)]
    exact ended_bind (hcount fuel ((Nat.le_max_right _ _).trans hfuel) fuel
      ((Nat.le_max_right _ _).trans hfuel)) fun _ _ _ => ended_ok

/-- A machine with an action that answers how often it was called. -/
def countingMachine : Machine where
  registry := Registry.standard.registerAction "next".toList
    { title := "next".toList, reply := fun calls _ => .ok (.int (Int64.ofNat calls)) }

def countingTag : Tag :=
  { name := "while".toList
    attributes := .named [("test".toList, "$next < 3".toList)]
    body := some "w\x7bwhile:index\x7d".toList }

/-- A condition that holds for three calls of its action: it is evaluated four times, and the body
is appended for the counts 0, 1 and 2. -/
theorem runWhileLoop_countingTag :
    Text.isBlankText (conditionOf countingTag) = false ∧
    LimitIs countingTag countingMachine none countingMachine ∧
    ∃ behind, Evaluated (conditionOf countingTag) (fun i => i < 3) countingMachine 4 behind ∧
      calledActions behind = List.replicate 4 "next".toList ∧
      ∃ least, ∀ fuel, least ≤ fuel → runWhileLoop fuel countingTag countingMachine =
        .ok () (behind.withReader (Reader.append {} "w0w1w2".toList
          (({} : Markers).macroTitle countingTag.name))) := by
  have hcondition : Text.isBlankText (conditionOf countingTag) = false := by decide
  have hlimit : LimitIs countingTag countingMachine none countingMachine := ⟨rfl, rfl⟩
  let first := holds 1 "$next < 3".toList countingMachine
  have hfirst : first = .ok true (behind first) := eq_of_answer? (by decide +kernel)
  let second := holds 1 "$next < 3".toList (behind first)
  have hsecond : second = .ok true (behind second) := eq_of_answer? (by decide +kernel)
  let third := holds 1 "$next < 3".toList (behind second)
  have hthird : third = .ok true (behind third) := eq_of_answer? (by decide +kernel)
  let fourth := holds 1 "$next < 3".toList (behind third)
  have hfourth : fourth = .ok false (behind fourth) := eq_of_answer? (by decide +kernel)
  -- Three times the condition held, and the fourth evaluation ends the loop.
  have hevaluated : Evaluated (conditionOf countingTag) (fun i => i < 3) countingMachine 4
      (behind fourth) := (((Evaluated.zero.succ 1 hfirst).succ 1 hsecond).succ 1 hthird).succ 1 hfourth
  obtain ⟨-, hloop⟩ := runWhileLoop_evaluations countingTag countingMachine
  have hbodies : (List.range 3).flatMap (iteration {} countingTag []) = "w0w1w2".toList := by
    decide +kernel
  refine ⟨hcondition, hlimit, behind fourth, hevaluated, by decide +kernel, ?_⟩
  rw [← hbodies]
  exact (hloop hcondition none countingMachine hlimit).1 3 _ _ (by decide) (.inl rfl) hevaluated

end Engine

end MarkupTemplate
