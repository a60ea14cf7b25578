import Mathlib.Data.Set.Finite.List
import Mathlib.Logic.Relation
import Mathlib.Order.WellFounded
import MarkupTemplate.Proofs.Attribute.Application
import MarkupTemplate.Proofs.Control.Setting
import MarkupTemplate.Proofs.Control.Substitution

/-!
# Chains of applications

Attributes that templates define may stand for each other. An attribute that stands for itself is
refused, whatever its value is. Any longer way back to an attribute is not noticed: where `a` stands
for `b` and `b` for `a`, applying one of them goes on for ever (`not_finishes_circular`).

Nothing else makes an application endless but placeholders that are. An application comes to an end
just if all placeholders are resolved on the way and no chain of applications inside of each other
goes on for ever (`finishes_iff_not_exists_chain`). As there are only finitely many attributes, such
a chain comes to one of them twice (`exists_same_name`), in whatever letter case.

The two directions go differently. An endless chain eats up any amount of fuel, one unit for each
application in it, by induction on the fuel (`not_isChain_of_ended`). The other way round, being
without such chains is being accessible for the relation `Nests` turned round, and by induction on
that an application ends since those inside of it do (`finishes_of_nested`), where the fuel that
each of them needs is put together to one that is enough for all.
-/

set_option autoImplicit false

namespace MarkupTemplate

open Engine Shaping

namespace Application

variable {a b : Application} {fuel : Nat}

/-! ## One application inside of another -/

/-- An application inside of one that ends does so with less fuel. -/
theorem ended_of_nests (h : Ended (a.run (fuel + 1))) (hb : Nests a b) : Ended (b.run fuel) := by
  cases hb with
  | expanded hcomes hother =>
    obtain ⟨hmaker, hpairs, hbefore⟩ := hcomes
    rw [run_template hmaker] at h
    obtain ⟨hexpansion, hall⟩ := ended_continued_iff.mp h
    -- Whatever is applied in front of the nested one came to an end, so this one does.
    have hend := hall _ _ ((steady_expansion _ _ _ _).ok_of_ended hpairs hexpansion)
    rw [applyEach_append] at hend
    obtain ⟨hfront, hrest⟩ := ended_continued_iff.mp hend
    have hown := hrest _ _ ((steady_applyEach _ _ _).ok_of_ended hbefore hfront)
    rw [applyEach_cons hother] at hown
    exact (ended_continued_iff.mp hown).1
  | handed hmaker htarget hvalue =>
    rw [run_host hmaker, htarget] at h
    obtain ⟨hform, hall⟩ := ended_continued_iff.mp h
    exact hall _ _ ((steady_inForm _ _ _).ok_of_ended hvalue hform)

/-- An application that ends has resolved what it had to resolve for itself. -/
theorem resolves_of_ended (h : Ended (a.run (fuel + 1))) : a.Resolves := by
  unfold Resolves
  split
  · next hmaker =>
    rw [run_template hmaker] at h
    exact ⟨fuel, (ended_continued_iff.mp h).1⟩
  · next hmaker =>
    rw [run_host hmaker] at h
    exact ⟨fuel, (ended_continued_iff.mp h).1⟩
  · trivial

/-- The attributes that one stands for are applied to the end if each of them is. -/
theorem exists_ended_applyEach (name : Text) (pairs : List (Text × Text)) (s : Node × Machine)
    (h : ∀ before key value after n machine fuel, pairs = before ++ (key, value) :: after →
      Text.eqIgnoringCase key name = false →
      applyEach (Shaping.apply fuel) name before s = .ok () (n, machine) →
      (⟨key, value, n, machine⟩ : Application).Finishes) :
    ∃ fuel, Ended (applyEach (Shaping.apply fuel) name pairs s) := by
  induction pairs generalizing s with
  | nil => exact ⟨0, ended_ok⟩
  | cons pair pairs ih =>
    obtain ⟨key, value⟩ := pair
    obtain ⟨n, machine⟩ := s
    cases hself : Text.eqIgnoringCase key name with
    | true =>
      refine ⟨0, ?_⟩
      rw [applyEach_self hself]
      exact ended_failure
    | false =>
      obtain ⟨first, hfirst⟩ := h [] key value pairs n machine 0 rfl hself rfl
      have hended : Ended (Shaping.apply first key value (n, machine)) :=
        hfirst first (Nat.le_refl _)
      cases hrun : Shaping.apply first key value (n, machine) with
      | error stop s' =>
        refine ⟨first, ?_⟩
        rw [hrun] at hended
        rw [applyEach_cons hself, hrun]
        exact hended
      | ok u s' =>
        -- The first one is applied alike with the fuel that the others need.
        obtain ⟨more, hmore⟩ := ih s' fun before key' value' after n' machine' fuel hpairs hother
          hbefore => by
          refine h ((key, value) :: before) key' value' after n' machine' (max first fuel)
            (by rw [hpairs]; rfl) hother ?_
          rw [applyEach_cons hself, (steady_apply key value _).ok (Nat.le_max_left ..) hrun]
          exact (steady_applyEach name before s').ok (Nat.le_max_right ..) hbefore
        refine ⟨max first more, ?_⟩
        rw [applyEach_cons hself, (steady_apply key value _).ok (Nat.le_max_left ..) hrun]
        exact (steady_applyEach name pairs s').ended (Nat.le_max_right ..) hmore

/-- An application comes to an end if those inside of it do. -/
theorem finishes_of_nested (hresolves : a.Resolves) (h : ∀ b, Nests a b → b.Finishes) :
    a.Finishes := by
  rw [finishes_iff_exists]
  unfold Resolves at hresolves
  split at hresolves
  · next d hmaker =>
    obtain ⟨first, hfirst⟩ := hresolves
    have hsteady := steady_expansion d a.name a.value a.machine
    -- A failing expansion ends here; otherwise each attribute in it is nested in this one.
    cases hrun : expansion first d a.name a.value a.machine with
    | error stop machine =>
      refine ⟨first + 1, ?_⟩
      rw [run_template hmaker]
      exact ended_continued_iff.mpr ⟨hfirst, fun _ _ hok => by cases hrun.symm.trans hok⟩
    | ok pairs expanded =>
      have hexpanded := fun fuel => hsteady.ok (Nat.le_max_left first fuel) hrun
      obtain ⟨more, hmore⟩ := exists_ended_applyEach a.name pairs (a.node, expanded)
        fun before key value after n machine fuel hpairs hother hbefore =>
          h _ (.expanded (.intro hmaker (hpairs ▸ hexpanded fuel)
            ((steady_applyEach a.name before _).ok (Nat.le_max_right first fuel) hbefore)) hother)
      refine ⟨max first more + 1, ?_⟩
      rw [run_template hmaker, hexpanded, continued_ok]
      exact (steady_applyEach a.name pairs _).ended (Nat.le_max_right ..) hmore
  · next host hmaker =>
    obtain ⟨first, hfirst⟩ := hresolves
    have hsteady := steady_inForm a.value host.form (a.noted host)
    cases htarget : host.target with
    | none =>
      refine ⟨first + 1, ?_⟩
      rw [run_host hmaker, htarget]
      exact ended_continued_iff.mpr ⟨hfirst, fun _ _ _ => ended_ok⟩
    | some target =>
      cases hrun : inForm first a.value host.form (a.noted host) with
      | error stop machine =>
        refine ⟨first + 1, ?_⟩
        rw [run_host hmaker]
        exact ended_continued_iff.mpr ⟨hfirst, fun _ _ hok => by cases hrun.symm.trans hok⟩
      | ok value machine =>
        obtain ⟨more, hmore⟩ := h _ (.handed hmaker htarget hrun)
        refine ⟨max first more + 1, ?_⟩
        rw [run_host hmaker, htarget, hsteady.ok (Nat.le_max_left first more) hrun, continued_ok]
        exact hmore _ (Nat.le_max_right ..)
  · next htemplate hhost =>
    refine ⟨1, ended_of_maker? ?_ 0⟩
    cases hmaker : a.maker? with
    | none => exact .inl rfl
    | some maker =>
      cases maker with
      | template d => exact absurd hmaker (htemplate d)
      | native maker =>
        cases maker with
        | identity => exact .inr rfl
        | host host => exact absurd hmaker (hhost host)

/-! ## Chains

A chain is a function of all numbers and so has no end. A list would not do, since there is no bound
on how long a way an application may go before it ends. -/

/-- Whether applications are each inside of the one in front. -/
def IsChain (chain : Nat → Application) : Prop := ∀ i, Nests (chain i) (chain (i + 1))

/-- An application that ends is not the start of a chain without one. -/
theorem not_isChain_of_ended {chain : Nat → Application} (h : Ended ((chain 0).run fuel)) :
    ¬IsChain chain := by
  -- Each application in the chain has one unit of fuel less than the one it is inside of.
  induction fuel generalizing chain with
  | zero => exact absurd h (not_ended_zero _)
  | succ fuel ih =>
    intro hchain
    have htail : IsChain fun i => chain (i + 1) := fun i => hchain (i + 1)
    exact ih (ended_of_nests h (hchain 0)) htail

theorem ended_of_reflTransGen (h : Relation.ReflTransGen Nests a b)
    (ha : ∃ fuel, Ended (a.run fuel)) : ∃ fuel, Ended (b.run fuel) := by
  induction h with
  | refl => exact ha
  | tail _ hbc ih =>
    obtain ⟨fuel, hfuel⟩ := ih
    cases fuel with
    | zero => exact absurd hfuel (not_ended_zero _)
    | succ fuel => exact ⟨fuel, ended_of_nests hfuel hbc⟩

/-- **An application comes to an end just if nothing that it leads to is without one**: all
placeholders are resolved, and no chain of applications inside of each other goes on for ever. -/
theorem finishes_iff_not_exists_chain : a.Finishes ↔
    (∀ b, Relation.ReflTransGen Nests a b → b.Resolves) ∧
      ¬∃ chain : Nat → Application, chain 0 = a ∧ IsChain chain := by
  constructor
  · intro h
    rw [finishes_iff_exists] at h
    refine ⟨fun b hb => ?_, ?_⟩
    · obtain ⟨fuel, hfuel⟩ := ended_of_reflTransGen hb h
      cases fuel with
      | zero => exact absurd hfuel (not_ended_zero _)
      | succ fuel => exact resolves_of_ended hfuel
    · rintro ⟨chain, rfl, hchain⟩
      obtain ⟨fuel, hfuel⟩ := h
      exact not_isChain_of_ended hfuel hchain
  · rintro ⟨hresolves, hchain⟩
    -- Without an endless chain from here every way down stops, which is what the induction needs.
    have hacc : Acc (fun b c => Nests c b) a := by
      by_contra hacc
      exact hchain (not_acc_iff_exists_descending_chain.mp hacc)
    clear hchain
    induction hacc with
    | intro a _ ih =>
      exact finishes_of_nested (hresolves a .refl) fun b hb =>
        ih b hb fun c hc => hresolves c (.head hb hc)

end Application

/-! ## Registered names

That a chain comes to an attribute twice takes two things: its names are all registered, and no
application registers another one. The second is a matter of what shaping keeps. -/

namespace Registry

/-- The names under which attributes are registered for any kind. -/
def attributeNames (attributes : Dictionary (Dictionary (Provider AttributeMaker))) : List Text :=
  attributes.entries.flatMap fun ofKind => ofKind.2.entries.map Prod.fst

/-- An attribute that is found is among the registered ones, by its name in lower case. -/
theorem lower_mem_attributeNames {r : Registry} {kind : Option Text} {name : Text}
    {maker : Provider AttributeMaker} (h : r.attributeMaker? kind name = some maker) :
    Text.lower name ∈ attributeNames r.attributes := by
  obtain ⟨k, -, hk⟩ := List.exists_of_findSome?_eq_some h
  obtain ⟨ofKind, hofKind, hmaker⟩ := Option.bind_eq_some_iff.mp hk
  exact List.mem_flatMap.mpr ⟨_, Dictionary.mem_of_lookup hofKind,
    List.mem_map.mpr ⟨_, Dictionary.mem_of_lookup hmaker, rfl⟩⟩

/-- Counting a call of an action changes nothing about attributes. -/
theorem attributes_countCall (r : Registry) (place : ActionPlace) :
    (r.countCall place).attributes = r.attributes := by
  unfold countCall
  dsimp only
  repeat' split
  all_goals rfl

theorem attributes_of_call? {r : Registry} {separator : Char} {name : Text} {argument : Option Text}
    {call : Call} (h : r.call? separator name argument = some call) :
    call.registry.attributes = r.attributes := by
  obtain ⟨place, -, hplace⟩ := Option.bind_eq_some_iff.mp h
  obtain ⟨action, -, rfl⟩ := Option.map_eq_some_iff.mp hplace
  exact attributes_countCall r place

end Registry

/-- Whether certain attributes are registered. -/
def Machine.HasAttributes (attributes : Dictionary (Dictionary (Provider AttributeMaker)))
    (machine : Machine) : Prop := machine.registry.attributes = attributes

instance (attributes : Dictionary (Dictionary (Provider AttributeMaker))) :
    Resolving (Machine.HasAttributes attributes) anyStop where
  fault _ := trivial
  strictFault _ _ _ := trivial
  operators _ := .inr fun _ => trivial
  exhausted := trivial
  notices _ h := h
  call h hcall := ⟨(Registry.attributes_of_call? hcall).trans h, fun _ _ => trivial⟩

namespace Application

variable {a b : Application} {chain : Nat → Application}

theorem isSome_maker?_of_nests (h : Nests a b) : a.maker?.isSome := by
  cases h with
  | expanded hcomes _ =>
    obtain ⟨hmaker, -, -⟩ := hcomes
    rw [hmaker]
    rfl
  | handed hmaker _ _ =>
    rw [hmaker]
    rfl

theorem attributes_of_nests (h : Nests a b) :
    b.machine.registry.attributes = a.machine.registry.attributes := by
  let I := Machine.HasAttributes a.machine.registry.attributes
  -- An application nests in another through a template, or through the value that a host hands on.
  cases h with
  | expanded hcomes _ =>
    obtain ⟨-, hpairs, hbefore⟩ := hcomes
    have hexpanded : I _ := (keeps_expansion (G := anyStop) _ _ _).of_ok rfl hpairs
    have hend : Shaped a.node I _ := (keeps_applyEach (G := anyStop) keeps_apply _ _).of_ok
      (shaped_self hexpanded) hbefore
    exact hend.2
  | @handed host _ _ _ _ _ _ hvalue =>
    have hstart : I (a.noted host) := rfl
    exact (keeps_inForm (G := anyStop) _ _).of_ok hstart hvalue

theorem attributes_of_isChain (h : IsChain chain) (i : Nat) :
    (chain i).machine.registry.attributes = (chain 0).machine.registry.attributes := by
  induction i with
  | zero => rfl
  | succ i ih => exact (attributes_of_nests (h i)).trans ih

/-- A chain that goes on for ever comes to one attribute twice, as only finitely many are
registered. -/
theorem exists_same_name (h : IsChain chain) :
    ∃ i j, i < j ∧ Text.lower (chain i).name = Text.lower (chain j).name := by
  have hmem : ∀ i, Text.lower (chain i).name ∈
      {name | name ∈ Registry.attributeNames (chain 0).machine.registry.attributes} := by
    intro i
    obtain ⟨maker, hmaker⟩ := Option.isSome_iff_exists.mp (isSome_maker?_of_nests (h i))
    rw [← attributes_of_isChain h i]
    exact Registry.lower_mem_attributeNames hmaker
  -- The table of attributes is finite and the same all along, so names have to come again.
  have hrepeat : ¬Function.Injective fun i => Text.lower (chain i).name := fun hinjective =>
    Set.infinite_of_injective_forall_mem hinjective hmem (List.finite_toSet _)
  obtain ⟨i, j, hname, hne⟩ : ∃ i j, Text.lower (chain i).name = Text.lower (chain j).name ∧
      i ≠ j := by
    simpa [Function.Injective] using hrepeat
  rcases Nat.lt_or_gt_of_ne hne with hlt | hgt
  · exact ⟨i, j, hlt, hname⟩
  · exact ⟨j, i, hgt, hname.symm⟩

/-- An application in a chain leads to every later one. -/
theorem transGen_of_isChain (h : IsChain chain) {i j : Nat} (hlt : i < j) :
    Relation.TransGen Nests (chain i) (chain j) := by
  obtain ⟨k, rfl⟩ := Nat.exists_eq_add_of_lt hlt
  induction k with
  | zero => exact .single (h i)
  | succ k ih => exact .tail (ih (by omega)) (h _)

/-- An application in which no attribute leads back to itself comes to an end. -/
theorem finishes_of_acyclic (hresolves : ∀ b, Relation.ReflTransGen Nests a b → b.Resolves)
    (hacyclic : ∀ b c, Relation.ReflTransGen Nests a b → Relation.TransGen Nests b c →
      Text.lower b.name ≠ Text.lower c.name) : a.Finishes := by
  refine finishes_iff_not_exists_chain.mpr ⟨hresolves, ?_⟩
  rintro ⟨chain, rfl, hchain⟩
  -- A chain without an end would come to an attribute twice, and so lead from it back to itself.
  obtain ⟨i, j, hlt, hname⟩ := exists_same_name hchain
  have hreach : Relation.ReflTransGen Nests (chain 0) (chain i) := by
    rcases Nat.eq_zero_or_pos i with rfl | hpos
    · exact .refl
    · exact (transGen_of_isChain hchain hpos).to_reflTransGen
  exact hacyclic _ _ hreach (transGen_of_isChain hchain hlt) hname

/-- An attribute that stands for itself is refused, with every amount of fuel from some least one
on. Those in front of it in the list have been applied by then. -/
theorem run_of_comesTo_self {key value : Text} {n : Node} {machine : Machine}
    (h : a.ComesTo key value n machine) (hself : Text.eqIgnoringCase key a.name = true) :
    ∃ least, ∀ fuel, least ≤ fuel →
      ∃ s, a.run fuel = .error (.failure { fault := selfExpansion a.name }) s := by
  obtain @⟨d, enough, before, after, expanded, hmaker, hpairs, hbefore⟩ := h
  refine ⟨enough + 1, fun fuel hfuel => ?_⟩
  obtain ⟨less, rfl⟩ := Nat.exists_eq_add_of_le' (Nat.le_trans (Nat.le_add_left 1 enough) hfuel)
  have hle : enough ≤ less := Nat.le_of_succ_le_succ hfuel
  refine ⟨(n, machine), ?_⟩
  rw [run_template hmaker, (steady_expansion _ _ _ _).ok hle hpairs, continued_ok,
    applyEach_append, (steady_applyEach _ _ _).ok hle hbefore, continued_ok, applyEach_self hself]

/-- **When applying an attribute comes to an end.** It does just if all placeholders that it meets
do and no chain of applications inside of each other goes on for ever. So it does if no attribute
leads back to itself, which is a condition that can be seen from the definitions and that a longer
way round breaks without being noticed. An attribute that stands for itself, alone or among others,
is refused. -/
theorem finishes_iff_and_refuses_self (a : Application) :
    (a.Finishes ↔ (∀ b, Relation.ReflTransGen Nests a b → b.Resolves) ∧
      ¬∃ chain : Nat → Application, chain 0 = a ∧ IsChain chain) ∧
    ((∀ b, Relation.ReflTransGen Nests a b → b.Resolves) →
      (∀ b c, Relation.ReflTransGen Nests a b → Relation.TransGen Nests b c →
        Text.lower b.name ≠ Text.lower c.name) → a.Finishes) ∧
    ∀ key value n machine, a.ComesTo key value n machine →
      Text.eqIgnoringCase key a.name = true →
      ∃ least, ∀ fuel, least ≤ fuel →
        ∃ s, a.run fuel = .error (.failure { fault := selfExpansion a.name }) s :=
  ⟨finishes_iff_not_exists_chain, finishes_of_acyclic, fun _ _ _ _ => run_of_comesTo_self⟩

/-! ## Attributes that always stand for the same one

A template without placeholders expands to the same attribute whatever the value is. This is enough
to build applications with a known way, one that ends and one that goes round. -/

section

variable {d : Definition} {key value : Text} (hm : a.machine.parser.settings.markers = {})
  (hmaker : a.maker? = some (.template d)) (hd : '{' ∉ d.template)
  (hparse : Attributes.parse a.name d.template '=' = .ok (.named [(key, value)]))

include hm hd hparse

theorem expansion_constant (fuel : Nat) :
    expansion (fuel + 1) d a.name a.value a.machine = .ok [(key, value)] a.machine := by
  have htemplate : d.expandAttribute {} a.value = d.template := by
    rw [Definition.expandAttribute]
    simpa only [Markers.substitute_nil, List.append_nil] using Markers.substitute_append hd []
  rw [expansion, bind_of_ok (markers_eq a.machine), hm, htemplate,
    bind_of_ok (expand_of_notMem hm hd fuel), hparse]
  rfl

include hmaker

/-- There is exactly one application inside of one whose attribute always stands for the same
other. -/
theorem nests_constant_iff (hother : Text.eqIgnoringCase key a.name = false) :
    Nests a b ↔ b = ⟨key, value, a.node, a.machine⟩ := by
  have hexpansion := expansion_constant hm hd hparse
  constructor
  · intro h
    cases h with
    | expanded hcomes _ =>
      obtain @⟨d', enough, before, after, expanded, hmaker', hpairs, hbefore⟩ := hcomes
      obtain rfl : d' = d := by simpa using hmaker'.symm.trans hmaker
      have hended : Ended (expansion (enough + 1) d' a.name a.value a.machine) := by
        rw [hexpansion]
        exact ended_ok
      -- The expansion is the same for any fuel that ends it, so it has the one pair.
      have hsame := (steady_expansion _ _ _ _).ok_of_ended hpairs hended
      rw [hexpansion] at hsame
      obtain ⟨hlist, rfl⟩ := EStateM.Result.ok.inj hsame
      cases before with
      | nil =>
        obtain ⟨rfl, rfl⟩ : key = _ ∧ value = _ := by simpa using (List.cons.inj hlist).1
        obtain ⟨-, hstate⟩ := EStateM.Result.ok.inj hbefore
        obtain ⟨rfl, rfl⟩ := Prod.mk.inj hstate
        rfl
      | cons pair before => simp at hlist
    | handed hmaker' _ _ => cases hmaker.symm.trans hmaker'
  · rintro rfl
    exact .expanded (.first hmaker (hexpansion 0)) hother

end

/-- Under the usual markers, a machine with attributes for all kinds that always stand for the same
text. -/
def constants (definitions : List (Text × Text)) : Machine where
  registry := definitions.foldl (fun r definition =>
    r.registerAttribute universalKind definition.1
      (.template ⟨definition.1, [definition.1], definition.2⟩)) .empty

/-- An attribute of a tag without a widget. -/
def ofTag (machine : Machine) (name value : String) : Application :=
  ⟨name.toList, value.toList, { tag := { name := "tag".toList } }, machine⟩

/-- One attribute that stands for another one, and one that stands for itself. -/
def acyclic : Machine := constants [("a".toList, "b=1".toList), ("c".toList, "c=1".toList)]

/-- An attribute that stands for one that nothing is registered for comes to an end, and one that
stands for itself is refused. -/
theorem finishes_iff_and_refuses_self_acyclic : (ofTag acyclic "a" "x").Finishes ∧
    ∃ least, ∀ fuel, least ≤ fuel → ∃ s, (ofTag acyclic "c" "x").run fuel =
      .error (.failure { fault := selfExpansion "c".toList }) s := by
  have hfirst : ∀ b, Nests (ofTag acyclic "a" "x") b ↔ b = ofTag acyclic "b" "1" := fun b =>
    nests_constant_iff rfl rfl (by decide) (by rfl) (by decide)
  have hlast : ∀ b, ¬Nests (ofTag acyclic "b" "1") b := fun b h =>
    absurd (isSome_maker?_of_nests h) (by decide)
  have hreach : ∀ b, Relation.ReflTransGen Nests (ofTag acyclic "a" "x") b →
      b = ofTag acyclic "a" "x" ∨ b = ofTag acyclic "b" "1" := by
    intro b h
    rcases h.cases_head with rfl | ⟨c, hc, hrest⟩
    · exact .inl rfl
    · obtain rfl := (hfirst c).mp hc
      rcases hrest.cases_head with rfl | ⟨d, hd, -⟩
      · exact .inr rfl
      · exact absurd hd (hlast d)
  refine ⟨(finishes_iff_and_refuses_self _).2.1 (fun b hb => ?_) fun b c hb hc => ?_, ?_⟩
  · rcases hreach b hb with rfl | rfl
    · exact ⟨1, by rw [expansion_constant rfl (by decide) (by rfl)]; exact ended_ok⟩
    · trivial
  · rcases hreach b hb with rfl | rfl
    · obtain ⟨d, hd, hrest⟩ := Relation.TransGen.head'_iff.mp hc
      obtain rfl := (hfirst d).mp hd
      rcases hrest.cases_head with rfl | ⟨e, he, -⟩
      · decide
      · exact absurd he (hlast e)
    · obtain ⟨d, hd, -⟩ := Relation.TransGen.head'_iff.mp hc
      exact absurd hd (hlast d)
  · exact (finishes_iff_and_refuses_self (ofTag acyclic "c" "x")).2.2 "c".toList "1".toList _ _
      (.first rfl (expansion_constant rfl (by decide) (by rfl) 0)) (by decide)

/-- Two attributes that stand for each other. -/
def circular : Machine := constants [("a".toList, "b=1".toList), ("b".toList, "a=1".toList)]

/-- **Attributes that stand for each other are applied for ever.** The refusal of an attribute that
stands for itself only compares the two names at one step, and here they differ at every step. -/
theorem not_finishes_circular : ¬(ofTag circular "a" "1").Finishes := by
  have hthere : Nests (ofTag circular "a" "1") (ofTag circular "b" "1") :=
    (nests_constant_iff rfl rfl (by decide) (by rfl) (by decide)).mpr rfl
  have hback : Nests (ofTag circular "b" "1") (ofTag circular "a" "1") :=
    (nests_constant_iff rfl rfl (by decide) (by rfl) (by decide)).mpr rfl
  -- The chain goes to and fro between the two.
  let chain (i : Nat) : Application := ofTag circular (if i % 2 = 0 then "a" else "b") "1"
  have hchain : IsChain chain := by
    intro i
    rcases Nat.mod_two_eq_zero_or_one i with hi | hi
    · have hnext : (i + 1) % 2 = 1 := by omega
      simpa [chain, hi, hnext] using hthere
    · have hnext : (i + 1) % 2 = 0 := by omega
      simpa [chain, hi, hnext] using hback
  rintro ⟨least, h⟩
  exact not_isChain_of_ended (h least (Nat.le_refl _)) hchain

end Application

end MarkupTemplate
