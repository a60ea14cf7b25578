import MarkupTemplate.Registry.Basic
import Mathlib.Logic.Relation
import Mathlib.Tactic.Tauto

/-!
# Lineages

`walkKinds` keeps the kinds still to be visited in one list, in which a kind may stand many times,
and passes over a kind when it comes to one that was visited. What it computes is the recursive
walk: a kind, then all that its parents lead to, one parent after the other, before anything else is
visited. `DepthFirst` is that walk, as a relation between the kinds visited before, the kinds to go
through, and the kinds found; it says nothing of a list of pending kinds.

`depthFirst_walkKinds` is that the two agree, by induction along `walkKinds`. There the parents of a
kind and the kinds behind it are in one list, which `DepthFirst.of_append` takes apart again. The
order of a `DepthFirst` walk is the only one (`DepthFirst.unique`), no kind comes twice in it
(`DepthFirst.nodup`), and what it finds is what the declarations lead to
(`DepthFirst.mem_iff_reaches`), however circular they are.

All of this is for any table of declarations, so for any set of kinds that a host registers. That
there is such a walk at all, with circular declarations, is not shown by itself: it is what
`walkKinds` computes, and `walkKinds` terminates as each turn visits a new kind or drops one.
-/

set_option autoImplicit false

namespace MarkupTemplate

open Relation (ReflTransGen)

/-- The kinds that a kind is declared to extend. -/
def parentsOf (table : Dictionary (List Text)) (kind : Text) : List Text :=
  (table.get? kind).getD []

/-- Whether a kind is declared to extend another one. -/
def IsChildOf (table : Dictionary (List Text)) (kind parent : Text) : Prop :=
  parent ∈ parentsOf table kind

/-- The recursive walk: `DepthFirst table visited kinds found` says that going through `kinds` after
`visited` finds `found`, in this order. -/
inductive DepthFirst (table : Dictionary (List Text)) :
    List Text → List Text → List Text → Prop
  | done (visited : List Text) : DepthFirst table visited [] []
  | seen {visited kinds found : List Text} {kind : Text} : kind ∈ visited →
      DepthFirst table visited kinds found → DepthFirst table visited (kind :: kinds) found
  /-- A new kind comes first, then what is found above it, then what else is found. -/
  | visit {visited kinds above found : List Text} {kind : Text} : kind ∉ visited →
      DepthFirst table (kind :: visited) (parentsOf table kind) above →
      DepthFirst table (above ++ kind :: visited) kinds found →
      DepthFirst table visited (kind :: kinds) (kind :: (above ++ found))

namespace DepthFirst

variable {table : Dictionary (List Text)} {visited visited' kinds kinds' found found' : List Text}

/-! ## The walk as a relation

The kinds visited before only matter as a set, and a walk through two lists of kinds is one through
the first and then one through the second. -/

/-- In which order the kinds were visited before does not matter. -/
theorem congr (h : DepthFirst table visited kinds found)
    (hsame : ∀ k, k ∈ visited ↔ k ∈ visited') : DepthFirst table visited' kinds found := by
  induction h generalizing visited' with
  | done => exact .done _
  | seen hk _ ih => exact .seen ((hsame _).mp hk) (ih hsame)
  | visit hk _ _ ihabove ihrest =>
    refine .visit (fun hmem => hk ((hsame _).mpr hmem)) (ihabove fun k => ?_) (ihrest fun k => ?_)
    · rw [List.mem_cons, List.mem_cons, hsame]
    · rw [List.mem_append, List.mem_append, List.mem_cons, List.mem_cons, hsame]

/-- There is one walk only. Each kind to go through was visited or not, which says what comes
next. -/
theorem unique (h : DepthFirst table visited kinds found)
    (h' : DepthFirst table visited kinds found') : found' = found := by
  induction h generalizing found' with
  | done => cases h'; rfl
  | seen hk _ ih =>
    cases h' with
    | seen _ h' => exact ih h'
    | visit hnew _ _ => exact absurd hk hnew
  | visit hnew _ _ ihabove ihrest =>
    cases h' with
    | seen hk _ => exact absurd hk hnew
    | visit _ habove hrest =>
      obtain rfl := ihabove habove
      rw [ihrest hrest]

/-- A walk through kinds one after the other is two walks. -/
theorem of_append (h : DepthFirst table visited (kinds ++ kinds') found) :
    ∃ first second, found = first ++ second ∧ DepthFirst table visited kinds first ∧
      DepthFirst table (first ++ visited) kinds' second := by
  -- An induction on the whole walk: it stops being in the first list when that is used up.
  generalize hall : kinds ++ kinds' = all at h
  induction h generalizing kinds with
  | done visited =>
    obtain ⟨rfl, rfl⟩ := List.append_eq_nil_iff.mp hall
    exact ⟨[], [], rfl, .done _, .done _⟩
  | @seen visited rest found kind hk hrest ih =>
    cases kinds with
    | nil =>
      obtain rfl : kinds' = kind :: rest := hall
      exact ⟨[], found, rfl, .done _, .seen hk hrest⟩
    | cons k kinds =>
      obtain ⟨rfl, htail⟩ := List.cons.inj hall
      obtain ⟨first, second, rfl, hfirst, hsecond⟩ := ih htail
      exact ⟨first, second, rfl, .seen hk hfirst, hsecond⟩
  | @visit visited rest above found kind hk habove hrest _ ih =>
    cases kinds with
    | nil =>
      obtain rfl : kinds' = kind :: rest := hall
      exact ⟨[], _, rfl, .done _, .visit hk habove hrest⟩
    | cons k kinds =>
      obtain ⟨rfl, htail⟩ := List.cons.inj hall
      obtain ⟨first, second, rfl, hfirst, hsecond⟩ := ih htail
      refine ⟨k :: (above ++ first), second, by simp, .visit hk habove hfirst, ?_⟩
      refine hsecond.congr fun j => ?_
      simp only [List.mem_append, List.mem_cons]
      tauto

/-! ## What a walk finds

Four inductions on the walk: nothing twice, nothing that cannot be reached, nothing left out of what
it was to go through, and nothing left out of the parents of what it finds. -/

/-- No kind is found twice, and none that was visited before. -/
theorem nodup (h : DepthFirst table visited kinds found) :
    found.Nodup ∧ ∀ k ∈ found, k ∉ visited := by
  induction h with
  | done => exact ⟨List.nodup_nil, by simp⟩
  | seen _ _ ih => exact ih
  | @visit visited kinds above found kind hk _ _ ihabove ihrest =>
    obtain ⟨habove, hnewabove⟩ := ihabove
    obtain ⟨hrest, hnewrest⟩ := ihrest
    -- What is found above a kind counts as visited for what comes behind it.
    have hapart : ∀ k ∈ above, k ∉ found := by
      intro k hmem hfound
      exact hnewrest k hfound (List.mem_append_left _ hmem)
    have hkind : kind ∉ above ++ found := by
      rw [List.mem_append]
      rintro (hmem | hmem)
      · exact hnewabove kind hmem List.mem_cons_self
      · exact hnewrest kind hmem (List.mem_append_right _ List.mem_cons_self)
    refine ⟨List.nodup_cons.mpr ⟨hkind, ?_⟩, ?_⟩
    · exact List.nodup_append.mpr ⟨habove, hrest, fun k hmem j hj heq =>
        hapart k hmem (heq ▸ hj)⟩
    · intro k hmem hvisited
      rcases List.mem_cons.mp hmem with rfl | hmem
      · exact hk hvisited
      · rcases List.mem_append.mp hmem with hmem | hmem
        · exact hnewabove k hmem (List.mem_cons_of_mem _ hvisited)
        · exact hnewrest k hmem (List.mem_append_right _ (List.mem_cons_of_mem _ hvisited))

/-- What is found can be reached from the kinds gone through. -/
theorem exists_reaches (h : DepthFirst table visited kinds found) :
    ∀ k ∈ found, ∃ start ∈ kinds, ReflTransGen (IsChildOf table) start k := by
  induction h with
  | done => simp
  | seen _ _ ih =>
    intro k hk
    obtain ⟨start, hstart, hreach⟩ := ih k hk
    exact ⟨start, List.mem_cons_of_mem _ hstart, hreach⟩
  | @visit visited kinds above found kind _ _ _ ihabove ihrest =>
    intro k hk
    rcases List.mem_cons.mp hk with rfl | hk
    · exact ⟨k, List.mem_cons_self, .refl⟩
    · rcases List.mem_append.mp hk with hk | hk
      · obtain ⟨parent, hparent, hreach⟩ := ihabove k hk
        exact ⟨kind, List.mem_cons_self, .head hparent hreach⟩
      · obtain ⟨start, hstart, hreach⟩ := ihrest k hk
        exact ⟨start, List.mem_cons_of_mem _ hstart, hreach⟩

/-- All kinds gone through are found, unless they were visited before. -/
theorem mem_of_mem (h : DepthFirst table visited kinds found) :
    ∀ k ∈ kinds, k ∈ found ∨ k ∈ visited := by
  induction h with
  | done => simp
  | seen hk _ ih =>
    intro k hmem
    rcases List.mem_cons.mp hmem with rfl | hmem
    · exact Or.inr hk
    · exact ih k hmem
  | visit _ _ _ _ ihrest =>
    intro k hmem
    rcases List.mem_cons.mp hmem with rfl | hmem
    · exact Or.inl List.mem_cons_self
    · have hrest := ihrest k hmem
      simp only [List.mem_append, List.mem_cons] at hrest ⊢
      tauto

/-- The parents of what is found are found as well, unless they were visited before. -/
theorem mem_of_isChildOf (h : DepthFirst table visited kinds found) :
    ∀ k ∈ found, ∀ parent, IsChildOf table k parent → parent ∈ found ∨ parent ∈ visited := by
  induction h with
  | done => simp
  | seen _ _ ih => exact ih
  | visit _ habove _ ihabove ihrest =>
    intro k hmem parent hparent
    simp only [List.mem_cons, List.mem_append] at hmem ihabove ihrest ⊢
    rcases hmem with rfl | hmem | hmem
    · have hfound := habove.mem_of_mem parent hparent
      rw [List.mem_cons] at hfound
      tauto
    · have hfound := ihabove k hmem parent hparent
      tauto
    · have hfound := ihrest k hmem parent hparent
      tauto

/-- From one kind, a walk finds what the declarations lead to. -/
theorem mem_iff_reaches {kind : Text} (h : DepthFirst table [] [kind] found) (k : Text) :
    k ∈ found ↔ ReflTransGen (IsChildOf table) kind k := by
  -- What is found is closed under parents, which gives the way back.
  have hclosed : ∀ j ∈ found, ∀ parent, IsChildOf table j parent → parent ∈ found := by
    intro j hj parent hparent
    exact (h.mem_of_isChildOf j hj parent hparent).resolve_right List.not_mem_nil
  constructor
  · intro hk
    obtain ⟨start, hstart, hreach⟩ := h.exists_reaches k hk
    rwa [List.mem_singleton.mp hstart] at hreach
  · intro hreach
    induction hreach with
    | refl => exact (h.mem_of_mem kind List.mem_cons_self).resolve_right List.not_mem_nil
    | tail _ hparent ih => exact hclosed _ ih _ hparent

end DepthFirst

/-! ## The walk with pending kinds

The parents of a kind go in front of the pending ones, so that they are visited first. -/

/-- **Keeping pending kinds in a list walks depth first.** -/
theorem depthFirst_walkKinds (table : Dictionary (List Text)) (visited pending : List Text) :
    DepthFirst table visited pending (walkKinds table visited pending) := by
  fun_induction walkKinds table visited pending with
  | case1 visited => exact .done visited
  | case2 visited kind pending hk ih => exact .seen hk ih
  | case3 visited kind pending hk parents hparents ih =>
    -- The walk that is left goes through the parents first, and all that they lead to comes with
    -- them.
    obtain ⟨above, rest, heq, habove, hrest⟩ := ih.of_append
    rw [heq]
    have hdeclared : parentsOf table kind = parents := by rw [parentsOf, hparents, Option.getD_some]
    exact .visit hk (hdeclared ▸ habove) hrest
  | case4 visited kind pending hk hparents ih =>
    have hnone : parentsOf table kind = [] := by rw [parentsOf, hparents, Option.getD_none]
    have habove : DepthFirst table (kind :: visited) (parentsOf table kind) [] := by
      rw [hnone]
      exact .done _
    exact .visit hk habove ih

namespace Registry

/-- What the name of an attribute stands for at a kind itself. -/
def ownMaker? (r : Registry) (kind name : Text) : Option (Provider AttributeMaker) :=
  (r.attributes.get? kind).bind fun ofKind => ofKind.get? (Text.lower name)

/-- No kind is twice in a lineage. The universal kind is put behind it only if it is not there. -/
theorem nodup_lineage (r : Registry) (kind : Text) : (r.lineage kind).Nodup := by
  have hnodup := (depthFirst_walkKinds r.parents [] [Text.lower kind]).nodup.1
  unfold lineage MarkupTemplate.lineage
  dsimp only
  split
  · exact hnodup
  · next huniversal =>
    refine List.nodup_append.mpr ⟨hnodup, by simp, fun k hk j hj heq => ?_⟩
    rw [heq, List.mem_singleton.mp hj] at hk
    exact huniversal hk

/-- **The lineage of a kind** is the recursive depth-first walk from it, which ends and has one order
only, and the universal kind if the walk does not come to it. No kind is in it twice, and the walk
comes to what the declarations lead to. An attribute is what the first kind of the lineage has under
its name, and nothing if none has. -/
theorem lineage_depthFirst (r : Registry) (kind name : Text) : ∃ found,
    DepthFirst r.parents [] [Text.lower kind] found ∧
    (∀ other, DepthFirst r.parents [] [Text.lower kind] other → other = found) ∧
    r.lineage kind = (if universalKind ∈ found then found else found ++ [universalKind]) ∧
    (r.lineage kind).Nodup ∧
    (∀ k, k ∈ found ↔ ReflTransGen (IsChildOf r.parents) (Text.lower kind) k) ∧
    (∀ maker, r.attributeMaker? (some kind) name = some maker ↔
      ∃ before k behind, r.lineage kind = before ++ k :: behind ∧
        r.ownMaker? k name = some maker ∧ ∀ j ∈ before, r.ownMaker? j name = none) ∧
    (r.attributeMaker? (some kind) name = none ↔
      ∀ k ∈ r.lineage kind, r.ownMaker? k name = none) := by
  have hwalk := depthFirst_walkKinds r.parents [] [Text.lower kind]
  have hlookup : r.attributeMaker? (some kind) name =
      (r.lineage kind).findSome? fun k => r.ownMaker? k name := rfl
  refine ⟨_, hwalk, fun other hother => hwalk.unique hother, rfl, r.nodup_lineage kind,
    hwalk.mem_iff_reaches, fun maker => ?_, ?_⟩
  · rw [hlookup, List.findSome?_eq_some_iff]
  · rw [hlookup, List.findSome?_eq_none_iff]

/-- A circle of declarations with two ways to one kind. -/
example : (((empty.registerKind ['A'] [['b'], ['c']]).registerKind ['b'] [['*'], ['d']]).registerKind
    ['d'] [['a'], ['c']]).lineage ['A'] = [['a'], ['b'], ['*'], ['d'], ['c']] := by
  cbv

end Registry

end MarkupTemplate
