import MarkupTemplate.Proofs.Engine.Reading

/-!
# What hosts are taken to be

A host's tags, macros and listeners are code of its own, and they are handed the parser itself. So
nothing but good manners keeps them from opening a tag that the template does not have, from taking
children away, or from clearing the listeners of somebody else, and no invariant of the tree could
be proved against a host that does. This module says which manners are relied on.

The code of a tag or a macro is `Courteous`: it may put text in front of the reader, fail, and tell
the host something, but it leaves the open tags, the roots, the text, the settings, the arguments
and the listeners as they are. A macro that reads its body apart is not bound to that, since the
template in there may set arguments and leave hooks behind, but the tree is the `SameTree` when it
has come back. A listener may also set arguments and add listeners (`ListeningFrame`).

Hosts enter the engine at four places, and `hosts_courteous` goes through them. What is proved about
the tree and about failed parses knows hosts by the lemmas `within_makeNode`, `within_finish`,
`within_notifyHost` and `keeps_runHostMacro` alone. To let hosts do more is to give them another
constructor, and to find these lemmas still true or no longer so.
-/

set_option autoImplicit false

namespace MarkupTemplate

/-- A frame for what a listener of the host changes. The lists of listeners are exchanged as a whole,
since the ones to be notified are taken off the parser before the first of them is asked, and are put
back in front of what was added meanwhile. -/
class ListeningFrame (R : Machine → Machine → Prop) : Prop extends MovingFrame R where
  environment (m : Machine) (environment : Environment) :
    R m { m with parser := { m.parser with environment } }
  listeners (m : Machine) (before after : List Listener) :
    R m { m with parser := { m.parser with before, after } }

/-- Whether two machines have the same tree as far as it has grown: the same tags are open, with the
same children, the same nodes are finished, and the same text stands outside of all tags. -/
structure SameTree (m m' : Machine) : Prop where
  parents : m'.parser.parents = m.parser.parents
  roots : m'.parser.roots = m.parser.roots
  text : m'.parser.text = m.parser.text

instance : ListeningFrame SameTree where
  refl _ := ⟨rfl, rfl, rfl⟩
  trans h h' :=
    ⟨h'.parents.trans h.parents, h'.roots.trans h.roots, h'.text.trans h.text⟩
  notices _ _ := ⟨rfl, rfl, rfl⟩
  registry _ _ := ⟨rfl, rfl, rfl⟩
  reader _ _ := ⟨rfl, rfl, rfl⟩
  environment _ _ := ⟨rfl, rfl, rfl⟩
  listeners _ _ _ := ⟨rfl, rfl, rfl⟩

/-- What the code of a host's tag or macro may leave, given the machine that it was called with. All
that is left open is the reader, the notices and the registry. -/
structure Courteous (m m' : Machine) : Prop extends SameTree m m' where
  settings : m'.parser.settings = m.parser.settings
  operators : m'.parser.operators = m.parser.operators
  environment : m'.parser.environment = m.parser.environment
  listeners (phase : Phase) : m'.parser.listeners phase = m.parser.listeners phase

instance : MovingFrame Courteous where
  refl m := ⟨Frame.refl m, rfl, rfl, rfl, fun _ => rfl⟩
  trans h h' :=
    ⟨Frame.trans h.toSameTree h'.toSameTree, h'.settings.trans h.settings,
      h'.operators.trans h.operators, h'.environment.trans h.environment,
      fun phase => (h'.listeners phase).trans (h.listeners phase)⟩
  notices _ _ := ⟨⟨rfl, rfl, rfl⟩, rfl, rfl, rfl, fun phase => by cases phase <;> rfl⟩
  registry _ _ := ⟨⟨rfl, rfl, rfl⟩, rfl, rfl, rfl, fun phase => by cases phase <;> rfl⟩
  reader _ _ := ⟨⟨rfl, rfl, rfl⟩, rfl, rfl, rfl, fun phase => by cases phase <;> rfl⟩

namespace Engine

variable {R : Machine → Machine → Prop}

/-! ## Tags and macros

What is common to all frames that allow for a move of the reader. That is more than is said of the
frames of the reading of text, so nothing here can touch an open tag. -/

section

variable [MovingFrame R]

/-- Whatever a host's tag is, making its node only tells the host about it. -/
theorem within_makeNode (maker : TagMaker) (t : Tag) : Within R (makeNode maker t) := by
  cases maker with
  | element kind container => exact within_pure _
  | host h =>
    unfold makeNode
    dsimp only
    split
    · exact within_fail _
    · split
      · exact (within_note _).bind fun _ => within_pure _
      · exact within_pure _

/-- A node that closes may put text in front of the reader. It cannot be the one that is attached
then, so its own children are out of its reach as well. -/
theorem within_finish (n : Node) : Within R (finish n) := by
  unfold finish
  split
  · exact within_pure _
  · refine (within_currentParser.bind fun _ => within_pure _).bind fun _ =>
      (within_note _).bind fun _ => ?_
    split
    · exact within_fail _
    · exact within_append _ _

/-- A macro of the host is within a frame if what it reads apart is. -/
theorem within_runHostMacro {fragment : Text → Text → Engine Document} {h : HostMacro}
    (hfragment : h.effect = .fragment → ∀ text name, Within R (fragment text name)) (t : Tag) :
    Within R (runHostMacro fragment h t) := by
  obtain ⟨refusal, effect⟩ := h
  unfold runHostMacro
  cases refusal with
  | some message => exact within_fail _
  | none =>
    refine (within_currentParser.bind fun _ => within_pure _).bind fun _ =>
      (within_note _).bind fun _ => ?_
    cases effect with
    | body => exact within_append _ _
    | fragment => exact (hfragment rfl _ _).bind fun _ => within_note _
    | failure message => exact within_failIfStrict _
    | append text title => exact within_append _ _

end

/-! ## Listeners -/

section

variable [hR : ListeningFrame R]

theorem within_setListeners (f : Parser → Phase × List Listener) :
    Within R (modifyParser fun p => p.setListeners (f p).1 (f p).2) := by
  intro m
  show R m { m with parser := m.parser.setListeners _ _ }
  cases (f m.parser).1 with
  | before => exact hR.listeners m _ m.parser.after
  | after => exact hR.listeners m m.parser.before _

/-- A listener of the host sets arguments, puts text in front of the reader and adds listeners,
whatever it answers. -/
theorem within_notifyHost (l : HostListener) (nodes : List Node) :
    Within R (notifyHost l nodes) := by
  have hassign : ∀ pair : Text × Text, Within R (setArgument pair.1 pair.2) :=
    fun _ m => hR.environment m _
  have hadd : ∀ l : HostListener, Within R (addHostListener l) := fun l =>
    within_setListeners fun p => (l.phase, p.listeners l.phase ++ [Listener.host l])
  refine (within_note _).bind fun _ => (Within.forM hassign _).bind fun _ =>
    (within_append _ _).bind fun _ => (Within.forM hadd _).bind fun _ => ?_
  dsimp only
  split
  · exact within_pure _
  · exact within_pure _

end

/-! ## All of a host -/

/-- What is read apart leaves the tree alone, whatever is read, since the tree is put aside for it
and back in place behind it. -/
theorem sameTree_apart (read : Engine Unit) (text name : Text) :
    Within SameTree (apart read text name) := by
  intro machine
  unfold WithinAt
  rw [behind_apart]
  exact ⟨rfl, rfl, rfl⟩

/-- **Hosts are courteous.** Their tags are when they are made and when they are closed, and so are
their macros, other than the ones that read their body apart. These too leave the tree alone, and so
do listeners. -/
theorem hosts_courteous :
    (∀ h t, Within Courteous (makeNode (.host h) t)) ∧ (∀ n, Within Courteous (finish n)) ∧
    (∀ fragment h t, h.effect ≠ .fragment → Within Courteous (runHostMacro fragment h t)) ∧
    (∀ read h t, Within SameTree (runHostMacro (apart read) h t)) ∧
    ∀ l nodes, Within SameTree (notifyHost l nodes) := by
  refine ⟨fun h t => within_makeNode _ t, within_finish, fun fragment h t heffect => ?_,
    fun read h t => ?_, within_notifyHost⟩
  · exact within_runHostMacro (fun hfragment => absurd hfragment heffect) t
  · exact within_runHostMacro (fun _ => sameTree_apart read) t

end Engine

end MarkupTemplate
