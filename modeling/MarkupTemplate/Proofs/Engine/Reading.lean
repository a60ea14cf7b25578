import MarkupTemplate.Proofs.Engine.Macros
import MarkupTemplate.Proofs.Engine.Turn

/-!
# Reading

Reading a tag and its body moves the reader and resolves what is in the tag, so it keeps what a
`Moving` invariant says (`keeps_readTagText`, `keeps_withBody`). Reading on also puts text where it
belongs and runs macros, which keeps what a `Reading` invariant says: a turn of the scanner
(`keeps_turn`), a macro tag (`keeps_readMacro`) and the shaping of a node, which ends with the same
node but for its widget (`Shaped`).

Only tags change the tree, and only macros of the host have other template text read in between. An
invariant that stands both, a `Growing` one, is kept by all that reading a template does
(`keeps_scan`). Scanning is by induction on the fuel.
-/

set_option autoImplicit false

namespace MarkupTemplate

/-! ## Shaping

A node on its way to its place in the tree. While its attributes are applied it is beside the
machine, and in no list of it. -/

/-- Whether a node is a given one but for its widget, and the machine beside it has an invariant. It
is an invariant of the pair that a shaping works on, so `Keeps` is there for shapings too. -/
def Shaped (start : Node) (I : Machine → Prop) (s : Node × Machine) : Prop :=
  (∃ w, s.1 = start.withWidget w) ∧ I s.2

theorem shaped_self {n : Node} {I : Machine → Prop} {machine : Machine} (h : I machine) :
    Shaped n I (n, machine) := ⟨⟨n.widget, n.withWidget_self.symm⟩, h⟩

namespace Shaping

open Engine

variable {α β : Type} {I : Machine → Prop} {G : Stop → Prop} {start : Node}

/-- What does not look at the node keeps it, and the machine's invariant as before. -/
theorem keeps_lift {x : Engine α} (h : Keeps I G x) : Keeps (Shaped start I) G (lift x) := by
  rintro ⟨n, machine⟩ ⟨hn, hm⟩
  obtain ⟨hI, herror⟩ := h machine hm
  unfold KeepsAt lift
  dsimp only
  cases hx : x machine with
  | ok a m =>
    rw [hx] at hI
    exact ⟨⟨hn, hI⟩, fun _ _ he => by cases he⟩
  | error stop m =>
    rw [hx] at hI
    refine ⟨⟨hn, hI⟩, fun stop' s' he => ?_⟩
    obtain ⟨rfl, -⟩ := EStateM.Result.error.inj he
    exact herror stop m hx

/-- What looks at the node sees the one that is shaped. -/
theorem keeps_node_bind {f : Node → Shaping α}
    (h : ∀ w, Keeps (Shaped start I) G (f (start.withWidget w))) :
    Keeps (Shaped start I) G (node >>= f) := by
  rintro ⟨n, machine⟩ hs
  obtain ⟨w, rfl⟩ := hs.1
  exact h w _ hs

theorem keeps_put (w : Option (Widget Node)) : Keeps (Shaped start I) G (put (start.withWidget w)) :=
  fun _ hs => ⟨⟨⟨w, rfl⟩, hs.2⟩, fun _ _ h => by cases h⟩

/-- Shaping a node gives the same node but for its widget. -/
theorem keepsAt_shape {x : Shaping Unit} (h : ∀ n, Keeps (Shaped n I) G x) {n : Node}
    {machine : Machine} (hm : I machine) : KeepsAt I G machine (shape x n) ∧
      ∀ n' machine', shape x n machine = .ok n' machine' → ∃ w, n' = n.withWidget w := by
  obtain ⟨hshaped, herror⟩ := h n (n, machine) (shaped_self hm)
  unfold KeepsAt
  cases hx : x (n, machine) with
  | ok u s =>
    rw [hx] at hshaped
    rw [shape_of_ok hx]
    refine ⟨⟨hshaped.2, fun _ _ he => by cases he⟩, fun n' machine' hok => ?_⟩
    obtain ⟨rfl, rfl⟩ := EStateM.Result.ok.inj hok
    exact hshaped.1
  | error stop s =>
    rw [hx] at hshaped
    rw [shape_of_error hx]
    refine ⟨⟨hshaped.2, fun stop' m he => ?_⟩, fun _ _ hok => by cases hok⟩
    obtain ⟨rfl, -⟩ := EStateM.Result.error.inj he
    exact herror stop s hx

theorem keeps_shape {x : Shaping Unit} (h : ∀ n, Keeps (Shaped n I) G x) (n : Node) :
    Keeps I G (shape x n) := fun _ hm => (keepsAt_shape h hm).1

/-! ## Attributes

One lemma for each thing that an attribute can do to a node. They ask no more than a `Resolving`
invariant, since what an attribute adds to resolving is done to the node. -/

variable [hI : Resolving I G] {fuel : Nat}

theorem keeps_nameWidget (value : Text) : Keeps (Shaped start I) G (nameWidget value) := by
  refine keeps_node_bind fun w => ?_
  split
  · exact keeps_put _
  · exact keeps_lift (keeps_failIfStrict _)

theorem keeps_offerWidget (name value : Text) : Keeps (Shaped start I) G (offerWidget name value) := by
  refine keeps_node_bind fun w => ?_
  split
  · exact keeps_put _
  · exact keeps_lift (keeps_failIfStrict _)

theorem keeps_inForm (value : Text) (form : Option ValueForm) :
    Keeps I G (inForm fuel value form) := by
  cases form with
  | none => exact keeps_pure _
  | some form =>
    cases form with
    | boolean => exact (keeps_boolean value).bind fun _ => keeps_pure _
    | int => exact (keeps_int value).bind fun _ => keeps_pure _
    | float => exact (keeps_float value).bind fun _ => keeps_pure _
    | text => exact keeps_string value

theorem keeps_expansion (d : Definition) (name value : Text) :
    Keeps I G (expansion fuel d name value) := by
  refine keeps_markers.bind fun m => (keeps_expand _ _).bind fun expanded =>
    (keeps_ofOutcome (Attributes.mild_parse _ _ _)).bind fun attributes => ?_
  dsimp only
  split
  · exact (keeps_failIfStrict _).bind fun _ => keeps_pure _
  · exact keeps_pure _

/-- Attributes in order, given that one of them keeps the invariant; the guard may fail, and then
for a fault that is no anomaly. -/
theorem keeps_applyEach {apply : Text → Text → Shaping Unit}
    (h : ∀ name value, Keeps (Shaped start I) G (apply name value)) (name : Text)
    (pairs : List (Text × Text)) : Keeps (Shaped start I) G (applyEach apply name pairs) := by
  induction pairs with
  | nil => exact keeps_pure _
  | cons pair pairs ih =>
    rw [applyEach]
    dsimp only
    split
    · exact (keeps_lift (keeps_fail rfl)).bind fun _ => (h _ _).bind fun _ => ih
    · exact (h _ _).bind fun _ => ih

/-- An attribute with all that it leads to, by induction on the fuel. -/
theorem keeps_apply (name value : Text) : Keeps (Shaped start I) G (apply fuel name value) := by
  -- The fuel goes down with each attribute that stands for others.
  induction fuel generalizing name value with
  | zero => exact keeps_throw hI.exhausted
  | succ fuel ih =>
    rw [apply]
    refine keeps_node_bind fun w => keeps_get_bind fun s hs => ?_
    dsimp only
    split
    · exact keeps_nameWidget value s hs
    · refine ((keeps_lift (keeps_note _)).bind fun _ =>
        (keeps_lift (keeps_inForm _ _)).bind fun _ => ?_) s hs
      split
      · exact ih _ _
      · exact keeps_pure _
    · exact ((keeps_lift (keeps_expansion _ _ _)).bind fun _ => keeps_applyEach ih _ _) s hs
    · exact keeps_offerWidget _ _ s hs

theorem keeps_applyTag : Keeps (Shaped start I) G (applyTag fuel) := by
  refine keeps_node_bind fun w => ?_
  have happly : Keeps (Shaped start I) G
      ((start.withWidget w).tag.attributes.pairs.forM fun pair => apply fuel pair.1 pair.2) :=
    Keeps.forM (fun pair : Text × Text => keeps_apply pair.1 pair.2) _
  dsimp only
  split
  · exact (keeps_lift (keeps_rejectAttributes _ _)).bind fun _ => happly
  · exact happly

end Shaping

namespace Engine

variable {I : Machine → Prop} {G : Stop → Prop} {fuel : Nat}

section

variable [hI : Moving I G]

/-! ## Moving the reader

Moving over characters is the one thing that reading pieces adds to resolving. -/

theorem keeps_skip (count : Nat) : Keeps I G (skip count) :=
  keeps_modifyParser fun _ => hI.skip count

theorem keeps_skipTo (rest : Text) : Keeps I G (skipTo rest) :=
  keeps_modifyParser fun _ => hI.skip _

theorem keeps_skipAll : Keeps I G skipAll := keeps_modifyParser fun _ => hI.skip _

/-- Reading a character is moving over one, or over none at the end. -/
theorem keeps_next : Keeps I G next := by
  intro m hm
  have hskip : Reader.skip 1 m.parser.reader = m.parser.reader.next.2 := by
    rw [Reader.skip]
    cases m.parser.reader.next with
    | mk c r => cases c <;> rfl
  have hnext := hI.skip 1 hm
  rw [hskip] at hnext
  exact ⟨hnext, fun _ _ h => by cases h⟩

/-! ## Pieces of a template

Each piece is found in the unread text and passed over. Where it is not closed, the reader is moved
to the end and the fault is one that lenient reading knows as well. -/

theorem keeps_readPlaceholder : Keeps I G readPlaceholder := by
  refine keeps_markers.bind fun m => keeps_unread.bind fun t => ?_
  split
  · exact (keeps_skipTo _).bind fun _ => keeps_pure _
  · exact keeps_skipAll.bind fun _ => keeps_fail rfl

theorem keeps_failUnclosedComment (text : Text) : Keeps I G (failUnclosedComment text) := by
  refine keeps_markers.bind fun m => ?_
  dsimp only
  split
  · exact (keeps_skip _).bind fun _ => keeps_fail rfl
  · exact keeps_skipAll.bind fun _ => keeps_fail rfl

theorem keeps_skipComment : Keeps I G skipComment := by
  refine keeps_currentParser.bind fun p => keeps_unread.bind fun text => ?_
  split
  · exact keeps_skipTo _
  · exact keeps_failUnclosedComment _

/-- The parts of a tag, by induction on the parts. Only placeholders do more than move the
reader. -/
theorem keeps_joinParts (raw : Text) (parts : List TagPart) :
    Keeps I G (joinParts fuel raw parts) := by
  -- All parts but the last kinds are followed by others, which the induction takes care of.
  induction parts generalizing raw with
  | nil => exact keeps_pure _
  | cons part parts ih =>
    cases part with
    | char c => exact (keeps_skip _).bind fun _ => ih _
    | placeholder name =>
      exact (keeps_skip _).bind fun _ => (keeps_placeholder _ name).bind fun _ =>
        (keeps_expand _ _).bind fun _ => ih _
    | comment length => exact (keeps_skip _).bind fun _ => ih _
    | closing => exact (keeps_skip _).bind fun _ => keeps_pure _
    | unclosedPlaceholder name => exact keeps_skipAll.bind fun _ => keeps_fail rfl
    | unclosedComment text =>
      exact (keeps_skip _).bind fun _ => (keeps_failUnclosedComment text).bind fun _ =>
        keeps_pure _
    | missingClosing => exact keeps_skipAll.bind fun _ => keeps_fail rfl

theorem keeps_readTagText : Keeps I G (readTagText fuel) :=
  keeps_currentParser.bind fun _ => keeps_unread.bind fun _ => keeps_joinParts _ _

theorem keeps_readBody (name : Text) (isMacro : Bool) : Keeps I G (readBody name isMacro) := by
  refine keeps_isStrict.bind fun strict => keeps_markers.bind fun m =>
    keeps_unread.bind fun t => ?_
  split
  · exact (keeps_skipTo _).bind fun _ => keeps_pure _
  · exact keeps_skipAll.bind fun _ => keeps_fail (by cases isMacro <;> rfl)

theorem keeps_withBody (t : Tag) (isMacro : Bool) : Keeps I G (withBody t isMacro) := by
  unfold withBody
  split
  · exact keeps_pure _
  · exact (keeps_readBody _ _).bind fun _ => keeps_pure _

/-- A macro tag and its body, up to where the macro is looked up. -/
theorem keeps_macroWithBody (raw : Text) : Keeps I G (macroWithBody raw) :=
  keeps_markers.bind fun _ => (keeps_ofOutcome (Tag.mild_parse _ _)).bind fun _ =>
    keeps_withBody _ _

end

section

variable [hI : Reading I G]

theorem keeps_appendTemplate (d : Definition) (t : Tag) : Keeps I G (appendTemplate d t) :=
  keeps_markers.bind fun _ => keeps_append _ _

/-! ## Text

Text between tags goes to the innermost open tag, and may change its widget. -/

/-- Text changes the widget of a node and nothing else. -/
theorem Node.eq_of_withText? {n n' : Node} {text : Text} (h : withText? n text = some n') :
    ∃ w, n' = n.withWidget w := by
  unfold withText? at h
  split at h
  · obtain ⟨w, _, hw⟩ := Option.map_eq_some_iff.mp h
    exact ⟨some w, hw.symm⟩
  · exact absurd h (by simp)

/-- Text goes to the innermost open tag, which keeps its place. -/
theorem keepsAt_giveText {machine : Machine} (hm : I machine) {parent : Node} {outer : List Node}
    (hparents : machine.parser.parents = parent :: outer) (text : Text) :
    KeepsAt I G machine (giveText parent outer text) := by
  unfold giveText
  dsimp only
  split
  · split
    · next hgiven =>
      obtain ⟨w, rfl⟩ := Node.eq_of_withText? hgiven
      exact ⟨hI.widget w hparents hm, fun _ _ h => by cases h⟩
    · exact keeps_failIfStrict _ machine hm
  · exact keeps_pure _ machine hm

theorem keeps_addText (text : Text) : Keeps I G (addText text) := by
  intro machine hm
  refine (keeps_currentParser machine hm).bind fun p machine' hp _ => ?_
  obtain ⟨rfl, rfl⟩ := EStateM.Result.ok.inj hp
  split
  · next hparents => exact keepsAt_giveText hm hparents text
  · split
    · exact keeps_modifyParser (fun _ => hI.text _) machine hm
    · exact keeps_pure _ machine hm

/-- A tag that is open at the end is an error in either mode. -/
theorem keeps_checkClosed : Keeps I G checkClosed := by
  refine keeps_parentName.bind fun name => ?_
  cases name with
  | some name => exact keeps_fail rfl
  | none => exact keeps_pure _

/-- **A turn of the scanner keeps what a reading invariant says.** A turn does not take a tag in, so
the tree only sees text. -/
theorem keeps_turn (pending : Text) : Keeps I G (turn fuel pending) := by
  refine keeps_markers.bind fun m => keeps_next.bind fun c => ?_
  -- The cases are the turns: the end of the text, a placeholder, a comment, a tag, a character.
  cases c with
  | none =>
    exact (keeps_addText _).bind fun _ => keeps_checkClosed.bind fun _ => keeps_pure _
  | some c =>
    dsimp only
    split
    · exact keeps_readPlaceholder.bind fun raw => (keeps_placeholder _ raw).bind fun _ =>
        (keeps_append _ _).bind fun _ => keeps_pure _
    · split
      · refine keeps_unread.bind fun t => ?_
        split
        · exact keeps_skipComment.bind fun _ => keeps_pure _
        · exact (keeps_addText _).bind fun _ => keeps_readTagText.bind fun _ => keeps_pure _
      · exact keeps_pure _

/-! ## Macros

Built-in macros have been treated, and macros of the host are added here. What they have read apart
is a hypothesis, and it is asked for only if there are such macros. -/

/-- A macro of the host, given what it has read apart. The three other effects append text or
fail. -/
theorem keeps_runHostMacro {fragment : Text → Text → Engine Document} (host : HostMacro)
    (h : host = ⟨none, .fragment⟩ → ∀ text name, Keeps I G (fragment text name)) (t : Tag) :
    Keeps I G (runHostMacro fragment host t) := by
  obtain ⟨refusal, effect⟩ := host
  unfold runHostMacro
  cases refusal with
  | some message => exact keeps_fail rfl
  | none =>
    refine keeps_parentName.bind fun parent => (keeps_note _).bind fun _ => ?_
    cases effect with
    | body => exact keeps_append _ _
    | fragment => exact (h rfl _ _).bind fun _ => keeps_note _
    | failure message => exact keeps_failIfStrict _
    | append text title => exact keeps_append _ _

/-- **A macro tag keeps what a reading invariant says**, if what it has read apart does. -/
theorem keeps_readMacro {fragment : Text → Text → Engine Document}
    (h : ∀ m, I m → m.registry.ReadsFragments → ∀ text name, Keeps I G (fragment text name))
    (raw : Text) : Keeps I G (readMacro fuel fragment raw) := by
  rw [readMacro_eq]
  refine (keeps_macroWithBody raw).bind fun t => keeps_get_bind fun machine hm => ?_
  unfold runMacro
  -- The name decides: a macro of the library, one of the host, a template, or none at all.
  split
  · exact keeps_runBuiltin t _ machine hm
  · next host hhost =>
    refine keeps_runHostMacro host (fun hfragment => ?_) t machine hm
    exact h machine hm ⟨t.name, hfragment ▸ hhost⟩
  · exact keeps_appendTemplate _ t machine hm
  · exact keeps_failIfStrict _ machine hm

/-! ## Nodes

Making a node and closing one tell the host something, and closing one may put text in front of the
reader. -/

theorem keeps_makeNode (maker : TagMaker) (t : Tag) : Keeps I G (makeNode maker t) := by
  cases maker with
  | element kind container => exact keeps_pure _
  | host h =>
    unfold makeNode
    dsimp only
    split
    · exact keeps_fail rfl
    · split
      · exact (keeps_note _).bind fun _ => keeps_pure _
      · exact keeps_pure _

theorem keeps_finish (n : Node) : Keeps I G (finish n) := by
  unfold finish
  split
  · exact keeps_pure _
  · refine keeps_parentName.bind fun _ => (keeps_note _).bind fun _ => ?_
    split
    · exact keeps_fail rfl
    · exact keeps_append _ _

end

/-! ## The growing tree

From here on the stack of open tags and the roots change, which a `Growing` invariant has to
stand. -/

section

variable [hI : Growing I G]

theorem keeps_setParents (parents : List Node) :
    Keeps I G (modifyParser fun p => { p with parents }) :=
  keeps_modifyParser fun _ => hI.parents parents

theorem keeps_attach (n : Node) : Keeps I G (attach n) := by
  refine keeps_currentParser.bind fun p => ?_
  split
  · dsimp only
    split
    · exact (keeps_failIfStrict _).bind fun _ => keeps_setParents _
    · exact keeps_setParents _
  · exact keeps_modifyParser fun _ => hI.roots _

/-- A node that stays open comes onto the stack, and any other one is finished at once. -/
theorem keeps_openNode (n : Node) : Keeps I G (openNode fuel n) := by
  refine (Shaping.keeps_shape (fun _ => Shaping.keeps_applyTag) n).bind fun n => ?_
  split
  · exact keeps_modifyParser fun _ => hI.parents _
  · exact (keeps_finish n).bind fun _ => keeps_attach n

/-- The tag comes off the stack before it is finished, so what it does when it is closed is done
without it. -/
theorem keeps_closeParent (name : Text) : Keeps I G (closeParent name) := by
  refine keeps_currentParser.bind fun p => ?_
  split
  · exact keeps_fail rfl
  · refine keeps_isStrict.bind fun strict => ?_
    split
    · exact (keeps_setParents _).bind fun _ => (keeps_finish _).bind fun _ => keeps_attach _
    · exact keeps_fail rfl

theorem keeps_readRegular (raw : Text) : Keeps I G (readRegular fuel raw) := by
  rw [readRegular_eq]
  refine keeps_markers.bind fun m => (keeps_ofOutcome (Tag.mild_parse _ _)).bind fun t =>
    keeps_get_bind fun machine hm => ?_
  unfold runTag
  split
  · exact ((keeps_makeNode _ t).bind fun n => keeps_openNode n) machine hm
  · exact ((keeps_withBody t _).bind fun _ => keeps_appendTemplate _ _) machine hm
  · exact ((keeps_failIfStrict _).bind fun _ => keeps_openNode _) machine hm

theorem keeps_readTag {fragment : Text → Text → Engine Document}
    (h : ∀ m, I m → m.registry.ReadsFragments → ∀ text name, Keeps I G (fragment text name))
    (raw : Text) : Keeps I G (readTag fuel fragment raw) := by
  rw [readTag_eq]
  refine keeps_markers.bind fun m => ?_
  unfold takeTag
  split
  · exact keeps_fail rfl
  · exact keeps_closeParent _
  · exact keeps_readMacro h _
  · exact keeps_readRegular _

/-! ## Scanning

The run as a whole, by induction on the fuel. A text that is read apart is covered by the induction
hypothesis, as it is scanned with less fuel. -/

omit hI in
/-- Reading a text apart keeps an invariant if it stands the change of reader and tree both ways. -/
theorem keeps_apart (hapart : ReadsApart I G) {read : Engine Unit} (h : Keeps I G read)
    (text name : Text) : Keeps I G (apart read text name) := by
  intro machine hm
  obtain ⟨hinside, herror⟩ :=
    h.locating (fun _ => hapart.locate) _ (hapart.apart text name hm)
  unfold KeepsAt
  rw [apart_eq]
  -- The state of the outer parse is put back in both cases, so a failed fragment is no exception.
  cases hread : locating read (machine.apart text name) with
  | ok u inside =>
    rw [hread] at hinside
    exact ⟨hapart.back hm hinside, fun _ _ he => by cases he⟩
  | error stop inside =>
    rw [hread] at hinside
    refine ⟨hapart.back hm hinside, fun stop' m he => ?_⟩
    obtain ⟨rfl, -⟩ := EStateM.Result.error.inj he
    exact herror stop inside hread

/-- **Reading a template keeps what a growing invariant says.** Every invariant of runs in this
library is an instance of this. -/
theorem keeps_scan (fuel : Nat) (pending : Text) : Keeps I G (scan fuel pending) := by
  induction fuel generalizing pending with
  | zero => exact keeps_throw hI.exhausted
  | succ fuel ih =>
    rw [scan_succ]
    refine (keeps_turn pending).bind fun after => ?_
    cases after with
    | finished => exact keeps_pure _
    | text pending => exact ih pending
    | tag raw =>
      refine (keeps_readTag (fun m hm hreads => ?_) raw).bind fun _ => ih []
      exact keeps_apart (hI.fragments hm hreads) (ih [])

end

/-! ## Frames

The same facts for frames, of which most uses need no more than that. -/

section

variable {R : Machine → Machine → Prop}

theorem within_next [MovingFrame R] : Within R next := Keeps.within fun _ => keeps_next

theorem within_readTagText [MovingFrame R] : Within R (readTagText fuel) :=
  Keeps.within fun _ => keeps_readTagText

theorem within_withBody [MovingFrame R] (t : Tag) (isMacro : Bool) :
    Within R (withBody t isMacro) := Keeps.within fun _ => keeps_withBody t isMacro

theorem within_appendTemplate [ReadingFrame R] (d : Definition) (t : Tag) :
    Within R (appendTemplate d t) := Keeps.within fun _ => keeps_appendTemplate d t

theorem within_turn [ReadingFrame R] (pending : Text) : Within R (turn fuel pending) :=
  Keeps.within fun _ => keeps_turn pending

/-- What is read apart may be within a frame for another reason, as the parse under way is put back
in place behind it. -/
theorem within_readMacro [hR : ReadingFrame R] {fragment : Text → Text → Engine Document}
    (h : ∀ text name, Within R (fragment text name)) (raw : Text) :
    Within R (readMacro fuel fragment raw) := by
  refine Keeps.within fun _ => keeps_readMacro (fun _ _ _ text name m hm => ?_) raw
  exact ⟨hR.trans hm (h text name m), fun _ _ _ => trivial⟩

theorem within_scan [GrowingFrame R] (fuel : Nat) (pending : Text) : Within R (scan fuel pending) :=
  Keeps.within fun _ => keeps_scan fuel pending

theorem within_shape [ResolvingFrame R] (n : Node) :
    Within R (Shaping.shape (Shaping.applyTag fuel) n) :=
  Keeps.within fun _ => Shaping.keeps_shape (fun _ => Shaping.keeps_applyTag) n

/-- A node is the same one when the attributes of its tag are applied, but for its widget. -/
theorem exists_widget_of_shape {n n' : Node} {machine machine' : Machine}
    (h : Shaping.shape (Shaping.applyTag fuel) n machine = .ok n' machine') :
    ∃ w, n' = n.withWidget w := by
  have hreached : Reached SameParser machine machine := rfl
  exact (Shaping.keepsAt_shape (G := anyStop) (fun _ => Shaping.keeps_applyTag) hreached).2 _ _ h

/-- Behind a text that was read apart everything of the parse under way is back in place, also if
reading it has failed. -/
theorem behind_apart (read : Engine Unit) (text name : Text) (machine : Machine) :
    behind (apart read text name machine) =
      (behind (locating read (machine.apart text name))).back machine := by
  rw [apart_eq]
  cases locating read (machine.apart text name) <;> rfl

end

end Engine

end MarkupTemplate
