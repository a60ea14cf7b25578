import MarkupTemplate.Proofs.Attribute.Application
import MarkupTemplate.Proofs.Control.Setting
import MarkupTemplate.Proofs.Resolution.Inlining
import MarkupTemplate.Proofs.Tag.Content
import MarkupTemplate.Proofs.Text.Nested
import MarkupTemplate.Proofs.Text.TopLevel

/-!
# Decisions

A choice between two texts can stand in one of the texts of another one. So choices make up a tree,
a **decision**, with conditions at its inner nodes and texts and actions at its leaves. Resolving
one goes down a single path: a condition is evaluated, the text that it chooses is resolved in turn,
and the other one is never looked into.

That the path is the one in the tree is a matter of where a written decision is cut. The marks of
the decisions in it, of arguments in conditions and of actions all stand inside of placeholders, and
so they are passed over (`crosses_condition`, `crosses_written`). The rest is by induction on the
tree (`expandsTo_written_iff`): resolving gives a text just if each condition on a path, evaluated
once behind the one in front of it, sends the path on to a leaf that gives the text. The machine is
the one that this leaves, with all that the host is told of the actions called.

What the conditions come to is not computed here. `Judged` only says that they are evaluated in the
order of the path, one from the machine that the other left, so that an action may change what the
next condition finds.
-/

set_option autoImplicit false

namespace MarkupTemplate

/-! ## Decisions

A tree, and the text that it is written as. -/

/-- A part of a condition: words, numbers, operators and actions, or the placeholder of an
argument. -/
inductive ConditionPart where
  | plain (t : Text)
  | argument (name : Text)

/-- What a decision comes to. -/
inductive Leaf where
  | text (t : Text)
  | action (name : Text)

inductive Decision where
  | leaf (l : Leaf)
  | choice (condition : List ConditionPart) (onTrue onFalse : Decision)

def ConditionPart.written : ConditionPart → Text
  | plain t => t
  | argument name => ({} : Markers).placeholder name

def Leaf.written : Leaf → Text
  | text t => t
  | action name => ({} : Markers).placeholder ('$' :: name)

/-- The text of a condition. -/
def conditionWritten (condition : List ConditionPart) : Text :=
  condition.flatMap ConditionPart.written

/-- The text between the markers of a choice. -/
def choiceContent (condition onTrue onFalse : Text) : Text :=
  '?' :: (condition ++ " ? ".toList) ++ (onTrue ++ " : ".toList ++ onFalse)

/-- The text of a decision. -/
def Decision.written : Decision → Text
  | leaf l => l.written
  | choice condition onTrue onFalse => ({} : Markers).placeholder
    (choiceContent (conditionWritten condition) onTrue.written onFalse.written)

/-! ### Plain decisions -/

/-- Whether an argument has no quotes and braces in its name, and what is not an argument no
condition mark either. -/
def ConditionPart.isPlain : ConditionPart → Bool
  | plain t => t.all fun c => ({} : Markers).isLevel c && c != '?'
  | argument name => name.all ({} : Markers).isLevel

/-- Whether an action has no quotes and braces in its name, and a text no marks of a choice
either. -/
def Leaf.isPlain : Leaf → Bool
  | text t => t.all fun c => ({} : Markers).isLevel c && c != '?' && c != ':'
  | action name => name.all ({} : Markers).isLevel

/-- Whether all that a decision consists of is plain. -/
def Decision.isPlain : Decision → Bool
  | leaf l => l.isPlain
  | choice condition onTrue onFalse =>
    condition.all ConditionPart.isPlain && onTrue.isPlain && onFalse.isPlain

/-! ### Paths

A path is what the conditions on it are and what they are to come to. -/

/-- Whether the conditions on a path, with the truth values that they are to have, lead down a
decision to a leaf. -/
inductive Decision.Leads : Decision → List (Text × Bool) → Leaf → Prop
  | leaf (l : Leaf) : Leads (.leaf l) [] l
  | choice (condition : List ConditionPart) {onTrue onFalse : Decision} (b : Bool)
      {path : List (Text × Bool)} {l : Leaf} :
      Leads (if b then onTrue else onFalse) path l →
        Leads (.choice condition onTrue onFalse) ((conditionWritten condition, b) :: path) l

/-! ## Blanks

The text of a placeholder is trimmed, and so are the condition and the texts of a choice. A decision
that is written as a placeholder has nothing to lose by it. -/

theorem trim_placeholder (s : Text) :
    Text.trim (({} : Markers).placeholder s) = ({} : Markers).placeholder s := by
  have hopening : isBlank '{' = false := by decide
  have hclosing : isBlank '}' = false := by decide
  have hblanks : ∀ c ∈ ([] : Text), isBlank c = true := by simp
  refine (Text.trim_append hclosing ('{' :: s) hblanks).trans ?_
  rw [Text.trimLeft, List.dropWhile_cons_of_neg (by simp [hopening])]
  rfl

/-- Only blanks behind the text for a false condition are lost. -/
theorem trim_choiceContent (condition onTrue onFalse : Text) :
    Text.trim (choiceContent condition onTrue onFalse) =
      '?' :: ((condition ++ [' ']) ++ '?' ::
        (' ' :: (onTrue ++ [' ']) ++ ':' :: Text.trimRight (' ' :: onFalse))) := by
  have hmark : isBlank '?' = false := by decide
  have hink : Text.isBlankText (':' :: ' ' :: onFalse) = false := rfl
  have htrim := Text.trim_append_of_ink hmark (condition ++ " ? ".toList ++ (onTrue ++ [' '])) hink
  rw [Text.trimRight_cons (by decide)] at htrim
  simpa [choiceContent] using htrim

/-! ## Where a decision is cut

A text is passed over if nothing in it is open at its end and no mark in it stands outside of
placeholders. All parts of a plain decision are of this kind, except for the two marks of the choice
itself. -/

/-- Whether a text has nothing open behind it, wherever it stands inside of a placeholder. -/
structure Enclosable (t : Text) : Prop where
  nests : Text.Nests '{' '}' t
  passes (marker : Char) : ({} : Markers).Passes marker t

theorem Enclosable.append {s t : Text} (h : Enclosable s) (h' : Enclosable t) :
    Enclosable (s ++ t) :=
  ⟨h.nests.append h'.nests, fun marker => (h.passes marker).append (h'.passes marker)⟩

theorem enclosable_of_isLevel {t : Text} (h : ∀ c ∈ t, ({} : Markers).isLevel c = true) :
    Enclosable t := by
  refine ⟨Text.nests_of_notMem (fun hmem => ?_) fun hmem => ?_, fun marker =>
    Markers.passes_of_isLevel h⟩
  · exact absurd (h _ hmem) (by decide)
  · exact absurd (h _ hmem) (by decide)

/-- A placeholder around such a text is one itself. -/
theorem Enclosable.placeholder {t : Text} (h : Enclosable t) :
    Enclosable (({} : Markers).placeholder t) :=
  ⟨h.nests.enclosed (by decide), fun marker => (h.passes marker).enclosed (by decide) (by decide)⟩

theorem Enclosable.crosses {t : Text} (h : Enclosable t) (marker : Char) :
    ({} : Markers).Crosses marker (({} : Markers).placeholder t) :=
  (h.passes marker).crosses (by decide) (by decide)

variable {condition : List ConditionPart}

theorem ConditionPart.enclosable {p : ConditionPart} (h : p.isPlain = true) :
    Enclosable p.written := by
  cases p with
  | plain t =>
    refine enclosable_of_isLevel fun c hc => ?_
    have hplain := List.all_eq_true.mp h c hc
    rw [Bool.and_eq_true] at hplain
    exact hplain.1
  | argument name => exact (enclosable_of_isLevel (List.all_eq_true.mp h)).placeholder

theorem enclosable_condition (h : condition.all ConditionPart.isPlain = true) :
    Enclosable (conditionWritten condition) := by
  induction condition with
  | nil => exact enclosable_of_isLevel (by simp [conditionWritten])
  | cons p condition ih =>
    rw [List.all_cons, Bool.and_eq_true] at h
    exact (ConditionPart.enclosable h.1).append (ih h.2)

/-- No mark of a condition is in front of the one behind it. -/
theorem crosses_condition (h : condition.all ConditionPart.isPlain = true) :
    ({} : Markers).Crosses '?' (conditionWritten condition) := by
  induction condition with
  | nil => exact Markers.crosses_of_isLevel (by simp [conditionWritten]) (by simp [conditionWritten])
  | cons p condition ih =>
    rw [List.all_cons, Bool.and_eq_true] at h
    refine Markers.Crosses.append ?_ (ih h.2)
    cases p with
    | plain t =>
      have hplain : ∀ c ∈ t, ({} : Markers).isLevel c = true ∧ (c != '?') = true := fun c hc =>
        (Bool.and_eq_true _ _).mp (List.all_eq_true.mp h.1 c hc)
      exact Markers.crosses_of_isLevel (fun c hc => (hplain c hc).1)
        fun hmem => absurd (hplain _ hmem).2 (by decide)
    | argument name =>
      exact Markers.crosses_placeholder (by decide) (by decide) (List.all_eq_true.mp h.1)

/-- A plain text opens nothing and has no mark of a choice. -/
theorem Leaf.isLevel_text {t : Text} (h : (Leaf.text t).isPlain = true) :
    (∀ c ∈ t, ({} : Markers).isLevel c = true) ∧ ':' ∉ t := by
  have hplain : ∀ c ∈ t, (({} : Markers).isLevel c = true ∧ (c != '?') = true) ∧
      (c != ':') = true := fun c hc => by
    have hc := List.all_eq_true.mp h c hc
    rwa [Bool.and_eq_true, Bool.and_eq_true] at hc
  exact ⟨fun c hc => (hplain c hc).1.1, fun hmem => absurd (hplain _ hmem).2 (by decide)⟩

theorem Leaf.enclosable_action {name : Text} (h : (Leaf.action name).isPlain = true) :
    Enclosable ('$' :: name) :=
  enclosable_of_isLevel (List.forall_mem_cons.mpr ⟨by decide, List.all_eq_true.mp h⟩)

theorem Enclosable.choiceContent {c l r : Text} (hcondition : Enclosable c)
    (hleft : Enclosable l) (hright : Enclosable r) : Enclosable (choiceContent c l r) := by
  have hmarks : ∀ t : Text, t.all ({} : Markers).isLevel = true → Enclosable t := fun t h =>
    enclosable_of_isLevel (List.all_eq_true.mp h)
  have hquestion := ((hmarks ['?'] (by decide)).append hcondition).append
    (hmarks " ? ".toList (by decide))
  exact hquestion.append ((hleft.append (hmarks " : ".toList (by decide))).append hright)

namespace Decision

variable {onTrue onFalse : Decision}

theorem isPlain_choice (h : (choice condition onTrue onFalse).isPlain = true) :
    condition.all ConditionPart.isPlain = true ∧ onTrue.isPlain = true ∧
      onFalse.isPlain = true := by
  rw [isPlain, Bool.and_eq_true, Bool.and_eq_true] at h
  exact ⟨h.1.1, h.1.2, h.2⟩

theorem enclosable_written {d : Decision} (h : d.isPlain = true) : Enclosable d.written := by
  induction d with
  | leaf l =>
    cases l with
    | text t => exact enclosable_of_isLevel (Leaf.isLevel_text h).1
    | action name => exact (Leaf.enclosable_action h).placeholder
  | choice condition onTrue onFalse ihTrue ihFalse =>
    obtain ⟨hcondition, htrue, hfalse⟩ := isPlain_choice h
    exact ((enclosable_condition hcondition).choiceContent (ihTrue htrue)
      (ihFalse hfalse)).placeholder

/-- No mark of a decision is in front of the one behind it. -/
theorem crosses_written {d : Decision} (h : d.isPlain = true) :
    ({} : Markers).Crosses ':' d.written := by
  -- A decision inside another one stands in braces, so its marks are not seen from outside.
  cases d with
  | leaf l =>
    cases l with
    | text t =>
      obtain ⟨hlevel, hmark⟩ := Leaf.isLevel_text h
      exact Markers.crosses_of_isLevel hlevel hmark
    | action name => exact (Leaf.enclosable_action h).crosses ':'
  | choice condition onTrue onFalse =>
    obtain ⟨hcondition, htrue, hfalse⟩ := isPlain_choice h
    exact ((enclosable_condition hcondition).choiceContent (enclosable_written htrue)
      (enclosable_written hfalse)).crosses ':'

theorem splitTop?_choice (hcondition : condition.all ConditionPart.isPlain = true)
    (htrue : onTrue.isPlain = true) (rest : Text) :
    ({} : Markers).splitTop? '?' {} ((conditionWritten condition ++ [' ']) ++ '?' ::
        (' ' :: (onTrue.written ++ [' ']) ++ ':' :: rest)) =
      some (conditionWritten condition ++ [' '], ' ' :: (onTrue.written ++ [' ']) ++ ':' :: rest) ∧
    ({} : Markers).splitTop? ':' {} (' ' :: (onTrue.written ++ [' ']) ++ ':' :: rest) =
      some (' ' :: (onTrue.written ++ [' ']), rest) := by
  have hspace : ∀ marker, marker ≠ ' ' → ({} : Markers).Crosses marker [' '] := fun marker hne =>
    Markers.crosses_of_isLevel (List.all_eq_true.mp (by decide)) (by simpa using hne)
  have htext := ((hspace ':' (by decide)).append (crosses_written htrue)).append
    (hspace ':' (by decide))
  exact ⟨((crosses_condition hcondition).append (hspace '?' (by decide))).splitTop? (by decide) _,
    htext.splitTop? (by decide) rest⟩

end Decision

theorem Markers.pieces_placeholder {m : Markers} {s : Text}
    (hpair : m.argumentOpening ≠ m.argumentClosing)
    (hs : Text.Nests m.argumentOpening m.argumentClosing s) :
    m.pieces (m.placeholder s) = [.placeholder s] := by
  rw [placeholder, List.cons_append, pieces_opening (hs.takeNested hpair []), pieces]

namespace Engine

open Decision

variable {machine machine' : Machine} {condition : List ConditionPart} {onTrue onFalse : Decision}
  {result : Text} {fuel : Nat}

/-! ## What placeholders come to

The placeholder of a choice, and that of an action. -/

/-- The text of a placeholder alone is what it stands for, resolved in turn. -/
theorem expand_placeholder_eq_ok_iff (hm : machine.parser.settings.markers = {}) {s : Text}
    (hs : Text.Nests '{' '}' s) :
    expand (fuel + 1) (({} : Markers).placeholder s) machine = .ok result machine' ↔
      ∃ t between, placeholderBy (expand fuel) s machine = .ok t between ∧
        expand fuel t between = .ok result machine' := by
  have halone : piecesBy (expand fuel) [.placeholder s] =
      placeholderBy (expand fuel) s >>= expand fuel := by
    simp only [piecesBy, pure_bind, List.append_nil, bind_pure]
  rw [expand_succ, hm, Markers.pieces_placeholder (by decide) hs, halone, bind_eq_ok_iff]

/-- A choice stands for the text that its condition chooses. -/
theorem placeholderBy_choice (hm : machine.parser.settings.markers = {})
    (hcondition : condition.all ConditionPart.isPlain = true) (htrue : onTrue.isPlain = true) :
    placeholderBy (expand fuel)
        (choiceContent (conditionWritten condition) onTrue.written onFalse.written) machine =
      (do
        let b ← holds fuel (Text.trim (conditionWritten condition))
        return Text.trim (if b then onTrue else onFalse).written) machine := by
  obtain ⟨hsplit, hsplit'⟩ := splitTop?_choice hcondition htrue
    (Text.trimRight (' ' :: onFalse.written))
  have hspace : ∀ c ∈ [' '], isBlank c = true := List.forall_mem_singleton.mpr (by decide)
  have hleft : ∀ t, Text.trim (' ' :: t) = Text.trim t := Text.trim_blanks_append hspace
  -- Both branches are written with blanks around them, which are trimmed from the one that is
  -- chosen.
  have hchosen : ∀ b : Bool, Text.trim (if b then ' ' :: (onTrue.written ++ [' ']) else
      Text.trimRight (' ' :: onFalse.written)) = Text.trim (if b then onTrue else onFalse).written := by
    intro b
    cases b with
    | true => exact (hleft _).trans (Text.trim_append_blanks _ hspace)
    | false => exact (Text.trim_trimRight _).trans (hleft _)
  rw [placeholderBy, bind_of_ok (parser_eq machine), hm, trim_choiceContent]
  show choiceBy _ _ machine = _
  rw [choiceBy, bind_of_ok (markers_eq machine), hm, hsplit]
  dsimp only
  rw [hsplit', Option.getD_some, Text.trim_append_blanks _ hspace]
  simp only [hchosen, holds, bind_assoc, pure_bind]

/-- An action stands for the text of its result. -/
theorem placeholderBy_action (hm : machine.parser.settings.markers = {}) (name : Text)
    (expanded : Text → Engine Text) :
    placeholderBy expanded ('$' :: name) machine =
      (do return (← invoke name none).display) machine := by
  have htrim : Text.trim ('$' :: name) = '$' :: Text.trimRight name := by
    rw [Text.trim, Text.trimLeft, List.dropWhile_cons_of_neg (by decide),
      Text.trimRight_cons (by decide)]
  have hinvoke : invoke (Text.trimRight name) none = invoke name none := by
    unfold invoke
    rw [Text.trim_trimRight]
  have hstring : stringBy expanded ('$' :: Text.trimRight name) machine =
      (do return (← invoke name none).display) machine := by
    rw [stringBy, bind_of_ok (markers_eq machine), hm, ← htrim, Text.trim_trim, htrim, ← hinvoke]
    rfl
  rw [placeholderBy, bind_of_ok (parser_eq machine), hm, htrim]
  exact hstring

/-! ## More fuel

With more fuel a text is resolved to the same, if to anything. -/

theorem steady_expand (t : Text) (machine : Machine) : Steady fun fuel => expand fuel t machine :=
  fun _ _ hle => (mirrors_expand hle t).extends (within_expand _ t) (within_expand _ t) machine

theorem steady_holds (equation : Text) (machine : Machine) :
    Steady fun fuel => holds fuel equation machine :=
  fun _ _ hle => (mirrors_holds hle equation).extends (within_holds equation)
    (within_holds equation) machine

/-! ## Resolved decisions

From here on fuel is left behind: it is enough that some of it resolves a text. -/

/-- Whether a text is resolved to another one, if there is fuel enough. -/
def ExpandsTo (t : Text) (machine : Machine) (result : Text) (machine' : Machine) : Prop :=
  ∃ least, ∀ fuel, least ≤ fuel → expand fuel t machine = .ok result machine'

theorem expandsTo_iff_exists {t : Text} : ExpandsTo t machine result machine' ↔
    ∃ fuel, expand fuel t machine = .ok result machine' := by
  constructor
  · rintro ⟨least, h⟩
    exact ⟨least, h least (Nat.le_refl least)⟩
  · rintro ⟨least, h⟩
    exact ⟨least, fun fuel hle => (steady_expand t machine).ok hle h⟩

/-- Whether conditions have truth values when they are evaluated once each, one behind another. -/
inductive Judged : List (Text × Bool) → Machine → Machine → Prop
  | nil (machine : Machine) : Judged [] machine machine
  | cons {condition : Text} {b : Bool} {path : List (Text × Bool)}
      {machine between machine' : Machine} (fuel : Nat) :
      holds fuel (Text.trim condition) machine = .ok b between → Judged path between machine' →
        Judged ((condition, b) :: path) machine machine'

/-- Whether a leaf gives a text. The result of an action is resolved in turn if there is a
placeholder in it. -/
def LeafGives (l : Leaf) (machine : Machine) (result : Text) (machine' : Machine) : Prop :=
  match l with
  | .text t => result = Text.trim t ∧ machine' = machine
  | .action name => ∃ v between, invoke name none machine = .ok v between ∧
    if '{' ∈ v.display then ExpandsTo v.display between result machine'
    else result = v.display ∧ machine' = between

theorem expandsTo_of_notMem_iff (hm : machine.parser.settings.markers = {}) {t : Text}
    (ht : '{' ∉ t) : ExpandsTo t machine result machine' ↔ result = t ∧ machine' = machine := by
  constructor
  · rintro ⟨least, h⟩
    have hresult := h (least + 1) (Nat.le_succ least)
    rw [expand_of_notMem hm ht] at hresult
    obtain ⟨rfl, rfl⟩ := EStateM.Result.ok.inj hresult
    exact ⟨rfl, rfl⟩
  · rintro ⟨rfl, rfl⟩
    exact expandsTo_iff_exists.mpr ⟨1, expand_of_notMem hm ht 0⟩

/-- A placeholder alone is resolved to what the text that it stands for is resolved to. -/
theorem expandsTo_placeholder_iff (hm : machine.parser.settings.markers = {}) {s : Text}
    (hs : Text.Nests '{' '}' s) :
    ExpandsTo (({} : Markers).placeholder s) machine result machine' ↔
      ∃ fuel t between, placeholderBy (expand fuel) s machine = .ok t between ∧
        expand fuel t between = .ok result machine' := by
  rw [expandsTo_iff_exists]
  constructor
  · rintro ⟨fuel, h⟩
    cases fuel with
    | zero => cases h
    | succ fuel => exact ⟨fuel, (expand_placeholder_eq_ok_iff hm hs).mp h⟩
  · rintro ⟨fuel, h⟩
    exact ⟨fuel + 1, (expand_placeholder_eq_ok_iff hm hs).mpr h⟩

theorem markers_of_within {α : Type} {x : Engine α} {a : α}
    (hm : machine.parser.settings.markers = {}) (hx : Within SameParser x)
    (h : x machine = .ok a machine') : machine'.parser.settings.markers = {} :=
  (congrArg (fun p : Parser => p.settings.markers) (hx.of_ok h)).trans hm

theorem within_invoke (name : Text) (argument : Option Text) :
    Within SameParser (invoke name argument) := Keeps.within fun _ => keeps_invoke name argument

/-- What an action returns is resolved in turn, which does nothing to a text without
placeholders. -/
theorem leafGives_action_iff (hm : machine.parser.settings.markers = {}) {name : Text} :
    LeafGives (.action name) machine result machine' ↔
      ∃ v between, invoke name none machine = .ok v between ∧
        ExpandsTo v.display between result machine' := by
  refine exists_congr fun v => exists_congr fun between => and_congr_right fun hinvoke => ?_
  split
  · rfl
  · next hbrace =>
    exact (expandsTo_of_notMem_iff (markers_of_within hm (within_invoke name none) hinvoke)
      hbrace).symm

theorem expandsTo_leaf_iff (hm : machine.parser.settings.markers = {}) {l : Leaf}
    (hl : l.isPlain = true) :
    ExpandsTo (Text.trim l.written) machine result machine' ↔
      LeafGives l machine result machine' := by
  cases l with
  | text t =>
    refine expandsTo_of_notMem_iff hm fun hmem => ?_
    exact absurd ((Leaf.isLevel_text hl).1 _ (Text.mem_of_mem_trim hmem)) (by decide)
  | action name =>
    rw [Leaf.written, trim_placeholder, leafGives_action_iff hm,
      expandsTo_placeholder_iff hm (Leaf.enclosable_action hl).nests]
    constructor
    -- The action is called once, behind which its text is resolved.
    · rintro ⟨fuel, t, between, ht, hexpand⟩
      rw [placeholderBy_action hm] at ht
      obtain ⟨v, behind, hinvoke, hpure⟩ := bind_eq_ok_iff.mp ht
      obtain ⟨rfl, rfl⟩ := EStateM.Result.ok.inj hpure
      exact ⟨v, behind, hinvoke, expandsTo_iff_exists.mpr ⟨fuel, hexpand⟩⟩
    · rintro ⟨v, between, hinvoke, hexpands⟩
      obtain ⟨fuel, hexpand⟩ := expandsTo_iff_exists.mp hexpands
      refine ⟨fuel, v.display, between, ?_, hexpand⟩
      rw [placeholderBy_action hm, bind_of_ok hinvoke]
      rfl

/-- **A choice evaluates its condition and goes on with the text that this chooses**, and does
nothing with the other one. -/
theorem expandsTo_choice_iff (hm : machine.parser.settings.markers = {})
    (h : (Decision.choice condition onTrue onFalse).isPlain = true) :
    ExpandsTo (Decision.choice condition onTrue onFalse).written machine result machine' ↔
      ∃ b between fuel, holds fuel (Text.trim (conditionWritten condition)) machine =
          .ok b between ∧
        ExpandsTo (Text.trim (if b then onTrue else onFalse).written) between result machine' := by
  obtain ⟨hcondition, htrue, hfalse⟩ := isPlain_choice h
  have hcontent := (enclosable_condition hcondition).choiceContent (enclosable_written htrue)
    (enclosable_written hfalse)
  rw [Decision.written, expandsTo_placeholder_iff hm hcontent.nests]
  constructor
  · rintro ⟨fuel, t, between, ht, hexpand⟩
    rw [placeholderBy_choice hm hcondition htrue] at ht
    obtain ⟨b, behind, hholds, hpure⟩ := bind_eq_ok_iff.mp ht
    obtain ⟨rfl, rfl⟩ := EStateM.Result.ok.inj hpure
    exact ⟨b, behind, fuel, hholds, expandsTo_iff_exists.mpr ⟨fuel, hexpand⟩⟩
  · rintro ⟨b, between, fuel, hholds, least, hexpands⟩
    -- Both the condition and the text that it chooses have to come to an end.
    refine ⟨max fuel least, _, between, ?_, hexpands _ (Nat.le_max_right fuel least)⟩
    rw [placeholderBy_choice hm hcondition htrue,
      bind_of_ok ((steady_holds _ machine).ok (Nat.le_max_left fuel least) hholds)]
    rfl

/-- **A decision is resolved along one path**, by induction on the decision. -/
theorem expandsTo_written_iff (hm : machine.parser.settings.markers = {}) {d : Decision}
    (hd : d.isPlain = true) :
    ExpandsTo (Text.trim d.written) machine result machine' ↔
      ∃ path l between, d.Leads path l ∧ Judged path machine between ∧
        LeafGives l between result machine' := by
  induction d generalizing machine with
  | leaf l =>
    refine (expandsTo_leaf_iff hm hd).trans ⟨fun hgives => ?_, ?_⟩
    · exact ⟨[], l, machine, .leaf l, .nil machine, hgives⟩
    · rintro ⟨path, l', between, hleads, hjudged, hgives⟩
      cases hleads
      cases hjudged
      exact hgives
  | choice condition onTrue onFalse ihTrue ihFalse =>
    obtain ⟨-, htrue, hfalse⟩ := isPlain_choice hd
    -- The hypotheses of the two branches as one, since the path takes whichever was chosen.
    have ih : ∀ (b : Bool) {between : Machine}, between.parser.settings.markers = {} →
        (ExpandsTo (Text.trim (if b then onTrue else onFalse).written) between result machine' ↔
          ∃ path l behind, (if b then onTrue else onFalse).Leads path l ∧
            Judged path between behind ∧ LeafGives l behind result machine') := by
      intro b between hbetween
      cases b with
      | true => exact ihTrue hbetween htrue
      | false => exact ihFalse hbetween hfalse
    rw [Decision.written, trim_placeholder]
    refine (expandsTo_choice_iff hm hd).trans ⟨?_, ?_⟩
    · rintro ⟨b, between, fuel, hholds, hexpands⟩
      obtain ⟨path, l, behind, hleads, hjudged, hgives⟩ :=
        (ih b (markers_of_within hm (within_holds _) hholds)).mp hexpands
      exact ⟨_, l, behind, .choice condition b hleads, .cons fuel hholds hjudged, hgives⟩
    · rintro ⟨path, l, behind, hleads, hjudged, hgives⟩
      cases hleads with
      | choice _ b hleads =>
        cases hjudged with
        | cons fuel hholds hjudged =>
          exact ⟨b, _, fuel, hholds, (ih b (markers_of_within hm (within_holds _) hholds)).mpr
            ⟨_, l, behind, hleads, hjudged, hgives⟩⟩

/-- **A decision is resolved to what the leaf at the end of one path gives.** The conditions on the
path are evaluated once each, from the root to the leaf, and each one has the truth value that the
path takes. The machine goes from one to the next and then to the leaf: no condition and no action
off the path does anything to it. -/
theorem expand_decision (hm : machine.parser.settings.markers = {})
    (h : (Decision.choice condition onTrue onFalse).isPlain = true) :
    (∃ least, ∀ fuel, least ≤ fuel →
      expand fuel (Decision.choice condition onTrue onFalse).written machine =
        .ok result machine') ↔
      ∃ path l between, (Decision.choice condition onTrue onFalse).Leads path l ∧
        Judged path machine between ∧ LeafGives l between result machine' := by
  refine Iff.trans ?_ (expandsTo_written_iff hm h)
  rw [Decision.written, trim_placeholder]
  rfl

def forkCondition : List ConditionPart := [.argument "x".toList, .plain " > 1".toList]

def readyFork : Decision :=
  .choice [.plain "$ready".toList] (.leaf (.action "greet".toList)) (.leaf (.action "lost".toList))

def lostFork : Decision :=
  .choice [.plain "$lost".toList] (.leaf (.text "a".toList)) (.leaf (.text "b".toList))

/-- A machine with an argument and two of the actions of the decision, which is strict about the
third one. -/
def forkMachine : Machine where
  registry := (Registry.standard.registerAction "ready".toList
      { title := "ready".toList, reply := fun _ _ => .ok (.boolean true) }).registerAction
    "greet".toList { title := "greet".toList, reply := fun _ _ => .ok (.text "hello".toList) }
  parser.environment := ({} : Environment).setArgument "x".toList "2".toList

/-- The actions that the host was told of, the last one first. -/
def calledActions (machine : Machine) : List Text :=
  machine.notices.filterMap fun
    | .action title _ => some title
    | _ => none

/-- What is off the path would fail, but is not called. -/
theorem expand_decision_fork :
    forkMachine.parser.settings.markers = {} ∧
    (Decision.choice forkCondition readyFork lostFork).isPlain = true ∧
    ∃ machine, (∃ least, ∀ fuel, least ≤ fuel →
      expand fuel ("\x7b?\x7bx\x7d > 1 ? \x7b?$ready ? \x7b$greet\x7d : \x7b$lost\x7d\x7d : ".toList ++
        "\x7b?$lost ? a : b\x7d\x7d".toList) forkMachine = .ok "hello".toList machine) ∧
      calledActions machine = ["greet".toList, "ready".toList] := by
  have hplain : (Decision.choice forkCondition readyFork lostFork).isPlain = true := by decide
  -- The conditions are evaluated one behind another, each from the machine that is left.
  let first := holds 3 (Text.trim (conditionWritten forkCondition)) forkMachine
  have hfirst : first = .ok true (behind first) := eq_of_answer? (by decide +kernel)
  let second := holds 1 "$ready".toList (behind first)
  have hsecond : second = .ok true (behind second) := eq_of_answer? (by decide +kernel)
  let greeted : EStateM.Result Stop Machine Text :=
    (do return (← invoke "greet".toList none).display : Engine Text) (behind second)
  have hgreeted : greeted = .ok "hello".toList (behind greeted) := eq_of_answer? (by decide +kernel)
  obtain ⟨v, between, hinvoke, hdisplay⟩ := bind_eq_ok_iff.mp hgreeted
  obtain ⟨htext, hbetween⟩ := EStateM.Result.ok.inj hdisplay
  have hgives : LeafGives (.action "greet".toList) (behind second) "hello".toList
      (behind greeted) := by
    refine ⟨v, between, hinvoke, ?_⟩
    rw [htext, if_neg (by decide)]
    exact ⟨rfl, hbetween.symm⟩
  have hleads : (Decision.choice forkCondition readyFork lostFork).Leads
      [(conditionWritten forkCondition, true), ("$ready".toList, true)] (.action "greet".toList) :=
    .choice forkCondition true (.choice [.plain "$ready".toList] true (.leaf _))
  have hjudged : Judged [(conditionWritten forkCondition, true), ("$ready".toList, true)]
      forkMachine (behind second) := .cons 3 hfirst (.cons 1 hsecond (.nil _))
  refine ⟨rfl, hplain, behind greeted, ?_, by decide +kernel⟩
  exact (expand_decision rfl hplain).mpr ⟨_, _, _, hleads, hjudged, hgives⟩

end Engine

end MarkupTemplate
