import MarkupTemplate.Error.Fault

/-!
# Nested tags

A document of elements is a row of tags, and it is well nested if it is what a forest looks like
when it is written down: `Outline.tokens` is the row of a tree. `grow` builds a forest from a row,
with the open tags on a stack. `grow_eq_ok_iff` says that it succeeds on the rows of forests and on
no others, and gives the forest back; `grow_eq_error_iff` that it fails at the first tag which no
forest goes on with, and how.

Some elements are leaves and have no children. That such an element got a child is only noticed
where the child is complete.

One direction is an invariant, that what has been built so far has the row that was read
(`Sound.run`). The other is an induction on forests, in which reading the tags of a whole element
comes to giving it its place (`run_tokens`), and what holds of an element and of its children is
proved together.
-/

set_option autoImplicit false

namespace MarkupTemplate

/-- A tag of a document of elements: one that opens an element, and may close it too, or one that
closes an element. -/
inductive TagToken where
  | tag (name : Text) (pairs : List (Text × Text)) (closed : Bool)
  | closing (name : Text)

/-- An element with its attributes, whether its tag closed itself, and its children. -/
inductive Outline where
  | mk (name : Text) (pairs : List (Text × Text)) (closed : Bool) (children : List Outline)

namespace Outline

/-- The name of an element. -/
def name : Outline → Text
  | mk name _ _ _ => name

/-- One child more, behind the others. -/
def addChild : Outline → Outline → Outline
  | mk name pairs closed children, child => mk name pairs closed (children ++ [child])

mutual

/-- The tags of an element. -/
def tokens : Outline → List TagToken
  | mk name pairs closed children =>
    if closed then [.tag name pairs true]
    else .tag name pairs false :: (tokensAll children ++ [.closing name])
termination_by structural o => o

/-- The tags of elements in a row. -/
def tokensAll : List Outline → List TagToken
  | [] => []
  | o :: forest => tokens o ++ tokensAll forest
termination_by structural forest => forest

end

mutual

/-- Whether only elements that may have children have some. -/
def Sound (leaf : Text → Bool) : Outline → Prop
  | mk name _ closed children =>
    (closed = true ∨ leaf name = true → children = []) ∧ SoundAll leaf children
termination_by structural o => o

/-- Whether this holds of elements in a row. -/
def SoundAll (leaf : Text → Bool) : List Outline → Prop
  | [] => True
  | o :: forest => Sound leaf o ∧ SoundAll leaf forest
termination_by structural forest => forest

end

theorem tokensAll_append (forest forest' : List Outline) :
    tokensAll (forest ++ forest') = tokensAll forest ++ tokensAll forest' := by
  induction forest with
  | nil => rfl
  | cons o forest ih => rw [List.cons_append, tokensAll, tokensAll, ih, List.append_assoc]

/-- Two rows of elements are sound together just if both are. -/
theorem soundAll_append {leaf : Text → Bool} {forest forest' : List Outline} :
    SoundAll leaf (forest ++ forest') ↔ SoundAll leaf forest ∧ SoundAll leaf forest' := by
  induction forest with
  | nil => exact ⟨fun h => ⟨trivial, h⟩, And.right⟩
  | cons o forest ih => rw [List.cons_append, SoundAll, SoundAll, ih, and_assoc]

end Outline

/-! ## Growing a forest -/

/-- The elements in the midst of a row of tags: those that are open, the innermost first and with
the children they have so far, and the complete ones outside of all others. -/
structure Standing where
  parents : List Outline := []
  roots : List Outline := []

namespace Standing

variable (leaf : Text → Bool)

/-- Gives a complete element its place. -/
def place (o : Outline) : Standing → Except Fault Standing
  | ⟨[], roots⟩ => .ok ⟨[], roots ++ [o]⟩
  | ⟨parent :: outer, roots⟩ =>
    if leaf parent.name then .error (.notAParent parent.name)
    else .ok ⟨parent.addChild o :: outer, roots⟩

/-- What a tag does to a standing. -/
def step : TagToken → Standing → Except Fault Standing
  | .tag name pairs true, s => s.place leaf (.mk name pairs true [])
  | .tag name pairs false, s => .ok { s with parents := .mk name pairs false [] :: s.parents }
  | .closing name, ⟨[], _⟩ => .error (.closingWithoutParent name)
  | .closing name, ⟨parent :: outer, roots⟩ =>
    if parent.name = name then place leaf parent ⟨outer, roots⟩
    else .error (.tagMismatch parent.name name)

/-- What a row of tags does to it. -/
def run : List TagToken → Standing → Except Fault Standing
  | [], s => .ok s
  | t :: tokens, s => s.step leaf t >>= run tokens

/-- The forest, if no element is open. -/
def finish : Standing → Except Fault (List Outline)
  | ⟨[], roots⟩ => .ok roots
  | ⟨parent :: _, _⟩ => .error (.unclosedTag parent.name)

/-- The forest that a row of tags describes. -/
def grow (tokens : List TagToken) : Except Fault (List Outline) := run leaf tokens {} >>= finish

/-! ## The row up to here -/

/-- The tags of an element that is open. -/
def tokensOpen : Outline → List TagToken
  | .mk name pairs _ children => .tag name pairs false :: Outline.tokensAll children

/-- All tags up to here. -/
def tokens (s : Standing) : List TagToken :=
  Outline.tokensAll s.roots ++ s.parents.reverse.flatMap tokensOpen

/-- Whether an open element has children only if it may have some. -/
def SoundOpen : Outline → Prop
  | .mk name _ closed children =>
    closed = false ∧ (leaf name = true → children = []) ∧ Outline.SoundAll leaf children

structure Sound (s : Standing) : Prop where
  parents : ∀ o ∈ s.parents, SoundOpen leaf o
  roots : Outline.SoundAll leaf s.roots

/-- What is wrong with the tags that come next, if a forest cannot go on with them. -/
inductive Offends : Standing → List TagToken → Fault → Prop
  | mismatch {parent : Outline} {outer roots : List Outline} {name : Text} {rest : List TagToken}
      (h : parent.name ≠ name) : Offends ⟨parent :: outer, roots⟩ (.closing name :: rest)
        (.tagMismatch parent.name name)
  | withoutParent {roots : List Outline} {name : Text} {rest : List TagToken} :
      Offends ⟨[], roots⟩ (.closing name :: rest) (.closingWithoutParent name)
  | unclosed {parent : Outline} {outer roots : List Outline} :
      Offends ⟨parent :: outer, roots⟩ [] (.unclosedTag parent.name)
  | closedInLeaf {parent : Outline} {outer roots : List Outline} {name : Text}
      {pairs : List (Text × Text)} {rest : List TagToken} (h : leaf parent.name = true) :
      Offends ⟨parent :: outer, roots⟩ (.tag name pairs true :: rest) (.notAParent parent.name)
  | closingInLeaf {child parent : Outline} {outer roots : List Outline} {rest : List TagToken}
      (h : leaf parent.name = true) : Offends ⟨child :: parent :: outer, roots⟩
        (.closing child.name :: rest) (.notAParent parent.name)

variable {leaf : Text → Bool} {s s' : Standing} {o : Outline} {f : Fault}

/-! ## What is built has the row that was read -/

/-- The tags up to here, with the innermost open element at the end. -/
theorem tokens_cons (parent : Outline) (outer roots : List Outline) :
    tokens ⟨parent :: outer, roots⟩ = tokens ⟨outer, roots⟩ ++ tokensOpen parent := by
  simp [tokens]

/-- The tags of a child come behind those of its open parent. -/
theorem tokensOpen_addChild (parent child : Outline) :
    tokensOpen (parent.addChild child) = tokensOpen parent ++ child.tokens := by
  obtain ⟨name, pairs, closed, children⟩ := parent
  rw [Outline.addChild, tokensOpen, tokensOpen, Outline.tokensAll_append, Outline.tokensAll,
    Outline.tokensAll, List.append_nil, List.cons_append]

/-- A child may be added to an open element that is no leaf. -/
theorem soundOpen_addChild {parent child : Outline} (h : SoundOpen leaf parent)
    (hleaf : leaf parent.name = false) (hchild : child.Sound leaf) :
    SoundOpen leaf (parent.addChild child) := by
  obtain ⟨name, pairs, closed, children⟩ := parent
  have hno : leaf name ≠ true := by
    rw [Outline.name] at hleaf
    simp [hleaf]
  exact ⟨h.1, fun hyes => absurd hyes hno,
    Outline.soundAll_append.mpr ⟨h.2.2, hchild, trivial⟩⟩

theorem SoundOpen.complete {parent : Outline} (h : SoundOpen leaf parent) :
    parent.Sound leaf ∧ parent.tokens = tokensOpen parent ++ [.closing parent.name] := by
  obtain ⟨name, pairs, closed, children⟩ := parent
  obtain ⟨rfl, hleaf, hall⟩ := h
  refine ⟨⟨fun hor => hleaf (hor.resolve_left (by simp)), hall⟩, ?_⟩
  rw [Outline.tokens, if_neg (by simp), tokensOpen, Outline.name, List.cons_append]

/-- Giving a complete element its place adds its tags. -/
theorem Sound.place (h : s.Sound leaf) (ho : o.Sound leaf) (hplace : s.place leaf o = .ok s') :
    s'.Sound leaf ∧ s'.tokens = s.tokens ++ o.tokens := by
  obtain ⟨parents, roots⟩ := s
  cases parents with
  | nil =>
    obtain rfl := Except.ok.inj hplace
    refine ⟨⟨h.parents, Outline.soundAll_append.mpr ⟨h.roots, ho, trivial⟩⟩, ?_⟩
    simp [tokens, Outline.tokensAll_append, Outline.tokensAll]
  | cons parent outer =>
    rw [Standing.place] at hplace
    split at hplace
    · cases hplace
    · next hleaf =>
      obtain rfl := Except.ok.inj hplace
      obtain ⟨hparent, houter⟩ := List.forall_mem_cons.mp h.parents
      refine ⟨⟨List.forall_mem_cons.mpr ⟨?_, houter⟩, h.roots⟩, ?_⟩
      · exact soundOpen_addChild hparent (by simpa using hleaf) ho
      · rw [tokens_cons, tokens_cons, tokensOpen_addChild, List.append_assoc]

theorem Sound.step (h : s.Sound leaf) {t : TagToken} (hstep : s.step leaf t = .ok s') :
    s'.Sound leaf ∧ s'.tokens = s.tokens ++ [t] := by
  obtain ⟨parents, roots⟩ := s
  cases t with
  | tag name pairs closed =>
    cases closed with
    | true =>
      have ho : (Outline.mk name pairs true []).Sound leaf := ⟨fun _ => rfl, trivial⟩
      exact h.place ho hstep
    | false =>
      obtain rfl := Except.ok.inj hstep
      refine ⟨⟨List.forall_mem_cons.mpr ⟨⟨rfl, fun _ => rfl, trivial⟩, h.parents⟩, h.roots⟩, ?_⟩
      exact tokens_cons _ _ _
  -- The innermost open node is complete, and is placed among those outside of it.
  | closing name =>
    cases parents with
    | nil => cases hstep
    | cons parent outer =>
      rw [Standing.step] at hstep
      split at hstep
      · next hname =>
        subst hname
        obtain ⟨hparent, houter⟩ := List.forall_mem_cons.mp h.parents
        obtain ⟨hsound, htokens⟩ := hparent.complete
        have hbelow : Sound leaf ⟨outer, roots⟩ := ⟨houter, h.roots⟩
        obtain ⟨hs', hrow⟩ := hbelow.place hsound hstep
        refine ⟨hs', ?_⟩
        rw [hrow, htokens, tokens_cons, List.append_assoc]
      · cases hstep

/-- What is built from a row of tags has that row. -/
theorem Sound.run {tokens : List TagToken} (h : s.Sound leaf) (hrun : s.run leaf tokens = .ok s') :
    s'.Sound leaf ∧ s'.tokens = s.tokens ++ tokens := by
  induction tokens generalizing s with
  | nil =>
    obtain rfl := Except.ok.inj hrun
    exact ⟨h, by rw [List.append_nil]⟩
  | cons t tokens ih =>
    rw [Standing.run] at hrun
    cases hstep : s.step leaf t with
    | error f => rw [hstep] at hrun; cases hrun
    | ok between =>
      rw [hstep] at hrun
      obtain ⟨hbetween, hrow⟩ := h.step hstep
      obtain ⟨hs', hrow'⟩ := ih hbetween hrun
      refine ⟨hs', ?_⟩
      rw [hrow', hrow, List.append_assoc, List.singleton_append]

/-! ## The row of a forest is built again

The tags of an element stand inside of those of another one, so the statements are about any row
that goes on behind them. -/

mutual

/-- Reading the tags of an element comes to giving it its place. -/
theorem run_tokens (rest : List TagToken) : (o : Outline) → o.Sound leaf → (s : Standing) →
    s.run leaf (o.tokens ++ rest) = s.place leaf o >>= run leaf rest
  | .mk name pairs true children, h, s => by
    obtain rfl := h.1 (Or.inl rfl)
    rfl
  | .mk name pairs false children, h, s => by
    have hchildren := run_tokensAll (.closing name :: rest) name pairs []
      children h.2 (fun hleaf => h.1 (Or.inr hleaf)) s.parents s.roots
    rw [Outline.tokens, if_neg (by simp), List.cons_append, List.append_assoc, run]
    show run leaf (Outline.tokensAll children ++ (.closing name :: rest))
      ⟨.mk name pairs false [] :: s.parents, s.roots⟩ = _
    rw [hchildren, run, step, Outline.name, if_pos rfl, List.nil_append]

/-- Reading the tags of elements inside of an open one comes to giving it these children. -/
theorem run_tokensAll (rest : List TagToken) (name : Text) (pairs : List (Text × Text))
    (before : List Outline) : (forest : List Outline) → Outline.SoundAll leaf forest →
    (leaf name = true → forest = []) → (outer roots : List Outline) →
    run leaf (Outline.tokensAll forest ++ rest) ⟨.mk name pairs false before :: outer, roots⟩ =
      run leaf rest ⟨.mk name pairs false (before ++ forest) :: outer, roots⟩
  | [], _, _, outer, roots => by rw [Outline.tokensAll, List.nil_append, List.append_nil]
  | o :: forest, h, hleaf, outer, roots => by
    have hno : leaf name = false := by
      cases hl : leaf name with
      | false => rfl
      | true => exact absurd (hleaf hl) (by simp)
    have hplace : place leaf o ⟨.mk name pairs false before :: outer, roots⟩ =
        .ok ⟨.mk name pairs false (before ++ [o]) :: outer, roots⟩ := by
      rw [place, Outline.name, hno, if_neg (by simp)]
      rfl
    have hforest := run_tokensAll rest name pairs (before ++ [o]) forest h.2
      (fun hl => absurd hl (by simp [hno])) outer roots
    rw [Outline.tokensAll, List.append_assoc, run_tokens _ o h.1, hplace]
    show run leaf (Outline.tokensAll forest ++ rest) _ = _
    rw [hforest, List.append_assoc, List.singleton_append]

end

/-- Reading the tags of a forest makes it the roots. -/
theorem run_roots (rest : List TagToken) {forest : List Outline}
    (h : Outline.SoundAll leaf forest) (roots : List Outline) :
    run leaf (Outline.tokensAll forest ++ rest) ⟨[], roots⟩ =
      run leaf rest ⟨[], roots ++ forest⟩ := by
  induction forest generalizing roots with
  | nil => rw [Outline.tokensAll, List.nil_append, List.append_nil]
  | cons o forest ih =>
    rw [Outline.tokensAll, List.append_assoc, run_tokens _ o h.1]
    show run leaf (Outline.tokensAll forest ++ rest) ⟨[], roots ++ [o]⟩ = _
    rw [ih h.2, List.append_assoc, List.singleton_append]

/-- Reading all tags up to a standing leads there. -/
theorem run_standing (h : s.Sound leaf) (rest : List TagToken) :
    run leaf (s.tokens ++ rest) {} = run leaf rest s := by
  obtain ⟨parents, roots⟩ := s
  induction parents generalizing rest with
  | nil =>
    have hroots := run_roots rest h.roots []
    rw [List.nil_append] at hroots
    rw [tokens, List.reverse_nil, List.flatMap_nil, List.append_nil]
    exact hroots
  | cons parent outer ih =>
    obtain ⟨hparent, houter⟩ := List.forall_mem_cons.mp h.parents
    rw [tokens_cons, List.append_assoc, ih _ ⟨houter, h.roots⟩]
    obtain ⟨name, pairs, closed, children⟩ := parent
    obtain ⟨rfl, hleaf, hall⟩ := hparent
    -- The innermost open tag and its children come last, and the rest is read behind them.
    have hchildren := run_tokensAll rest name pairs [] children hall hleaf outer roots
    rw [List.nil_append] at hchildren
    exact hchildren

/-! ## Rows that are no forest

A standing that a tag does not go on from stays one: the fault is reported and nothing is
repaired. -/

theorem eq_of_place {child : Outline} {parents roots : List Outline}
    (h : place leaf child ⟨parents, roots⟩ = .error f) :
    ∃ parent outer, parents = parent :: outer ∧ leaf parent.name = true ∧
      f = .notAParent parent.name := by
  cases parents with
  | nil => cases h
  | cons parent outer =>
    rw [place] at h
    split at h
    · next hleaf => exact ⟨parent, outer, rfl, hleaf, (Except.error.inj h).symm⟩
    · cases h

/-- A tag that a standing does not go on with offends it. -/
theorem offends_of_step {t : TagToken} {rest : List TagToken} (h : s.step leaf t = .error f) :
    Offends leaf s (t :: rest) f := by
  obtain ⟨parents, roots⟩ := s
  -- A step fails for one of four reasons, and at the end there is a fifth.
  cases t with
  | tag name pairs closed =>
    cases closed with
    | false => cases h
    | true =>
      obtain ⟨parent, outer, rfl, hleaf, rfl⟩ := eq_of_place h
      exact .closedInLeaf hleaf
  | closing name =>
    cases parents with
    | nil =>
      obtain rfl := Except.error.inj h
      exact .withoutParent
    | cons child below =>
      rw [step] at h
      split at h
      · next hname =>
        subst hname
        obtain ⟨parent, outer, rfl, hleaf, rfl⟩ := eq_of_place h
        exact .closingInLeaf hleaf
      · next hname =>
        obtain rfl := Except.error.inj h
        exact .mismatch hname

/-- What offends a standing is the outcome from there. -/
theorem Offends.run {rest : List TagToken} (h : Offends leaf s rest f) :
    s.run leaf rest >>= finish = .error f := by
  cases h with
  | mismatch hname => rw [Standing.run, step, if_neg hname]; rfl
  | withoutParent => rfl
  | unclosed => rfl
  | closedInLeaf hleaf => rw [Standing.run, step, place, if_pos hleaf]; rfl
  | closingInLeaf hleaf => rw [Standing.run, step, if_pos rfl, place, if_pos hleaf]; rfl

/-- What does not become a forest has a first tag that a forest does not go on with. -/
theorem exists_offends {tokens : List TagToken} (h : s.Sound leaf)
    (herror : s.run leaf tokens >>= finish = .error f) :
    ∃ s' rest, s'.Sound leaf ∧ s.tokens ++ tokens = s'.tokens ++ rest ∧ Offends leaf s' rest f := by
  induction tokens generalizing s with
  | nil =>
    obtain ⟨parents, roots⟩ := s
    cases parents with
    | nil => cases herror
    | cons parent outer =>
      obtain rfl := Except.error.inj herror
      exact ⟨_, [], h, rfl, .unclosed⟩
  | cons t tokens ih =>
    rw [Standing.run] at herror
    -- The first failing step is the offence; all before it has made a sound standing.
    cases hstep : s.step leaf t with
    | error f' =>
      rw [hstep] at herror
      obtain rfl := Except.error.inj herror
      exact ⟨s, t :: tokens, h, rfl, offends_of_step hstep⟩
    | ok between =>
      rw [hstep] at herror
      obtain ⟨hbetween, hrow⟩ := h.step hstep
      obtain ⟨s', rest, hs', htokens, hoffends⟩ := ih hbetween herror
      refine ⟨s', rest, hs', ?_, hoffends⟩
      rw [← htokens, hrow, List.append_assoc, List.singleton_append]

/-! ## Forests and their rows -/

theorem sound_start : ({} : Standing).Sound leaf := ⟨by simp, trivial⟩

/-- **A forest is grown from its row of tags and from no other.** -/
theorem grow_eq_ok_iff {tokens : List TagToken} {forest : List Outline} :
    grow leaf tokens = .ok forest ↔
      Outline.SoundAll leaf forest ∧ Outline.tokensAll forest = tokens := by
  constructor
  · intro h
    cases hrun : run leaf tokens {} with
    | error f => rw [grow, hrun] at h; cases h
    | ok s =>
      rw [grow, hrun] at h
      obtain ⟨parents, roots⟩ := s
      cases parents with
      | cons parent outer => cases h
      | nil =>
        obtain rfl := Except.ok.inj h
        obtain ⟨hsound, htokens⟩ := sound_start.run hrun
        refine ⟨hsound.roots, ?_⟩
        rw [Standing.tokens, Standing.tokens] at htokens
        simpa [Outline.tokensAll] using htokens
  -- A sound forest is grown again from its own tokens.
  · rintro ⟨hsound, rfl⟩
    have hrun := run_roots [] hsound []
    rw [List.append_nil, List.nil_append] at hrun
    rw [grow, hrun]
    rfl

/-- **Growing fails where a row stops being that of a forest.** -/
theorem grow_eq_error_iff {tokens : List TagToken} :
    grow leaf tokens = .error f ↔
      ∃ s rest, s.Sound leaf ∧ tokens = s.tokens ++ rest ∧ Offends leaf s rest f := by
  constructor
  · intro h
    obtain ⟨s, rest, hs, htokens, hoffends⟩ := exists_offends sound_start h
    exact ⟨s, rest, hs, htokens, hoffends⟩
  · rintro ⟨s, rest, hs, rfl, hoffends⟩
    rw [grow, run_standing hs]
    exact hoffends.run

end Standing

end MarkupTemplate
