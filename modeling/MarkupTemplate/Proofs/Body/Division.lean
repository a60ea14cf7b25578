import MarkupTemplate.Proofs.Body.Capture

/-!
# The tag between two branches

A body is searched for the tag between its branches from the start, and at every tag marker the text
ahead is looked at for three kinds of tags. `levelAt` is the number of tags of the conditional that
are open at a place, counted from the start of the body and never below zero, and `DividesAt` says
that at a place there is a tag between branches while none is open. The body is cut at the first
such place, or else there is none (`branches_eq_iff`).

The number is not an integer as the depth of a body is (`Proofs/Body/Capture`). A closing tag more
than there should be is passed over here, and leaves nothing behind that a later tag would have to
make up for.

What is a closing tag is not taken for anything else. This only matters for markers whose macro mark
is the mark of closing tags too: otherwise no text is both (`afterClosing?_eq_none_of_opening?`).
-/

set_option autoImplicit false

namespace MarkupTemplate

namespace TagPattern

/-! ## Counting

Both definitions follow the text and not the search, so they say what stands where and could be
checked by hand. The order in which the kinds of tags are tried shows in `nextLevel`. -/

/-- The text behind a tag that divides branches and closes itself, given from behind its opening
marker. -/
def afterDivider? (p separator : TagPattern) (m : Markers) (t : Text) : Option Text :=
  if (p.afterClosing? m t).isSome then none
  else match separator.opening? m t with
    | some (true, rest) => some rest
    | _ => none

/-- The number of open tags behind a character, given the text that follows it. -/
def nextLevel (p separator : TagPattern) (m : Markers) (level : Nat) (c : Char) (t : Text) : Nat :=
  if c = m.tagOpening then
    if (p.afterClosing? m t).isSome then level - 1
    else if (p.afterDivider? separator m t).isSome then level
    else if p.opensBody m t then level + 1
    else level
  else level

/-- The number of open tags behind so many characters of a text. -/
def levelAt (p separator : TagPattern) (m : Markers) : Nat → Nat → Text → Nat
  | level, 0, _ => level
  | level, _ + 1, [] => level
  | level, n + 1, c :: t => levelAt p separator m (p.nextLevel separator m level c t) n t

/-- Whether a tag that divides branches begins behind so many characters of a text, where no other
tag is open. -/
def DividesAt (p separator : TagPattern) (m : Markers) (level : Nat) (t : Text) (n : Nat) : Prop :=
  (∃ tag, t.drop n = m.tagOpening :: tag ∧ (p.afterDivider? separator m tag).isSome) ∧
    p.levelAt separator m level n t = 0

/-- Whether a text is the given branch, the first tag that divides it, and the other branch. -/
structure DividedBy (p separator : TagPattern) (m : Markers) (level : Nat)
    (t onTrue tag onFalse : Text) : Prop where
  text_eq : t = onTrue ++ m.tagOpening :: (tag ++ onFalse)
  divider : p.afterDivider? separator m (tag ++ onFalse) = some onFalse
  level_eq : p.levelAt separator m level onTrue.length t = 0
  first : ∀ n < onTrue.length, ¬ p.DividesAt separator m level t n

variable {p separator : TagPattern} {m : Markers} {level n : Nat} {c : Char} {t rest : Text}
  {onTrue tag onFalse : Text}

/-- A tag divides branches if it is no closing tag of the conditional, and the separator closing
itself. -/
theorem afterDivider?_eq_some_iff : p.afterDivider? separator m t = some rest ↔
    p.afterClosing? m t = none ∧ separator.opening? m t = some (true, rest) := by
  unfold afterDivider?
  cases hclose : p.afterClosing? m t with
  | some _ => simp
  | none =>
    cases hopen : separator.opening? m t with
    | none => simp
    | some tag =>
      obtain ⟨closed, behind⟩ := tag
      cases closed <;> simp

/-- Whether a text is divided at its start. -/
theorem dividesAt_zero : p.DividesAt separator m level (c :: t) 0 ↔
    (c = m.tagOpening ∧ (p.afterDivider? separator m t).isSome) ∧ level = 0 := by
  refine and_congr_left fun _ => ⟨?_, fun h => ⟨t, by rw [h.1]; rfl, h.2⟩⟩
  rintro ⟨tag, hdrop, hdivider⟩
  obtain ⟨rfl, rfl⟩ := List.cons.inj hdrop
  exact ⟨rfl, hdivider⟩

/-- Behind its first character a text is divided where its rest is. -/
theorem dividesAt_succ : p.DividesAt separator m level (c :: t) (n + 1) ↔
    p.DividesAt separator m (p.nextLevel separator m level c t) t n :=
  Iff.rfl

/-! ## The search for the tag

Each step of the search is taken back to the first place of the text: either the text is divided
there, or the search goes on behind its first character with the level that is left there. -/

/-- Where the text is divided while nothing is open, the search ends. -/
theorem splitBranches?_divider (h : p.afterDivider? separator m t = some rest) :
    p.splitBranches? separator m 0 (m.tagOpening :: t) = some ([], rest) := by
  obtain ⟨hclose, hopen⟩ := afterDivider?_eq_some_iff.mp h
  rw [splitBranches?, if_pos rfl, hclose, hopen]
  rfl

/-- The search passes over every place that does not divide the text. -/
theorem splitBranches?_cons (h : ¬ p.DividesAt separator m level (c :: t) 0) :
    p.splitBranches? separator m level (c :: t) =
      (p.splitBranches? separator m (p.nextLevel separator m level c t) t).map
        (Prod.map (c :: ·) id) := by
  rw [dividesAt_zero] at h
  rw [splitBranches?, nextLevel]
  by_cases hc : c = m.tagOpening
  · rw [if_pos hc, if_pos hc]
    cases hclose : p.afterClosing? m t with
    | some _ => rfl
    | none =>
      cases hdivider : p.afterDivider? separator m t with
      | some rest =>
        have hlevel : level ≠ 0 := fun hlevel => h ⟨⟨hc, by rw [hdivider]; rfl⟩, hlevel⟩
        rw [(afterDivider?_eq_some_iff.mp hdivider).2]
        simp [hlevel]
      | none =>
        -- The separator recognises no tag here that closes itself, so only the name may open one.
        have hopen : ∀ rest, separator.opening? m t ≠ some (true, rest) := fun rest hopen =>
          absurd (afterDivider?_eq_some_iff.mpr ⟨hclose, hopen⟩) (by simp [hdivider])
        simp only [Option.isSome_none, Bool.false_eq_true, if_false]
  · rw [if_neg hc, if_neg hc]

/-- Behind a first character that does not divide it, a text is cut where its rest is. -/
theorem dividedBy_cons (h : ¬ p.DividesAt separator m level (c :: t) 0) :
    p.DividedBy separator m level (c :: t) (c :: onTrue) tag onFalse ↔
      p.DividedBy separator m (p.nextLevel separator m level c t) t onTrue tag onFalse := by
  constructor
  · intro hcut
    refine ⟨(List.cons.inj hcut.text_eq).2, hcut.divider, hcut.level_eq, fun n hn => ?_⟩
    exact mt dividesAt_succ.mpr (hcut.first (n + 1) (Nat.succ_lt_succ hn))
  · intro hcut
    refine ⟨congrArg (c :: ·) hcut.text_eq, hcut.divider, hcut.level_eq, fun n hn => ?_⟩
    cases n with
    | zero => exact h
    | succ n => exact mt dividesAt_succ.mp (hcut.first n (Nat.lt_of_succ_lt_succ hn))

/-- No branch ends in front of a character that does not divide the text. -/
theorem not_dividedBy_nil (h : ¬ p.DividesAt separator m level (c :: t) 0) :
    ¬ p.DividedBy separator m level (c :: t) [] tag onFalse := by
  intro hcut
  obtain ⟨hc, ht⟩ := List.cons.inj hcut.text_eq
  refine h (dividesAt_zero.mpr ⟨⟨hc, ?_⟩, hcut.level_eq⟩)
  rw [ht, hcut.divider]
  rfl

/-- A text is cut at the first place that divides it, and the tag is in neither branch. -/
theorem splitBranches?_eq_some_iff : p.splitBranches? separator m level t = some (onTrue, onFalse) ↔
    ∃ tag, p.DividedBy separator m level t onTrue tag onFalse := by
  induction t generalizing level onTrue with
  | nil =>
    constructor
    · intro h
      exact absurd h (by simp [splitBranches?])
    · rintro ⟨tag, hcut⟩
      exact absurd hcut.text_eq (by simp)
  | cons c t ih =>
    -- Either it is cut right here, or the first character goes to the branch in front of the tag.
    by_cases hzero : p.DividesAt separator m level (c :: t) 0
    · obtain ⟨⟨rfl, hdivider⟩, rfl⟩ := dividesAt_zero.mp hzero
      obtain ⟨rest, hrest⟩ := Option.isSome_iff_exists.mp hdivider
      rw [splitBranches?_divider hrest]
      constructor
      · intro h
        obtain ⟨rfl, rfl⟩ := Prod.mk.inj (Option.some.inj h)
        obtain ⟨tag, rfl⟩ := isSuffix_of_opening? (afterDivider?_eq_some_iff.mp hrest).2
        exact ⟨tag, rfl, hrest, rfl, fun n hn => absurd hn (Nat.not_lt_zero n)⟩
      · rintro ⟨tag, hcut⟩
        cases onTrue with
        | nil =>
          obtain ⟨-, rfl⟩ := List.cons.inj hcut.text_eq
          rw [Option.some.inj (hrest.symm.trans hcut.divider)]
        | cons d onTrue => exact absurd hzero (hcut.first 0 (Nat.succ_pos _))
    · rw [splitBranches?_cons hzero, Option.map_eq_some_iff]
      constructor
      · rintro ⟨⟨onTrue', onFalse'⟩, hsplit, heq⟩
        obtain ⟨rfl, rfl⟩ := Prod.mk.inj heq
        obtain ⟨tag, hcut⟩ := ih.mp hsplit
        exact ⟨tag, (dividedBy_cons hzero).mpr hcut⟩
      · rintro ⟨tag, hcut⟩
        cases onTrue with
        | nil => exact absurd hcut (not_dividedBy_nil hzero)
        | cons d onTrue =>
          obtain rfl : c = d := (List.cons.inj hcut.text_eq).1
          exact ⟨(onTrue, onFalse), ih.mpr ⟨tag, (dividedBy_cons hzero).mp hcut⟩, rfl⟩

/-- A text is not cut if no place divides it. -/
theorem splitBranches?_eq_none_iff :
    p.splitBranches? separator m level t = none ↔ ∀ n, ¬ p.DividesAt separator m level t n := by
  induction t generalizing level with
  | nil =>
    refine iff_of_true (by rw [splitBranches?]) ?_
    rintro n ⟨⟨tag, hdrop, -⟩, -⟩
    exact absurd hdrop (by simp)
  | cons c t ih =>
    -- A text divides at its start, or where the rest of it does.
    by_cases hzero : p.DividesAt separator m level (c :: t) 0
    · refine iff_of_false (fun hnone => ?_) fun h => h 0 hzero
      obtain ⟨⟨rfl, hdivider⟩, rfl⟩ := dividesAt_zero.mp hzero
      obtain ⟨rest, hrest⟩ := Option.isSome_iff_exists.mp hdivider
      exact absurd ((splitBranches?_divider hrest).symm.trans hnone) (by simp)
    · rw [splitBranches?_cons hzero, Option.map_eq_none_iff, ih]
      constructor
      · intro h n
        cases n with
        | zero => exact hzero
        | succ n => exact mt dividesAt_succ.mp (h n)
      · exact fun h n => mt dividesAt_succ.mpr (h (n + 1))

/-- A closing tag begins with the closing mark, and the opening tag of a macro with the macro
mark. -/
theorem afterClosing?_eq_none_of_opening? {closed : Bool} (hm : m.closedMark ≠ m.macroMark)
    (hsign : separator.isMacro = true) (h : separator.opening? m t = some (closed, rest)) :
    p.afterClosing? m t = none := by
  cases t with
  | nil => rfl
  | cons c t =>
    have hc : c = m.macroMark := Decidable.byContradiction fun hc => by
      simp [opening?, afterName?, hsign, Text.dropFirst?, hc] at h
    exact afterClosing?_eq_none t (hc ▸ hm.symm)

end TagPattern

/-- **A body is cut at the first tag between branches that is its own, or not at all.** Nothing of
it gets lost, and if the mark of closing tags is not that of macros, every tag between branches is
seen as one. Without that condition a closing tag comes first, which the third part leaves out. -/
theorem branches_eq_iff (m : Markers) (strict : Bool) (conditional body : Text) :
    let own : TagPattern := ⟨conditional, true, strict⟩
    let separator : TagPattern := ⟨m.elseName conditional, true, strict⟩
    (∀ onTrue onFalse, branches m strict conditional body = (onTrue, some onFalse) ↔
      ∃ tag, own.DividedBy separator m 0 body onTrue tag onFalse) ∧
    (∀ onTrue, branches m strict conditional body = (onTrue, none) ↔
      onTrue = body ∧ ∀ n, ¬ own.DividesAt separator m 0 body n) ∧
    (m.closedMark ≠ m.macroMark → ∀ t rest, own.afterDivider? separator m t = some rest ↔
      separator.opening? m t = some (true, rest)) := by
  intro own separator
  -- The first two parts say what was found, and the third that no closing tag was taken for a
  -- divider.
  refine ⟨fun onTrue onFalse => ?_, fun onTrue => ?_, fun hm t rest => ?_⟩
  · rw [← TagPattern.splitBranches?_eq_some_iff]
    unfold branches
    cases hsplit : own.splitBranches? separator m 0 body <;>
      simp [own, separator, hsplit, Prod.ext_iff]
  · rw [← TagPattern.splitBranches?_eq_none_iff]
    unfold branches
    cases hsplit : own.splitBranches? separator m 0 body <;>
      simp [own, separator, hsplit, eq_comm]
  · rw [TagPattern.afterDivider?_eq_some_iff]
    exact and_iff_right_of_imp (TagPattern.afterClosing?_eq_none_of_opening? hm rfl)

end MarkupTemplate
