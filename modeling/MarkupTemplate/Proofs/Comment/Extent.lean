import MarkupTemplate.Markers.Comment

/-!
# How far a comment reaches

`IsComment` says which texts are comments, without a reader that looks for their end. A remark is
its start sign and a text that closes it. If remarks nest, the signs in that text are counted from
left to right, no two of them with a character in common (`ClosesRemarks`); if they do not, the
first end sign counts (`EndsRemark`). A declaration reaches to where its tag markers balance
(`Text.ClosesPairs`).

`afterComment?_eq_some_iff` is the statement that the look-ahead of the scanner finds the end of a
comment where there is one, and none where there is none. The text behind a comment may begin with
anything: a sign that begins in a comment does not reach beyond it, as long as tags and comments
close with different characters.

That condition is needed. Where the two markers are the same character, the end sign of one comment
may be read as a part of the start sign of another that begins behind it, and then the end of a
comment depends on the text that follows.
-/

set_option autoImplicit false

namespace MarkupTemplate

namespace Text

/-! ## Pairs of markers

Balance is said by numbers of characters: as many closing as opening ones, and one more for each
level there was, at the end of the text and in no prefix before it. -/

/-- Whether a text closes the given number of pairs and one more, the last of them at its end. -/
def ClosesPairs (opening closing : Char) (depth : Nat) (s : Text) : Prop :=
  s.count closing = s.count opening + (depth + 1) ∧
    ∀ p, p <+: s → p ≠ s → p.count closing ≤ p.count opening + depth

variable {opening closing c : Char} {depth : Nat} {s t rest : Text}

theorem not_closesPairs_nil : ¬ ClosesPairs opening closing depth [] := by
  rintro ⟨hcount, _⟩
  simp at hcount

theorem forall_prefix_cons {P : Text → Prop} :
    (∀ p, p <+: c :: s → p ≠ c :: s → P p) ↔ P [] ∧ ∀ p, p <+: s → p ≠ s → P (c :: p) := by
  constructor
  · intro h
    refine ⟨h [] List.nil_prefix (by simp), fun p hp hne => ?_⟩
    exact h (c :: p) ((List.prefix_cons_inj c).mpr hp) (fun heq => hne (List.cons.inj heq).2)
  · rintro ⟨hnil, hcons⟩ p hp hne
    rcases List.prefix_cons_iff.mp hp with rfl | ⟨p', rfl, hp'⟩
    · exact hnil
    · exact hcons p' hp' (fun heq => hne (heq ▸ rfl))

/-- Behind an opening marker there is one pair more to close. -/
theorem closesPairs_cons_opening :
    ClosesPairs opening closing depth (opening :: s) ↔
      ClosesPairs opening closing (depth + 1) s := by
  by_cases hpair : opening = closing
  · -- A pair of one character is never closed.
    subst hpair
    simp [ClosesPairs]
  · simp only [ClosesPairs, forall_prefix_cons, List.count_cons_self,
      List.count_cons_of_ne hpair, List.count_nil]
    constructor
    · rintro ⟨hcount, _, hprefix⟩
      exact ⟨by omega, fun p hp hne => by have := hprefix p hp hne; omega⟩
    · rintro ⟨hcount, hprefix⟩
      exact ⟨by omega, by omega, fun p hp hne => by have := hprefix p hp hne; omega⟩

/-- Behind a closing marker there is one pair less to close. -/
theorem closesPairs_cons_closing (hpair : closing ≠ opening) :
    ClosesPairs opening closing (depth + 1) (closing :: s) ↔
      ClosesPairs opening closing depth s := by
  simp only [ClosesPairs, forall_prefix_cons, List.count_cons_self, List.count_cons_of_ne hpair,
    List.count_nil]
  constructor
  · rintro ⟨hcount, _, hprefix⟩
    exact ⟨by omega, fun p hp hne => by have := hprefix p hp hne; omega⟩
  · rintro ⟨hcount, hprefix⟩
    exact ⟨by omega, by omega, fun p hp hne => by have := hprefix p hp hne; omega⟩

/-- The last pair is closed at its marker and not behind it. -/
theorem closesPairs_zero_cons_closing (hpair : closing ≠ opening) :
    ClosesPairs opening closing 0 (closing :: s) ↔ s = [] := by
  constructor
  · rintro ⟨_, hprefix⟩
    cases s with
    | nil => rfl
    | cons d s =>
      have := hprefix [closing] (by simp) (by simp)
      simp [hpair] at this
  · rintro rfl
    refine ⟨by simp [hpair], fun p hp hne => ?_⟩
    rcases List.prefix_cons_iff.mp hp with rfl | ⟨p', rfl, hp'⟩
    · simp
    · exact absurd (by rw [List.prefix_nil.mp hp']) hne

theorem closesPairs_cons_of_ne (hopening : c ≠ opening) (hclosing : c ≠ closing) :
    ClosesPairs opening closing depth (c :: s) ↔ ClosesPairs opening closing depth s := by
  simp only [ClosesPairs, forall_prefix_cons, List.count_cons_of_ne hopening,
    List.count_cons_of_ne hclosing, List.count_nil, Nat.zero_le, true_and]

/-- Taking what is nested stops where the pairs are closed, and nowhere if they never are. -/
theorem takeNested_eq_some_iff :
    (takeNested opening closing depth t).2 = some rest ↔
      ∃ s, ClosesPairs opening closing depth s ∧ t = s ++ rest := by
  have hcons : ∀ {c t depth depth'},
      (∀ s, ClosesPairs opening closing depth (c :: s) ↔ ClosesPairs opening closing depth' s) →
      ((∃ s, ClosesPairs opening closing depth' s ∧ t = s ++ rest) ↔
        ∃ s, ClosesPairs opening closing depth s ∧ c :: t = s ++ rest) := by
    intro c t depth depth' hstep
    constructor
    · rintro ⟨s, hs, rfl⟩
      exact ⟨c :: s, (hstep s).mpr hs, rfl⟩
    · rintro ⟨s, hs, ht⟩
      cases s with
      | nil => exact absurd hs not_closesPairs_nil
      | cons d s =>
        obtain ⟨rfl, rfl⟩ := List.cons.inj ht
        exact ⟨s, (hstep s).mp hs, rfl⟩
  -- One case for each kind of character, and the steps of the balance above answer all of them
  -- alike.
  fun_induction takeNested opening closing depth t with
  | case1 depth =>
    constructor
    · intro h
      cases h
    · rintro ⟨s, hs, ht⟩
      rw [(List.append_eq_nil_iff.mp ht.symm).1] at hs
      exact absurd hs not_closesPairs_nil
  | case2 depth t ih =>
    exact ih.trans (hcons fun s => closesPairs_cons_opening)
  | case3 t hc =>
    constructor
    · intro h
      obtain rfl := Option.some.inj h
      exact ⟨[closing], (closesPairs_zero_cons_closing hc).mpr rfl, rfl⟩
    · rintro ⟨s, hs, ht⟩
      cases s with
      | nil => exact absurd hs not_closesPairs_nil
      | cons d s =>
        obtain ⟨rfl, rfl⟩ := List.cons.inj ht
        rw [(closesPairs_zero_cons_closing hc).mp hs]
        rfl
  | case4 t depth hc ih =>
    exact ih.trans (hcons fun s => closesPairs_cons_closing hc)
  | case5 depth c t hc hc' ih =>
    exact ih.trans (hcons fun s => closesPairs_cons_of_ne hc hc')

end Text

namespace Markers

/-! ## Comments -/

/-- Whether a text closes the given number of nested remarks and the one they are in, which ends
where the text does. The signs are taken greedily from the left: a character is only passed over
where neither of them begins. -/
inductive ClosesRemarks (m : Markers) : Nat → Text → Prop
  | last : ClosesRemarks m 0 m.commentEnd
  | closing {depth : Nat} {s : Text} (h : ClosesRemarks m depth s) :
      ClosesRemarks m (depth + 1) (m.commentEnd ++ s)
  | opening {depth : Nat} {s : Text} (h : ClosesRemarks m (depth + 1) s) :
      ClosesRemarks m depth (m.commentStart ++ s)
  | char {depth : Nat} {c : Char} {s : Text} (hstart : ¬ m.commentStart <+: c :: s)
      (hend : ¬ m.commentEnd <+: c :: s) (h : ClosesRemarks m depth s) :
      ClosesRemarks m depth (c :: s)

/-- Whether a text ends with its first end sign. -/
def EndsRemark (m : Markers) (s : Text) : Prop :=
  m.commentEnd <:+ s ∧ ∀ before behind, s = before ++ (m.commentEnd ++ behind) → behind = []

/-- Whether a text closes the remark in front of it, given whether remarks nest. -/
def ClosesRemark (m : Markers) : Bool → Text → Prop
  | true, s => m.ClosesRemarks 0 s
  | false, s => m.EndsRemark s

/-- Whether a text is a comment. -/
inductive IsComment (m : Markers) (nested : Bool) : Text → Prop
  | remark {s : Text} (h : m.ClosesRemark nested s) : IsComment m nested (m.commentStart ++ s)
  | declaration {s : Text} (hs : ¬ [m.commentClosing, m.commentClosing] <+: s)
      (h : Text.ClosesPairs m.tagOpening m.tagClosing 0 s) :
      IsComment m nested (m.tagOpening :: m.commentOpening :: s)

variable {m : Markers} {depth : Nat} {s t rest : Text}

theorem ClosesRemarks.isSuffix (h : m.ClosesRemarks depth s) : m.commentEnd <:+ s := by
  induction h with
  | last => exact List.suffix_rfl
  | closing _ ih => exact ih.trans (List.suffix_append _ _)
  | opening _ ih => exact ih.trans (List.suffix_append _ _)
  | char _ _ _ ih => exact ih.trans (List.suffix_cons _ _)

/-! ## Signs stay in their comments

A sign has several characters, so it might begin in a comment and end in the text behind it. That
would make the end of a comment depend on what follows it. -/

/-- A text that ends with an end sign has as many characters as one. -/
theorem commentEnd_isPrefix_append_iff (hs : m.commentEnd <:+ s) :
    m.commentEnd <+: s ++ rest ↔ m.commentEnd <+: s := by
  constructor
  · intro h
    exact List.prefix_of_prefix_length_le h (List.prefix_append s rest) hs.length_le
  · intro h
    exact h.trans (List.prefix_append s rest)

variable (hne : m.tagClosing ≠ m.commentClosing)

include hne

/-- No start sign begins with an end sign, whatever follows that one. -/
theorem not_commentStart_isPrefix_commentEnd_append :
    ¬ m.commentStart <+: m.commentEnd ++ rest := by
  intro h
  -- The third characters of the signs would be the same.
  simp only [commentStart, commentEnd, List.cons_append, List.nil_append,
    List.cons_prefix_cons] at h
  exact hne h.2.2.1.symm

/-- A start sign that begins in a comment ends in it. -/
theorem commentStart_isPrefix_append_iff (hs : m.commentEnd <:+ s) :
    m.commentStart <+: s ++ rest ↔ m.commentStart <+: s := by
  constructor
  · intro h
    obtain ⟨before, rfl⟩ := hs
    cases before with
    | nil => exact absurd h (not_commentStart_isPrefix_commentEnd_append hne)
    | cons c before =>
      refine List.prefix_of_prefix_length_le h (List.prefix_append _ rest) ?_
      simp [commentStart, commentEnd]
  · intro h
    exact h.trans (List.prefix_append s rest)

omit hne

/-! ## Remarks

First those that nest, then those that do not. The look-ahead is the same function for both of them,
with a flag, and here they part. -/

/-- A text that begins with a sign is the sign and what is left of the text without it. -/
theorem eq_append_drop {c : Char} {sign : Text} {n : Nat} (hn : sign.length = n + 1)
    (h : sign.isPrefixOf (c :: t) = true) : c :: t = sign ++ t.drop n := by
  obtain ⟨behind, hbehind⟩ := List.isPrefixOf_iff_prefix.mp h
  have hdrop : (c :: t).drop sign.length = behind := by rw [← hbehind, List.drop_left]
  rw [hn, List.drop_succ_cons] at hdrop
  rw [hdrop, hbehind]

/-- What stands behind nested remarks, follows a text that closes them. -/
theorem exists_closesRemarks (h : m.afterRemark? true depth t = some rest) :
    ∃ s, m.ClosesRemarks depth s ∧ t = s ++ rest := by
  -- The cases are the steps of the walk: one deeper, out at the end, one less deep, and on.
  fun_induction afterRemark? m true depth t with
  | case1 => cases h
  | case2 depth c t hstart ih =>
    obtain ⟨s, hs, ht⟩ := ih h
    have hcut : c :: t = m.commentStart ++ t.drop 3 := eq_append_drop rfl hstart.2
    exact ⟨m.commentStart ++ s, .opening hs, by rw [hcut, ht, List.append_assoc]⟩
  | case3 c t hstart hend =>
    obtain rfl := Option.some.inj h
    exact ⟨m.commentEnd, .last, eq_append_drop rfl hend⟩
  | case4 c t hstart hend depth ih =>
    obtain ⟨s, hs, ht⟩ := ih h
    have hcut : c :: t = m.commentEnd ++ t.drop 2 := eq_append_drop rfl hend
    exact ⟨m.commentEnd ++ s, .closing hs, by rw [hcut, ht, List.append_assoc]⟩
  | case5 depth c t hstart hend ih =>
    obtain ⟨s, hs, rfl⟩ := ih h
    refine ⟨c :: s, .char (fun hp => hstart ⟨rfl, ?_⟩) (fun hp => hend ?_) hs, rfl⟩
    · exact List.isPrefixOf_iff_prefix.mpr (hp.trans (List.prefix_append _ rest))
    · exact List.isPrefixOf_iff_prefix.mpr (hp.trans (List.prefix_append _ rest))

/-! The steps of the look-ahead. -/

theorem afterRemark?_start :
    m.afterRemark? true depth (m.commentStart ++ t) = m.afterRemark? true (depth + 1) t := by
  have hstart : m.commentStart.isPrefixOf (m.commentStart ++ t) = true :=
    List.isPrefixOf_iff_prefix.mpr (List.prefix_append _ t)
  rw [afterRemark?.eq_def]
  exact if_pos ⟨rfl, hstart⟩

/-- Behind an end sign there is one remark less to close, or none. -/
theorem afterRemark?_end {nested : Bool}
    (hstart : ¬ (nested = true ∧ m.commentStart <+: m.commentEnd ++ t)) :
    m.afterRemark? nested depth (m.commentEnd ++ t) =
      match depth with
      | 0 => some t
      | depth + 1 => m.afterRemark? nested depth t := by
  have hend : m.commentEnd.isPrefixOf (m.commentEnd ++ t) = true :=
    List.isPrefixOf_iff_prefix.mpr (List.prefix_append _ t)
  rw [← List.isPrefixOf_iff_prefix] at hstart
  rw [afterRemark?.eq_def]
  exact (if_neg hstart).trans (if_pos hend)

/-- Where neither sign begins, the look-ahead goes on behind the next character. -/
theorem afterRemark?_char {nested : Bool} {c : Char}
    (hstart : ¬ (nested = true ∧ m.commentStart <+: c :: t)) (hend : ¬ m.commentEnd <+: c :: t) :
    m.afterRemark? nested depth (c :: t) = m.afterRemark? nested depth t := by
  rw [← List.isPrefixOf_iff_prefix] at hstart hend
  rw [afterRemark?.eq_def]
  exact (if_neg hstart).trans (if_neg hend)

include hne in
/-- A text that closes the remarks is passed over to its end. -/
theorem afterRemark?_of_closesRemarks (h : m.ClosesRemarks depth s) (rest : Text) :
    m.afterRemark? true depth (s ++ rest) = some rest := by
  have hstart : ∀ t, ¬ (true = true ∧ m.commentStart <+: m.commentEnd ++ t) := fun t hp =>
    not_commentStart_isPrefix_commentEnd_append hne hp.2
  induction h with
  | last => exact afterRemark?_end (hstart rest)
  | closing _ ih =>
    rw [List.append_assoc, afterRemark?_end (hstart _)]
    exact ih
  | opening _ ih =>
    rw [List.append_assoc, afterRemark?_start]
    exact ih
  -- A mark that starts here would have to end in the remark, as the remark ends with one.
  | @char depth c s hnot hnot' hs ih =>
    have hsuffix : m.commentEnd <:+ c :: s := hs.isSuffix.trans (List.suffix_cons c s)
    rw [List.cons_append, afterRemark?_char]
    · exact ih
    · rw [← List.cons_append, commentStart_isPrefix_append_iff hne hsuffix]
      exact fun hp => hnot hp.2
    · rw [← List.cons_append, commentEnd_isPrefix_append_iff hsuffix]
      exact hnot'

/-! Remarks that do not nest. -/

/-- A text that ends with its first end sign and begins with one is one. -/
theorem EndsRemark.eq_commentEnd (h : m.EndsRemark s) (hs : m.commentEnd <+: s) :
    s = m.commentEnd := by
  obtain ⟨behind, rfl⟩ := hs
  rw [h.2 [] behind rfl, List.append_nil]

theorem endsRemark_commentEnd : m.EndsRemark m.commentEnd := by
  refine ⟨List.suffix_rfl, fun before behind heq => ?_⟩
  have hlength := congrArg List.length heq
  simp only [List.length_append] at hlength
  exact List.length_eq_zero_iff.mp (by omega)

/-- Which end sign is the first does not depend on a character in front of it that begins none. -/
theorem endsRemark_cons_iff {c : Char} (hend : ¬ m.commentEnd <+: c :: s) :
    m.EndsRemark (c :: s) ↔ m.EndsRemark s := by
  constructor
  · rintro ⟨hsuffix, hfirst⟩
    refine ⟨?_, fun before behind heq => hfirst (c :: before) behind (by rw [heq]; rfl)⟩
    rcases List.suffix_cons_iff.mp hsuffix with heq | hs
    · exact absurd (heq ▸ List.prefix_rfl) hend
    · exact hs
  · rintro ⟨hsuffix, hfirst⟩
    refine ⟨hsuffix.trans (List.suffix_cons c s), fun before behind heq => ?_⟩
    cases before with
    | nil => exact absurd ⟨behind, heq.symm⟩ hend
    | cons d before => exact hfirst before behind (List.cons.inj heq).2

/-- If remarks do not nest, the look-ahead stops at the first end sign. -/
theorem afterRemark?_false_eq_some_iff :
    m.afterRemark? false 0 t = some rest ↔ ∃ s, m.EndsRemark s ∧ t = s ++ rest := by
  induction t with
  | nil =>
    constructor
    · intro h
      rw [afterRemark?] at h
      cases h
    · rintro ⟨s, hs, ht⟩
      rw [(List.append_eq_nil_iff.mp ht.symm).1] at hs
      exact absurd hs.1 (by simp [commentEnd])
  | cons c t ih =>
    -- The remark ends at the first mark. If that stands here, nothing else can be the remark.
    by_cases hend : m.commentEnd <+: c :: t
    · obtain ⟨behind, hbehind⟩ := hend
      rw [← hbehind, afterRemark?_end (by simp)]
      constructor
      · intro h
        obtain rfl := Option.some.inj h
        exact ⟨m.commentEnd, endsRemark_commentEnd, rfl⟩
      · rintro ⟨s, hs, ht⟩
        have hprefix : m.commentEnd <+: s :=
          (commentEnd_isPrefix_append_iff hs.1).mp (ht ▸ List.prefix_append _ behind)
        rw [hs.eq_commentEnd hprefix] at ht
        rw [List.append_cancel_left ht]
    · rw [afterRemark?_char (by simp) hend, ih]
      constructor
      · rintro ⟨s, hs, rfl⟩
        have hnot : ¬ m.commentEnd <+: c :: s := fun hp =>
          hend (hp.trans (List.prefix_append (c :: s) rest))
        exact ⟨c :: s, (endsRemark_cons_iff hnot).mpr hs, rfl⟩
      · rintro ⟨s, hs, ht⟩
        cases s with
        | nil => exact absurd hs.1 (by simp [commentEnd])
        | cons d s =>
          obtain ⟨rfl, rfl⟩ := List.cons.inj ht
          have hnot : ¬ m.commentEnd <+: c :: s := fun hp =>
            hend (hp.trans (List.prefix_append (c :: s) rest))
          exact ⟨s, (endsRemark_cons_iff hnot).mp hs, rfl⟩

/-! ## The end of a comment -/

include hne in
/-- The end of a remark is found, whether remarks nest or not. -/
theorem afterRemark?_eq_some_iff {nested : Bool} :
    m.afterRemark? nested 0 t = some rest ↔ ∃ s, m.ClosesRemark nested s ∧ t = s ++ rest := by
  cases nested with
  | false => exact afterRemark?_false_eq_some_iff
  | true =>
    constructor
    · exact exists_closesRemarks
    · rintro ⟨s, hs, rfl⟩
      exact afterRemark?_of_closesRemarks hne hs rest

/-- A comment, given from its comment marker on, is a remark if two closing markers follow. -/
theorem isRemark_iff : m.isRemark (m.commentOpening :: t) = true ↔
    [m.commentClosing, m.commentClosing] <+: t := by
  rw [isRemark]
  rcases t with _ | ⟨c, _ | ⟨d, t⟩⟩
  · simp
  · simp
  · simp [List.cons_prefix_cons, @eq_comm _ m.commentClosing]

include hne in
theorem not_isRemark_of_closesPairs (hs : ¬ [m.commentClosing, m.commentClosing] <+: s)
    (h : Text.ClosesPairs m.tagOpening m.tagClosing depth s) :
    ¬ [m.commentClosing, m.commentClosing] <+: s ++ rest := by
  intro hp
  rcases s with _ | ⟨c, _ | ⟨d, s⟩⟩
  · exact Text.not_closesPairs_nil h
  · -- Its only character closes it.
    have hcount := h.1
    obtain ⟨rfl, _⟩ := List.cons_prefix_cons.mp hp
    rw [List.count_cons_of_ne (Ne.symm hne), List.count_nil] at hcount
    omega
  · exact hs (List.prefix_of_prefix_length_le hp (List.prefix_append _ rest) (by simp))

include hne in
/-- **The look-ahead finds the end of a comment** where there is one, and only there. The two kinds
are told by the two markers behind the first one, and `not_isRemark_of_closesPairs` is what keeps a
declaration from turning into a remark by the text that follows it. -/
theorem afterComment?_eq_some_iff {nested : Bool} :
    m.afterComment? nested (m.commentOpening :: t) = some rest ↔
      ∃ c, m.IsComment nested c ∧ m.tagOpening :: m.commentOpening :: t = c ++ rest := by
  rw [afterComment?]
  constructor
  · intro h
    -- The kind of a comment is decided by how it begins.
    by_cases hremark : m.isRemark (m.commentOpening :: t) = true
    · rw [if_pos hremark] at h
      obtain ⟨inner, rfl⟩ := isRemark_iff.mp hremark
      obtain ⟨s, hs, rfl⟩ := (afterRemark?_eq_some_iff hne).mp h
      exact ⟨m.commentStart ++ s, .remark hs, rfl⟩
    · rw [if_neg hremark] at h
      obtain ⟨s, hs, rfl⟩ := Text.takeNested_eq_some_iff.mp h
      refine ⟨_, .declaration (fun hp => hremark (isRemark_iff.mpr ?_)) hs, rfl⟩
      exact hp.trans (List.prefix_append s rest)
  · rintro ⟨c, hc, ht⟩
    cases hc with
    | @remark s hs =>
      obtain rfl : t = m.commentClosing :: m.commentClosing :: (s ++ rest) :=
        (List.cons.inj (List.cons.inj ht).2).2
      have hremark : m.isRemark (m.commentOpening :: m.commentClosing :: m.commentClosing ::
          (s ++ rest)) = true := isRemark_iff.mpr ⟨s ++ rest, rfl⟩
      rw [if_pos hremark]
      exact (afterRemark?_eq_some_iff hne).mpr ⟨s, hs, rfl⟩
    | @declaration s hs h =>
      obtain rfl : t = s ++ rest := (List.cons.inj (List.cons.inj ht).2).2
      rw [if_neg (fun hp => not_isRemark_of_closesPairs hne hs h (isRemark_iff.mp hp))]
      exact Text.takeNested_eq_some_iff.mpr ⟨s, h, rfl⟩

include hne in
/-- A text with no rest behind its comment is that comment. -/
theorem isComment_of_afterComment? {nested : Bool}
    (h : m.afterComment? nested (m.commentOpening :: t) = some []) :
    m.IsComment nested (m.tagOpening :: m.commentOpening :: t) := by
  obtain ⟨c, hc, ht⟩ := (afterComment?_eq_some_iff hne).mp h
  rw [ht, List.append_nil]
  exact hc

end Markers

end MarkupTemplate
