import MarkupTemplate.Proofs.Body.Reading
import MarkupTemplate.Proofs.Comment.Extent

/-!
# Text put into a body

Capturing a body does not read what is in it. It looks at every tag marker, in a comment like
anywhere else, and so a text that is put into a body matters for where the body ends. It does not
matter exactly if the tags of the name balance in it: they leave as many tags open as they find, and
never close the tag that the body belongs to (`Balances`). That holds of any text, comments among
them, and is `readBody_insert_iff`. A comment with a lone closing tag in it ends the body
(`not_readBody_comment`).

What is put in may be looked at from in front of it, by a tag that begins there. A place in a body
is **settled** if this does not happen. The places outside of tags are, if the name has no
characters that end a tag or open a quote in it (`settled_of_endsTags`).

The count of `Proofs/Body/Capture` carries all of this. It is an integer and adds up along a text
(`depthAt_append`, `depthAt_add`), so that the count of the longer text is the old one, shifted
behind the place by what is put in. Balancing says that the shift is zero and that the count does
not touch zero on the way.
-/

set_option autoImplicit false

namespace MarkupTemplate

/-- Whether every tag that begins in a text ends in it. A marker of the end of a tag inside of
quotes does not count. -/
def Markers.EndsTags (m : Markers) (s : Text) : Prop :=
  ∀ before t, s = before ++ m.tagOpening :: t → m.quoteBehind? none t = none

theorem Markers.endsTags_nil {m : Markers} : m.EndsTags [] :=
  fun before t h => absurd h.symm (by simp)

/-- Whether all tags end, from the first character on. -/
theorem Markers.endsTags_cons_iff {m : Markers} {c : Char} {s : Text} :
    m.EndsTags (c :: s) ↔ (c = m.tagOpening → m.quoteBehind? none s = none) ∧ m.EndsTags s := by
  constructor
  · intro h
    exact ⟨fun hc => h [] s (by rw [hc]; rfl), fun before t hs => h (c :: before) t (by rw [hs]; rfl)⟩
  · rintro ⟨hc, hs⟩ before t hcut
    cases before with
    | nil =>
      obtain ⟨rfl, rfl⟩ := List.cons.inj hcut
      exact hc rfl
    | cons d before => exact hs before t (List.cons.inj hcut).2

namespace TagPattern

/-! ## Counting along a text in parts

The count behind two texts is that behind the second one, begun with that behind the first one. What
it was begun with only shifts it. -/

section

variable {p : TagPattern} {m : Markers} {depth : Int}

/-- The count along two texts goes on in the second one from where the first one has left it. -/
theorem depthAt_append (s t : Text) (n : Nat) :
    p.depthAt m depth (s.length + n) (s ++ t) =
      p.depthAt m (p.depthAt m depth s.length (s ++ t)) n t := by
  induction s generalizing depth with
  | nil => rw [List.length_nil, Nat.zero_add, List.nil_append, depthAt]
  | cons c s ih =>
    rw [List.length_cons, Nat.succ_add, List.cons_append, depthAt, ih, depthAt]

theorem depthAt_add (more : Int) (n : Nat) (t : Text) :
    p.depthAt m (depth + more) n t = p.depthAt m depth n t + more := by
  induction t generalizing depth n with
  | nil => cases n <;> simp [depthAt]
  | cons c t ih =>
    cases n with
    | zero => simp [depthAt]
    | succ n =>
      rw [depthAt, depthAt, ← ih]
      congr 1
      split <;> omega

end

/-! ## Settled places -/

/-- Whether the tags that a text begins are recognised or not whatever follows the text. -/
def Settled (p : TagPattern) (m : Markers) (s : Text) : Prop :=
  ∀ before t, s = before ++ m.tagOpening :: t → ∀ u u',
    p.depthChange m (t ++ u) = p.depthChange m (t ++ u')

/-- Whether the tags of the name balance in a text, given how many of them are open in front of it
and what follows it. -/
def Balances (p : TagPattern) (m : Markers) (depth : Int) (s rest : Text) : Prop :=
  p.depthAt m depth s.length (s ++ rest) = depth ∧
    ∀ n ≤ s.length, p.depthAt m depth n (s ++ rest) ≠ 0

variable {p : TagPattern} {m : Markers} {s t rest : Text}

theorem Settled.of_cons {c : Char} (h : p.Settled m (c :: s)) : p.Settled m s :=
  fun before t hs => h (c :: before) t (by rw [hs]; rfl)

/-- In a settled text the count is the same whatever follows the text. -/
theorem Settled.depthAt_eq (h : p.Settled m s) (depth : Int) {n : Nat} (hn : n ≤ s.length)
    (u u' : Text) : p.depthAt m depth n (s ++ u) = p.depthAt m depth n (s ++ u') := by
  induction s generalizing depth n with
  | nil =>
    obtain rfl := Nat.le_zero.mp hn
    rw [depthAt, depthAt]
  | cons c s ih =>
    cases n with
    | zero => rw [depthAt, depthAt]
    | succ n =>
      -- What a tag in the settled text does to the depth is known before the end of that text.
      have hstep : (if c = m.tagOpening then depth + p.depthChange m (s ++ u) else depth) =
          if c = m.tagOpening then depth + p.depthChange m (s ++ u') else depth := by
        by_cases hc : c = m.tagOpening
        · rw [if_pos hc, if_pos hc, h [] s (by rw [hc]; rfl) u u']
        · rw [if_neg hc, if_neg hc]
      rw [List.cons_append, List.cons_append, depthAt, depthAt, hstep]
      exact ih h.of_cons _ (Nat.le_of_succ_le_succ hn)

/-- A text in which no tag of the name is recognised. -/
theorem balances_of_depthChange_eq_zero {depth : Int} (hdepth : depth ≠ 0)
    (h : ∀ before t, s = before ++ m.tagOpening :: t → p.depthChange m (t ++ rest) = 0) :
    p.Balances m depth s rest := by
  have hsame : ∀ n ≤ s.length, p.depthAt m depth n (s ++ rest) = depth := by
    induction s with
    | nil =>
      intro n hn
      obtain rfl := Nat.le_zero.mp hn
      rw [depthAt]
    | cons c s ih =>
      intro n hn
      cases n with
      | zero => rw [depthAt]
      | succ n =>
        have hchange : (if c = m.tagOpening then depth + p.depthChange m (s ++ rest) else depth) =
            depth := by
          by_cases hc : c = m.tagOpening
          · rw [if_pos hc, h [] s (by rw [hc]; rfl), Int.add_zero]
          · rw [if_neg hc]
        rw [List.cons_append, depthAt, hchange]
        exact ih (fun before t hs => h (c :: before) t (by rw [hs]; rfl)) n
          (Nat.le_of_succ_le_succ hn)
  exact ⟨hsame _ (Nat.le_refl _), fun n hn => by rw [hsame n hn]; exact hdepth⟩

/-! ## Places outside of tags

That a place is settled has to be decided by looking at the text in front of it. If its tags all end
in front of it, the scanner never looks past that end, as long as the name itself cannot hide
one. -/

/-- Whether no character of the name, up to letter case, and none of the marks in front of it ends a
tag or is a quote. No blank ends a tag either. -/
structure Unquoted (p : TagPattern) (m : Markers) : Prop where
  name : ∀ c ∈ p.name, ∀ d, sameLetter p.strict d c = true → isQuote d = false ∧ d ≠ m.tagClosing
  macroMark : isQuote m.macroMark = false ∧ m.macroMark ≠ m.tagClosing
  closedMark : isQuote m.closedMark = false ∧ m.closedMark ≠ m.tagClosing
  tagClosing : isBlank m.tagClosing = false

/-- A character that is no quote and does not end the tag leaves it open. -/
theorem quoteBehind?_cons_plain {c : Char} (hc : isQuote c = false ∧ c ≠ m.tagClosing) :
    m.quoteBehind? none (c :: t) = m.quoteBehind? none t := by
  have hnext : nextQuote none c = none := by simp [nextQuote, hc.1]
  rw [Markers.quoteBehind?, if_neg (fun h => hc.2 h.2.2), hnext]

/-- A mark is there or not, and the tag still ends behind it. -/
theorem dropFirst?_cases {mark : Char} (hmark : isQuote mark = false ∧ mark ≠ m.tagClosing)
    (h : m.quoteBehind? none t = none) :
    (∀ u, Text.dropFirst? mark (t ++ u) = none) ∨
      ∃ t', m.quoteBehind? none t' = none ∧ ∀ u, Text.dropFirst? mark (t ++ u) = some (t' ++ u) := by
  cases t with
  | nil => cases h
  | cons c t =>
    by_cases hc : c = mark
    · subst hc
      rw [quoteBehind?_cons_plain hmark] at h
      exact .inr ⟨t, h, fun u => by simp [Text.dropFirst?]⟩
    · exact .inl fun u => by simp [Text.dropFirst?, hc]

/-- The letters of the name are there or not, and the tag still ends behind them. -/
theorem afterLetters?_cases {strict : Bool} {name : Text}
    (hname : ∀ c ∈ name, ∀ d, sameLetter strict d c = true → isQuote d = false ∧ d ≠ m.tagClosing)
    (h : m.quoteBehind? none t = none) :
    (∀ u, afterLetters? strict name (t ++ u) = none) ∨
      ∃ t', m.quoteBehind? none t' = none ∧
        ∀ u, afterLetters? strict name (t ++ u) = some (t' ++ u) := by
  induction name generalizing t with
  | nil => exact .inr ⟨t, h, fun u => by rw [afterLetters?]⟩
  | cons expected name ih =>
    obtain ⟨hexpected, hname⟩ := List.forall_mem_cons.mp hname
    cases t with
    | nil => cases h
    | cons c t =>
      -- A letter of a name is neither a quote nor the end of a tag, so passing it keeps the text
      -- settled.
      by_cases hc : sameLetter strict c expected = true
      · rw [quoteBehind?_cons_plain (hexpected c hc)] at h
        simp only [List.cons_append, afterLetters?, if_pos hc]
        exact ih hname h
      · exact .inl fun u => by rw [List.cons_append, afterLetters?, if_neg hc]

/-- The sign of a macro and the name are there or not, and the tag still ends behind them. -/
theorem Unquoted.afterName?_cases (hp : p.Unquoted m) (h : m.quoteBehind? none t = none) :
    (∀ u, p.afterName? m (t ++ u) = none) ∨
      ∃ t', m.quoteBehind? none t' = none ∧ ∀ u, p.afterName? m (t ++ u) = some (t' ++ u) := by
  unfold afterName?
  by_cases hmacro : p.isMacro = true
  · simp only [if_pos hmacro]
    rcases dropFirst?_cases hp.macroMark h with hnone | ⟨t', h', hsome⟩
    · exact .inl fun u => by rw [hnone, Option.bind_none]
    · simp only [hsome, Option.bind_some]
      exact afterLetters?_cases hp.name h'
  · simp only [if_neg hmacro]
    exact afterLetters?_cases hp.name h

/-- The end of a tag that ends in a text is found there. -/
theorem exists_endOfTag? {quote : Option Char} (last : Option Char)
    (h : m.quoteBehind? quote t = none) :
    ∃ closed rest, ∀ u, endOfTag? m quote last (t ++ u) = some (closed, rest ++ u) := by
  induction t generalizing quote last with
  | nil => cases h
  | cons c t ih =>
    rw [Markers.quoteBehind?] at h
    cases quote with
    | some q =>
      rw [if_neg (by simp)] at h
      exact ih _ h
    | none =>
      -- Outside of quotes a character opens one, ends the tag, or is passed over.
      by_cases hquote : isQuote c = true
      · rw [if_neg (by simp [hquote])] at h
        obtain ⟨closed, rest, hend⟩ := ih (some c) (by simpa [nextQuote, hquote] using h)
        exact ⟨closed, rest, fun u => by rw [List.cons_append, endOfTag?, if_pos hquote, hend]⟩
      · by_cases hclosing : c = m.tagClosing
        · refine ⟨last == some m.closedMark, t, fun u => ?_⟩
          rw [List.cons_append, endOfTag?, if_neg hquote, if_pos hclosing]
        · rw [if_neg (fun hc => hclosing hc.2.2)] at h
          obtain ⟨closed, rest, hend⟩ := ih (if isBlank c then last else some c)
            (by simpa [nextQuote, hquote] using h)
          refine ⟨closed, rest, fun u => ?_⟩
          rw [List.cons_append, endOfTag?, if_neg hquote, if_neg hclosing, hend]

/-- The blanks in front of the end of a tag end in front of it. -/
theorem exists_trimLeft (hblank : isBlank m.tagClosing = false)
    (h : m.quoteBehind? none t = none) :
    ∃ c t', ∀ u, Text.trimLeft (t ++ u) = c :: (t' ++ u) := by
  induction t with
  | nil => cases h
  | cons c t ih =>
    -- The blanks cannot run into what follows, as a tag ends in the text with something else.
    cases hc : isBlank c with
    | true =>
      have hclosing : c ≠ m.tagClosing := fun heq => by simp [heq, hblank] at hc
      rw [quoteBehind?_cons_plain ⟨isQuote_of_isBlank hc, hclosing⟩] at h
      obtain ⟨d, t', htrim⟩ := ih h
      refine ⟨d, t', fun u => ?_⟩
      rw [← htrim, Text.trimLeft, List.cons_append, List.dropWhile_cons_of_pos hc, Text.trimLeft]
    | false =>
      refine ⟨c, t, fun u => ?_⟩
      rw [Text.trimLeft, List.cons_append, List.dropWhile_cons_of_neg (by simp [hc])]

/-- Whether a tag closes a body is decided in front of its end. -/
theorem Unquoted.isSome_afterClosing? (hp : p.Unquoted m) (h : m.quoteBehind? none t = none)
    (u u' : Text) :
    (p.afterClosing? m (t ++ u)).isSome = (p.afterClosing? m (t ++ u')).isSome := by
  unfold afterClosing?
  -- Each step of reading a closing tag either fails or stays within `t`, whatever follows.
  rcases dropFirst?_cases hp.closedMark h with hnone | ⟨name, hname, hmark⟩
  · simp only [hnone, Option.bind_none]
  rcases hp.afterName?_cases hname with hnone | ⟨blanks, hblanks, hletters⟩
  · simp only [hmark, Option.bind_some, hnone]
  obtain ⟨c, t', htrim⟩ := exists_trimLeft hp.tagClosing hblanks
  simp only [hmark, Option.bind_some, hletters, htrim]
  by_cases hc : c = m.tagClosing
  · simp [Text.dropFirst?, hc]
  · simp [Text.dropFirst?, hc]

theorem Unquoted.opensBody_eq (hp : p.Unquoted m) (h : m.quoteBehind? none t = none)
    (u u' : Text) : p.opensBody m (t ++ u) = p.opensBody m (t ++ u') := by
  unfold opensBody opening?
  rcases hp.afterName?_cases h with hnone | ⟨attributes, hattributes, hname⟩
  · simp only [hnone]
  obtain ⟨closed, rest, hend⟩ := exists_endOfTag? none hattributes
  cases attributes with
  | nil => cases hattributes
  | cons c attributes =>
    simp only [hname, hend, List.head?_append, List.head?_cons, Option.some_or]
    cases hhead : endsName m c with
    | true => simp [hhead]
    | false => simp [hhead]

theorem settled_of_endsTags (hp : p.Unquoted m) (hs : m.EndsTags s) : p.Settled m s := by
  intro before t hcut u u'
  have ht := hs before t hcut
  rw [depthChange, depthChange, hp.isSome_afterClosing? ht u u', hp.opensBody_eq ht u u']

/-! ## Putting a text in

The counts of the two texts are compared at every place: in front of what is put in they are the
same, and behind it they differ by what it changes. -/

/-- A body in front of its closing tag, as conditions on the count. -/
theorem takeBody_eq_some_self_iff {body closing : Text} :
    p.takeBody m 0 (body ++ m.tagOpening :: (closing ++ rest)) = some (body, rest) ↔
      p.afterClosing? m (closing ++ rest) = some rest ∧
        p.depthAt m 1 (body.length + 1) (body ++ m.tagOpening :: (closing ++ rest)) = 0 ∧
        ∀ n ≤ body.length, p.depthAt m 1 n (body ++ m.tagOpening :: (closing ++ rest)) ≠ 0 := by
  rw [takeBody_eq_some_iff]
  constructor
  · rintro ⟨closing', htext, hends⟩
    have hclosing : closing ++ rest = closing' ++ rest :=
      (List.cons.inj (List.append_cancel_left htext)).2
    obtain rfl := List.append_cancel_right hclosing
    exact hends
  · intro h
    exact ⟨closing, rfl, h⟩

/-- No place in front of the closing tag of a body is outside of it. -/
theorem depthAt_ne_zero {before behind closing : Text} (hsettled : p.Settled m before)
    (h : p.takeBody m 0 (before ++ behind ++ m.tagOpening :: (closing ++ rest)) =
      some (before ++ behind, rest)) : p.depthAt m 1 before.length before ≠ 0 := by
  have hopen := (takeBody_eq_some_self_iff.mp h).2.2 before.length (by simp)
  rw [List.append_assoc, hsettled.depthAt_eq 1 (Nat.le_refl _) _ [], List.append_nil] at hopen
  exact hopen

/-- A text matters in a body by the tags of the name in it. -/
theorem takeBody_insert_iff {before behind closing : Text} (inserted : Text)
    (hsettled : p.Settled m before)
    (h : p.takeBody m 0 (before ++ behind ++ m.tagOpening :: (closing ++ rest)) =
      some (before ++ behind, rest)) :
    p.takeBody m 0 (before ++ inserted ++ behind ++ m.tagOpening :: (closing ++ rest)) =
        some (before ++ inserted ++ behind, rest) ↔
      p.Balances m (p.depthAt m 1 before.length before) inserted
        (behind ++ m.tagOpening :: (closing ++ rest)) := by
  rw [takeBody_eq_some_self_iff] at h ⊢
  obtain ⟨hclosing, hend, hopen⟩ := h
  simp only [List.append_assoc, List.length_append, Nat.add_assoc] at hend hopen ⊢
  generalize hu : behind ++ m.tagOpening :: (closing ++ rest) = u at hend hopen ⊢
  -- The count in front of the place is the same in both texts, and so it is `depth`.
  generalize hdepth : p.depthAt m 1 before.length before = depth
  have hbefore : ∀ v, p.depthAt m 1 before.length (before ++ v) = depth := by
    intro v
    rw [hsettled.depthAt_eq 1 (Nat.le_refl _) v [], List.append_nil, hdepth]
  have hfrom : ∀ n v, p.depthAt m 1 (before.length + n) (before ++ v) = p.depthAt m depth n v := by
    intro n v
    rw [depthAt_append, hbefore]
  -- Behind what is put in, all counts differ from the old ones by what it has changed.
  have hbehind : ∀ n, p.depthAt m depth (inserted.length + n) (inserted ++ u) =
      p.depthAt m depth n u + (p.depthAt m depth inserted.length (inserted ++ u) - depth) := by
    intro n
    rw [depthAt_append, ← depthAt_add]
    congr 1
    omega
  rw [hfrom] at hend
  constructor
  · rintro ⟨-, hend', hopen'⟩
    rw [hfrom, hbehind, hend] at hend'
    refine ⟨by omega, fun n hn => ?_⟩
    rw [← hfrom]
    exact hopen' _ (by omega)
  · rintro ⟨hsame, hpositive⟩
    refine ⟨hclosing, ?_, fun n hn => ?_⟩
    · rw [hfrom, hbehind, hend, hsame]
      omega
    -- A place is in front of what is put in, inside of it or behind it.
    · rcases Nat.le_total n before.length with hle | hle
      · rw [hsettled.depthAt_eq 1 hle _ u]
        exact hopen n (by omega)
      · obtain ⟨k, rfl⟩ := Nat.exists_eq_add_of_le hle
        rw [hfrom]
        rcases Nat.le_total k inserted.length with hk | hk
        · exact hpositive k hk
        · obtain ⟨j, rfl⟩ := Nat.exists_eq_add_of_le hk
          rw [hbehind, hsame, Int.sub_self, Int.add_zero, ← hfrom]
          exact hopen _ (by omega)

end TagPattern

namespace Engine

/-- What reading a body returns and what it leaves, in terms of the text ahead only. -/
theorem exists_readBody_iff {name : Text} {isMacro : Bool} {machine : Machine} {r : Reader}
    {body rest : Text} :
    (∃ machine', readBody name isMacro (machine.withReader r) = .ok body machine' ∧
        machine'.parser.reader.unread = rest) ↔
      (bodyPattern name isMacro machine).takeBody machine.parser.settings.markers 0 r.unread =
        some (body, rest) := by
  -- Skipping is counted in characters, so what is left behind it is worked out from the lengths.
  have hskip : ∀ {rest'}, (bodyPattern name isMacro machine).takeBody
        machine.parser.settings.markers 0 r.unread = some (body, rest') →
      (Reader.skip (r.available - rest'.length) r).unread = rest' := by
    intro rest' htake
    obtain ⟨closing, hends⟩ := TagPattern.takeBody_eq_some_iff.mp htake
    obtain ⟨hlength, hunread⟩ := unread_skip_of_endsBody hends
    rw [hlength, hunread]
  constructor
  · rintro ⟨machine', hread, rfl⟩
    obtain ⟨rest', htake, rfl⟩ := readBody_eq_ok_iff.mp hread
    exact htake.trans (congrArg (fun t => some (body, t)) (hskip htake).symm)
  · intro htake
    exact ⟨_, readBody_eq_ok_iff.mpr ⟨rest, htake, rfl⟩, hskip htake⟩

/-- **A text may be put into a body if the tags of the name balance in it**, and only then: the body
ends where it did, with the text in it. A text without such tags may always be put in. Whether the
text is a comment does not come in, as capturing has no notion of comments. The two readers are any
that hold the two texts, in however many sequences. -/
theorem readBody_insert_iff (name : Text) (isMacro : Bool) (machine : Machine)
    {before inserted behind closing rest : Text} {r r' : Reader}
    (hr : r.unread =
      before ++ behind ++ machine.parser.settings.markers.tagOpening :: (closing ++ rest))
    (hr' : r'.unread = before ++ inserted ++ behind ++
      machine.parser.settings.markers.tagOpening :: (closing ++ rest))
    (hbody : ∃ machine', readBody name isMacro (machine.withReader r) =
      .ok (before ++ behind) machine' ∧ machine'.parser.reader.unread = rest)
    (hbefore : (bodyPattern name isMacro machine).Settled machine.parser.settings.markers before ∨
      (bodyPattern name isMacro machine).Unquoted machine.parser.settings.markers ∧
        machine.parser.settings.markers.EndsTags before) :
    ((∃ machine', readBody name isMacro (machine.withReader r') =
          .ok (before ++ inserted ++ behind) machine' ∧ machine'.parser.reader.unread = rest) ↔
      (bodyPattern name isMacro machine).Balances machine.parser.settings.markers
        ((bodyPattern name isMacro machine).depthAt machine.parser.settings.markers 1
          before.length before)
        inserted (behind ++ machine.parser.settings.markers.tagOpening :: (closing ++ rest))) ∧
    ((∀ front t, inserted = front ++ machine.parser.settings.markers.tagOpening :: t →
        (bodyPattern name isMacro machine).depthChange machine.parser.settings.markers
          (t ++ (behind ++ machine.parser.settings.markers.tagOpening :: (closing ++ rest))) = 0) →
      ∃ machine', readBody name isMacro (machine.withReader r') =
        .ok (before ++ inserted ++ behind) machine' ∧ machine'.parser.reader.unread = rest) := by
  have hsettled : (bodyPattern name isMacro machine).Settled machine.parser.settings.markers
      before := by
    rcases hbefore with hsettled | ⟨hname, hends⟩
    · exact hsettled
    · exact TagPattern.settled_of_endsTags hname hends
  rw [exists_readBody_iff, hr] at hbody
  rw [exists_readBody_iff, hr']
  have hiff := TagPattern.takeBody_insert_iff inserted hsettled hbody
  refine ⟨hiff, fun hnone => hiff.mpr ?_⟩
  exact TagPattern.balances_of_depthChange_eq_zero
    (TagPattern.depthAt_ne_zero hsettled hbody) hnone

/-- A comment with a tag of the name in it that is closed there, put in behind a tag with a quoted
attribute. -/
theorem readBody_insert_iff_comment :
    let machine : Machine := {}
    let before := "<:if \">\">".toList
    let inserted := "<!-- <:if x></:if> -->".toList
    let behind := "y</:if>".toList
    let after := '<' :: ("/:if>".toList ++ "z".toList)
    ({} : Markers).IsComment true inserted ∧
    (∃ machine', readBody "if".toList true
        (machine.withReader (Reader.ofText [] (before ++ behind ++ after))) =
      .ok (before ++ behind) machine' ∧ machine'.parser.reader.unread = "z".toList) ∧
    ((bodyPattern "if".toList true machine).Unquoted {} ∧ ({} : Markers).EndsTags before) ∧
    ∃ machine', readBody "if".toList true
        (machine.withReader (Reader.ofText [] (before ++ inserted ++ behind ++ after))) =
      .ok (before ++ inserted ++ behind) machine' ∧ machine'.parser.reader.unread = "z".toList := by
  intro machine before inserted behind after
  have hcomment : ({} : Markers).IsComment true inserted := by
    have hinserted : inserted = '<' :: '!' :: "-- <:if x></:if> -->".toList := by decide +kernel
    rw [hinserted]
    refine Markers.isComment_of_afterComment? (by decide) ?_
    simp [Markers.afterComment?, Markers.isRemark, Markers.afterRemark?, Markers.commentStart,
      Markers.commentEnd]
  have hbody : ∃ machine', readBody "if".toList true
      (machine.withReader (Reader.ofText [] (before ++ behind ++ after))) =
      .ok (before ++ behind) machine' ∧ machine'.parser.reader.unread = "z".toList :=
    exists_readBody_iff.mpr (by decide +kernel)
  have hname : (bodyPattern "if".toList true machine).Unquoted {} := by
    refine ⟨fun c hc d hd => ?_, by decide, by decide, by decide⟩
    obtain rfl : d = c := eq_of_beq hd
    have hmem : d ∈ "if".toList := hc
    obtain rfl | rfl : d = 'i' ∨ d = 'f' := by simpa using hmem
    · decide
    · decide
  have hends : ({} : Markers).EndsTags before := by
    simp [before, Markers.endsTags_cons_iff, Markers.endsTags_nil, Markers.quoteBehind?, nextQuote,
      isQuote]
  have hunread : ∀ t, (Reader.ofText [] t).unread = t := fun t => by
    rw [Reader.ofText, Reader.unread_append]
    exact List.append_nil t
  refine ⟨hcomment, hbody, ⟨hname, hends⟩, ?_⟩
  exact (readBody_insert_iff "if".toList true machine (hunread _) (hunread _) hbody
    (.inr ⟨hname, hends⟩)).1.mpr ⟨by decide +kernel, by decide +kernel⟩

/-- A comment with the closing tag of the body in it is not taken as a whole: the body ends inside
of it. -/
theorem not_readBody_comment :
    ({} : Markers).IsComment true "<!-- </:if> -->".toList ∧ ({} : Markers).EndsTags [] ∧
    (∃ machine', readBody "if".toList true
        (({} : Machine).withReader (Reader.ofText [] "a</:if>".toList)) =
      .ok "a".toList machine' ∧ machine'.parser.reader.unread = []) ∧
    ¬ ∃ machine', readBody "if".toList true
        (({} : Machine).withReader (Reader.ofText [] "<!-- </:if> -->a</:if>".toList)) =
      .ok "<!-- </:if> -->a".toList machine' ∧ machine'.parser.reader.unread = [] := by
  refine ⟨?_, Markers.endsTags_nil, exists_readBody_iff.mpr (by decide +kernel), ?_⟩
  · have hcomment : "<!-- </:if> -->".toList = '<' :: '!' :: "-- </:if> -->".toList := by
      decide +kernel
    rw [hcomment]
    refine Markers.isComment_of_afterComment? (by decide) ?_
    simp [Markers.afterComment?, Markers.isRemark, Markers.afterRemark?, Markers.commentStart,
      Markers.commentEnd]
  · rw [exists_readBody_iff]
    decide +kernel

end Engine

end MarkupTemplate
