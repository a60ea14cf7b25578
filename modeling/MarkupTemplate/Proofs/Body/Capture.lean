import MarkupTemplate.Proofs.Tag.Opening
import MarkupTemplate.Tag.Body

/-!
# Where a body ends

A body is captured on sight: at every tag marker the text ahead is looked at, and the tags of the
one name that counts are counted. `depthAt` is that count, taken from the start of the text, and
`EndsBody` says that a place is the first at which it comes down to zero. `takeBody_eq_some_iff` is
the statement that capturing finds this place and no other one.

The count is an integer and goes on behind the end of the body, below zero if need be. So it can be
compared between texts that are put together differently, which the number of open tags that
capturing keeps could not: that one stops where the body ends.

A text is **level** if capturing passes over it, whatever stands behind it and however deep it is:
it closes what it opens, and nothing in it reaches beyond its end. Level texts can be put one after
another, and between an opening tag and a closing one.
-/

set_option autoImplicit false

namespace MarkupTemplate

namespace TagPattern

/-! ## Counting

A tag counts by what stands behind its opening marker, up to the end of the tag, and a marker that
begins no tag of the name does not count. Nothing is skipped: a marker inside of a comment, of a
quoted attribute or of a placeholder is looked at like any other. -/

/-- What a tag does to the depth, given from behind its opening marker. -/
def depthChange (p : TagPattern) (m : Markers) (t : Text) : Int :=
  if (p.afterClosing? m t).isSome then -1 else if p.opensBody m t then 1 else 0

/-- The depth behind so many characters of a text. -/
def depthAt (p : TagPattern) (m : Markers) : Int → Nat → Text → Int
  | depth, 0, _ => depth
  | depth, _ + 1, [] => depth
  | depth, n + 1, c :: t =>
    depthAt p m (if c = m.tagOpening then depth + p.depthChange m t else depth) n t

/-- Whether a text is the given body, a closing tag at which the depth is zero for the first time,
and the given rest. -/
def EndsBody (p : TagPattern) (m : Markers) (depth : Int) (t body closing rest : Text) : Prop :=
  t = body ++ m.tagOpening :: (closing ++ rest) ∧ p.afterClosing? m (closing ++ rest) = some rest ∧
    p.depthAt m depth (body.length + 1) t = 0 ∧ ∀ n ≤ body.length, p.depthAt m depth n t ≠ 0

variable {p : TagPattern} {m : Markers}

/-- Behind its first character a text ends where its rest does. -/
theorem endsBody_cons {c : Char} {t body closing rest : Text} {depth : Int} (hd : depth ≠ 0) :
    p.EndsBody m depth (c :: t) (c :: body) closing rest ↔
      p.EndsBody m (if c = m.tagOpening then depth + p.depthChange m t else depth) t
        body closing rest := by
  unfold EndsBody
  simp only [List.cons_append, List.cons.injEq, true_and, List.length_cons, depthAt]
  refine and_congr_right fun _ => and_congr_right fun _ => and_congr_right fun _ => ?_
  constructor
  · intro h n hn
    exact h (n + 1) (Nat.succ_le_succ hn)
  · intro h n hn
    cases n with
    | zero => exact hd
    | succ n => exact h n (Nat.le_of_succ_le_succ hn)

/-- No body ends before a character at which the depth is not zero yet. -/
theorem not_endsBody_nil {c : Char} {t closing rest : Text} {depth : Int}
    (h : (if c = m.tagOpening then depth + p.depthChange m t else depth) ≠ 0) :
    ¬ p.EndsBody m depth (c :: t) [] closing rest := by
  rintro ⟨_, _, hzero, _⟩
  exact h hzero

/-- **A body is captured up to the first place where the depth is zero.** It is an equivalence, so
it also says that nothing is captured where the count never comes down. -/
theorem takeBody_eq_some_iff {depth : Nat} {t body rest : Text} :
    p.takeBody m depth t = some (body, rest) ↔
      ∃ closing, p.EndsBody m (depth + 1) t body closing rest := by
  -- On the text. The depth and the body change with it, as the first character may be a tag and
  -- becomes the first of the body.
  induction t generalizing depth body with
  | nil =>
    constructor
    · intro h
      exact absurd h (by simp [takeBody])
    · rintro ⟨closing, ht, _⟩
      exact absurd ht (by simp)
  | cons c t ih =>
    -- Where the first character does not end the body, it is a part of it.
    have step : ∀ next : Nat,
        (if c = m.tagOpening then (depth + 1 : Int) + p.depthChange m t else depth + 1) = next + 1 →
        ((p.takeBody m next t).map (Prod.map (c :: ·) id) = some (body, rest) ↔
          ∃ closing, p.EndsBody m (depth + 1) (c :: t) body closing rest) := by
      intro next hnext
      rw [Option.map_eq_some_iff]
      constructor
      · rintro ⟨⟨body', rest'⟩, htake, heq⟩
        obtain ⟨rfl, rfl⟩ := Prod.mk.inj heq
        obtain ⟨closing, hends⟩ := ih.mp htake
        exact ⟨closing, (endsBody_cons (by omega)).mpr (by rw [hnext]; exact hends)⟩
      · rintro ⟨closing, hends⟩
        cases body with
        | nil => exact absurd hends (not_endsBody_nil (by rw [hnext]; omega))
        | cons d body =>
          obtain rfl : c = d := (List.cons.inj hends.1).1
          rw [endsBody_cons (by omega), hnext] at hends
          exact ⟨(body, rest), ih.mpr ⟨closing, hends⟩, rfl⟩
    rw [takeBody]
    split
    · next hc =>
      cases hclose : p.afterClosing? m t with
      | some rest' =>
        have hchange : p.depthChange m t = -1 := by simp [depthChange, hclose]
        cases depth with
        | zero =>
          constructor
          · intro h
            obtain ⟨rfl, rfl⟩ := Prod.mk.inj (Option.some.inj h)
            obtain ⟨closing, rfl⟩ := isSuffix_of_afterClosing? hclose
            refine ⟨closing, by rw [hc]; rfl, hclose, ?_, ?_⟩
            · simp [depthAt, hc, hchange]
            · intro n hn
              obtain rfl := Nat.le_zero.mp hn
              simp [depthAt]
          · rintro ⟨closing, ht, hrest, _, hnot⟩
            cases body with
            | nil =>
              obtain ⟨_, rfl⟩ := List.cons.inj ht
              rw [hclose] at hrest
              rw [Option.some.inj hrest]
            | cons d body =>
              have := hnot 1 (by simp)
              simp [depthAt, hc, hchange] at this
        | succ depth => exact step depth (by rw [if_pos hc, hchange]; omega)
      | none =>
        have hchange : p.depthChange m t = if p.opensBody m t then 1 else 0 := by
          simp [depthChange, hclose]
        refine step _ ?_
        rw [if_pos hc, hchange]
        split <;> omega
    · next hc => exact step depth (by rw [if_neg hc])

/-! ## Level texts

Beside the count, a second way to say what is captured: not where a body ends, but which texts can
never end one. It fits texts that are put together from parts. -/

/-- Whether capturing takes a text into every body it stands in, and goes on behind it as if it were
not there. -/
def Level (p : TagPattern) (m : Markers) (s : Text) : Prop :=
  ∀ depth t, p.takeBody m depth (s ++ t) = (p.takeBody m depth t).map (Prod.map (s ++ ·) id)

theorem level_nil : p.Level m [] := by
  intro depth t
  rw [List.nil_append]
  cases p.takeBody m depth t <;> rfl

/-- Taking two texts into a body one after another is taking them in together. -/
theorem map_map_append (s s' : Text) (x : Option (Text × Text)) :
    (x.map (Prod.map (s' ++ ·) id)).map (Prod.map (s ++ ·) id) =
      x.map (Prod.map (s ++ s' ++ ·) id) := by
  cases x <;> simp [Prod.map]

theorem Level.append {s s' : Text} (h : p.Level m s) (h' : p.Level m s') :
    p.Level m (s ++ s') := by
  intro depth t
  rw [List.append_assoc, h, h', map_map_append]

/-- A tag that opens no body, up to where plain text follows. -/
theorem takeBody_opening {depth : Nat} {t : Text} (h : p.afterClosing? m t = none) :
    p.takeBody m depth (m.tagOpening :: t) =
      (p.takeBody m (if p.opensBody m t then depth + 1 else depth) t).map
        (Prod.map ([m.tagOpening] ++ ·) id) := by
  rw [takeBody, if_pos rfl, h]
  rfl

/-- A closing tag of something inside of the body is a part of the body, with what follows it one
less deep. -/
theorem takeBody_closing {depth : Nat} {t rest : Text} (h : p.afterClosing? m t = some rest) :
    p.takeBody m (depth + 1) (m.tagOpening :: t) =
      (p.takeBody m depth t).map (Prod.map ([m.tagOpening] ++ ·) id) := by
  rw [takeBody, if_pos rfl, h]
  rfl

theorem takeBody_end {t rest : Text} (h : p.afterClosing? m t = some rest) :
    p.takeBody m 0 (m.tagOpening :: t) = some ([], rest) := by
  rw [takeBody, if_pos rfl, h]

theorem level_of_notMem {s : Text} (h : m.tagOpening ∉ s) : p.Level m s := by
  intro depth t
  induction s with
  | nil => exact level_nil depth t
  | cons c s ih =>
    have hc : c ≠ m.tagOpening := fun heq => h (heq ▸ List.mem_cons_self)
    have hs : m.tagOpening ∉ s := fun hs => h (List.mem_cons_of_mem _ hs)
    rw [List.cons_append, takeBody, if_neg hc, ih hs]
    exact map_map_append [c] s _

/-- A tag that neither closes a body nor opens one. -/
theorem level_of_not_opensBody {s : Text} (hs : m.tagOpening ∉ s)
    (hclose : ∀ t, p.afterClosing? m (s ++ t) = none)
    (hopen : ∀ t, p.opensBody m (s ++ t) = false) : p.Level m (m.tagOpening :: s) := by
  intro depth t
  rw [List.cons_append, takeBody_opening (hclose t), hopen t, if_neg (by simp),
    level_of_notMem hs depth t, map_map_append]
  rfl

/-- A tag with its body and its closing tag. -/
theorem Level.nested {opening body closing : Text} (hbody : p.Level m body)
    (ho : m.tagOpening ∉ opening) (hc : m.tagOpening ∉ closing)
    (hclose : ∀ t, p.afterClosing? m (opening ++ t) = none)
    (hopen : ∀ t, p.opensBody m (opening ++ t) = true)
    (hend : ∀ t, p.afterClosing? m (closing ++ t) = some t) :
    p.Level m (m.tagOpening :: opening ++ body ++ m.tagOpening :: closing) := by
  intro depth t
  simp only [List.cons_append, List.append_assoc]
  rw [takeBody_opening (hclose _), hopen, if_pos rfl, level_of_notMem ho, hbody,
    takeBody_closing (hend t), level_of_notMem hc]
  simp only [map_map_append]
  congr 2
  funext x
  simp

end TagPattern

end MarkupTemplate
