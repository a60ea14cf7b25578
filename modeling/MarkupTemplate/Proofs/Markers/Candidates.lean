import MarkupTemplate.Markers

/-!
# Candidates for substitution

A candidate is an opening marker, a name that holds neither marker, and a closing marker. Two of
them cannot overlap, as the second would begin with an opening marker inside of the first. So a text
falls into candidates and single characters in one way only (`segments`), and a candidate stands
somewhere in the text just if it is one of the segments there (`isCandidateAt_iff`).

Substitution is a walk over the segments: it looks each candidate up once, from left to right, and
puts the answer in its place or else leaves it as it was written. That it goes back to the character
behind the opening marker when there is no answer makes no difference, since no candidate begins in
the name or the closing marker that it passes over again. What it puts in is never looked at, so it
does not matter which markers the answers have.

The look-up is a computation in any lawful monad, as it is an action of the host in one use, a
variable in a second and the position of an iteration in a third. That there is one look-up for each
candidate, in their order, is part of the equation: it is a `mapM` over the segments.
-/

set_option autoImplicit false

namespace MarkupTemplate

/-- What a text is made of for substitution: characters, and candidates by their names. -/
inductive Segment where
  | char (c : Char)
  | candidate (name : Text)

namespace Segment

variable {μ : Type → Type} [Monad μ]

/-- What a segment is written as. -/
def text (m : Markers) : Segment → Text
  | char c => [c]
  | candidate name => m.placeholder name

/-- What a segment is replaced by: itself, unless it is a candidate for which there is an answer. -/
def replacedM (m : Markers) (lookup : Text → μ (Option Text)) : Segment → μ Text
  | char c => pure [c]
  | candidate name => return (← lookup name).getD (m.placeholder name)

/-- The same where looking up does nothing besides. -/
def replaced (m : Markers) (lookup : Text → Option Text) : Segment → Text
  | char c => [c]
  | candidate name => (lookup name).getD (m.placeholder name)

end Segment

namespace Markers

/-- The text that segments are the segments of. -/
def written (m : Markers) (segments : List Segment) : Text := segments.flatMap (Segment.text m)

/-- Whether a candidate stands in a text behind a number of characters. This is said without the
walk: only the text, the place and the name occur in it. -/
structure IsCandidateAt (m : Markers) (t : Text) (start : Nat) (name : Text) : Prop where
  opening : m.argumentOpening ∉ name
  closing : m.argumentClosing ∉ name
  stands : m.placeholder name <+: t.drop start

/-- The segments of a text, from left to right. An opening marker without a candidate behind it is a
character like others. -/
def segments (m : Markers) : Text → List Segment
  | [] => []
  | c :: t =>
    if c = m.argumentOpening then
      match _h : m.candidate? t with
      | some (name, rest) => .candidate name :: segments m rest
      | none => .char c :: segments m t
    else .char c :: segments m t
termination_by t => t.length
decreasing_by
  · exact Nat.lt_succ_of_lt (length_lt_of_candidate? _h)
  all_goals exact Nat.lt_succ_self _

variable {m : Markers} {t name rest : Text} {start : Nat}

/-! ## Names in placeholders -/

theorem placeholder_append (m : Markers) (name t : Text) :
    m.placeholder name ++ t = m.argumentOpening :: (name ++ m.argumentClosing :: t) := by
  simp [placeholder]

theorem candidate?_append (ho : m.argumentOpening ∉ name)
    (hc : m.argumentClosing ∉ name) (t : Text) :
    m.candidate? (name ++ m.argumentClosing :: t) = some (name, t) := by
  rw [candidate?, Text.splitFirst?_append hc]
  exact if_neg ho

/-! ## Segments

Nothing is lost in cutting, and no candidate among the segments has a marker in its name. -/

theorem written_segments (m : Markers) (t : Text) : m.written (m.segments t) = t := by
  fun_induction segments m t with
  | case1 => rfl
  | case2 t name rest hcandidate ih =>
    have hwritten : m.written (.candidate name :: m.segments rest) =
        m.placeholder name ++ m.written (m.segments rest) := rfl
    rw [hwritten, ih, (eq_of_candidate? hcandidate).1]
    simp [placeholder]
  | case3 t hcandidate ih => exact congrArg (m.argumentOpening :: ·) ih
  | case4 c t hc ih => exact congrArg (c :: ·) ih

theorem notMem_of_mem_segments (h : .candidate name ∈ m.segments t) :
    m.argumentOpening ∉ name ∧ m.argumentClosing ∉ name := by
  fun_induction segments m t with
  | case1 => cases h
  | case2 t name' rest hcandidate ih =>
    rcases List.mem_cons.mp h with heq | h
    · obtain rfl := Segment.candidate.inj heq
      exact (eq_of_candidate? hcandidate).2
    · exact ih h
  | case3 t hcandidate ih => exact ih (by simpa using h)
  | case4 c t hc ih => exact ih (by simpa using h)

/-! ## Candidates

That a candidate is found where it stands is the easy half. That the walk does not run past the
beginning of another one is where the markers have to be different. -/

theorem IsCandidateAt.of_append {s : Text} (h : m.IsCandidateAt (s ++ t) (s.length + start) name) :
    m.IsCandidateAt t start name :=
  ⟨h.opening, h.closing, by simpa only [← List.drop_drop, List.drop_left] using h.stands⟩

theorem IsCandidateAt.getElem? (h : m.IsCandidateAt t start name) :
    t[start]? = some m.argumentOpening := by
  obtain ⟨behind, hbehind⟩ := h.stands
  have hhead := congrArg List.head? hbehind
  rw [List.head?_drop] at hhead
  exact hhead.symm

/-- A candidate at the front is the one that is found there. -/
theorem IsCandidateAt.candidate? {c : Char} (h : m.IsCandidateAt (c :: t) 0 name) :
    ∃ rest, m.candidate? t = some (name, rest) := by
  obtain ⟨behind, hbehind⟩ := h.stands
  have htail : name ++ m.argumentClosing :: behind = t := by
    simpa [placeholder] using (List.cons.inj hbehind).2
  exact ⟨behind, htail ▸ candidate?_append h.opening h.closing behind⟩

/-- Candidates do not overlap: no other one begins inside of a candidate. -/
theorem IsCandidateAt.length_le (hm : m.argumentOpening ≠ m.argumentClosing) {start' : Nat}
    {name' : Text} (h : m.IsCandidateAt t start name) (h' : m.IsCandidateAt t start' name')
    (hlt : start < start') : start + (m.placeholder name).length ≤ start' := by
  obtain ⟨k, rfl⟩ := Nat.exists_eq_add_of_lt hlt
  -- If the second one began inside of the first, its opening marker would be a part of the name.
  refine Nat.le_of_not_lt fun hinside => ?_
  obtain ⟨behind, hbehind⟩ := h.stands
  have hfirst := h'.getElem?
  rw [Nat.add_assoc, ← List.getElem?_drop, ← hbehind,
    List.getElem?_append_left (by omega)] at hfirst
  have hmem : m.argumentOpening ∈ name ++ [m.argumentClosing] :=
    List.mem_of_getElem? (by simpa [placeholder] using hfirst)
  rcases List.mem_append.mp hmem with hmem | hmem
  · exact h.opening hmem
  · exact hm (List.mem_singleton.mp hmem)

/-- **A candidate stands in a text just if it is one of its segments**, behind those that are
written with as many characters. -/
theorem isCandidateAt_iff (hm : m.argumentOpening ≠ m.argumentClosing) :
    m.IsCandidateAt t start name ↔
      ∃ before after, m.segments t = before ++ .candidate name :: after ∧
        (m.written before).length = start := by
  constructor
  · intro h
    -- By the cut: a candidate that stands somewhere is the first segment, or starts behind it.
    fun_induction segments m t generalizing start with
    | case1 => simpa using h.getElem?
    | case2 t name' rest hcandidate ih =>
      obtain ⟨rfl, hopening, hclosing⟩ := eq_of_candidate? hcandidate
      rw [← placeholder_append] at h
      have hfirst : m.IsCandidateAt (m.placeholder name' ++ rest) 0 name' :=
        ⟨hopening, hclosing, List.prefix_append _ _⟩
      rcases Nat.eq_zero_or_pos start with rfl | hpos
      · rw [placeholder_append] at h
        obtain ⟨rest', hcandidate'⟩ := h.candidate?
        obtain ⟨rfl, rfl⟩ := Prod.mk.inj (Option.some.inj (hcandidate.symm.trans hcandidate'))
        exact ⟨[], m.segments rest, rfl, rfl⟩
      · obtain ⟨k, rfl⟩ := Nat.exists_eq_add_of_le (hfirst.length_le hm h hpos)
        rw [Nat.zero_add] at h ⊢
        obtain ⟨before, after, hsegments, rfl⟩ := ih h.of_append
        refine ⟨.candidate name' :: before, after, by rw [hsegments]; rfl, ?_⟩
        exact List.length_append
    | case3 t hcandidate ih =>
      cases start with
      | zero =>
        obtain ⟨rest, hcandidate'⟩ := h.candidate?
        cases hcandidate.symm.trans hcandidate'
      | succ k =>
        obtain ⟨before, after, hsegments, rfl⟩ := ih ⟨h.opening, h.closing, h.stands⟩
        exact ⟨.char m.argumentOpening :: before, after, by rw [hsegments]; rfl, rfl⟩
    | case4 c t hc ih =>
      cases start with
      | zero => exact absurd (by simpa using h.getElem?) hc
      | succ k =>
        obtain ⟨before, after, hsegments, rfl⟩ := ih ⟨h.opening, h.closing, h.stands⟩
        exact ⟨.char c :: before, after, by rw [hsegments]; rfl, rfl⟩
  · rintro ⟨before, after, hsegments, rfl⟩
    have hmem : Segment.candidate name ∈ m.segments t := by
      rw [hsegments]
      simp
    obtain ⟨hopening, hclosing⟩ := notMem_of_mem_segments hmem
    refine ⟨hopening, hclosing, m.written after, ?_⟩
    have ht := written_segments m t
    rw [hsegments] at ht
    rw [← ht]
    simp [written, Segment.text]

/-! ## Substitution -/

section

variable {μ : Type → Type} [Monad μ] [LawfulMonad μ] {lookup : Text → μ (Option Text)}

/-- Characters that are no opening markers stay as they are, and nothing is looked up for them. -/
theorem substituteM_append {s : Text} (hs : m.argumentOpening ∉ s) (t : Text) :
    m.substituteM lookup (s ++ t) = (s ++ ·) <$> m.substituteM lookup t := by
  induction s with
  | nil => simp
  | cons c s ih =>
    rw [List.mem_cons, not_or] at hs
    rw [List.cons_append, substituteM, if_neg (Ne.symm hs.1), ih hs.2]
    simp

/-- What is looked up is the name of a candidate, and behind a candidate the walk goes on with the
text behind it, whatever the answer. -/
theorem substituteM_placeholder (hm : m.argumentOpening ≠ m.argumentClosing)
    (hopening : m.argumentOpening ∉ name) (hclosing : m.argumentClosing ∉ name) (t : Text) :
    m.substituteM lookup (m.placeholder name ++ t) = do
      let part ← (Segment.candidate name).replacedM m lookup
      return part ++ (← m.substituteM lookup t) := by
  have hcandidate := candidate?_append hopening hclosing t
  have hsplit : m.placeholder name ++ t =
      m.argumentOpening :: (name ++ m.argumentClosing :: t) := by
    simp [placeholder]
  -- Without an answer the walk goes over the name and the closing marker again, and finds
  -- nothing.
  have hagain : m.substituteM lookup (name ++ m.argumentClosing :: t) =
      ((name ++ [m.argumentClosing]) ++ ·) <$> m.substituteM lookup t := by
    have hpassed : m.argumentOpening ∉ name ++ [m.argumentClosing] := by simp [hopening, hm]
    rw [← substituteM_append hpassed, List.append_assoc, List.singleton_append]
  rw [hsplit, substituteM, if_pos rfl]
  split
  · next name' rest h =>
    obtain ⟨rfl, rfl⟩ := Prod.mk.inj (Option.some.inj (h.symm.trans hcandidate))
    simp only [Segment.replacedM, bind_assoc, pure_bind]
    congr 1
    funext answer
    cases answer with
    | some value => rfl
    | none =>
      rw [hagain]
      simp [placeholder]
  · next h => cases h.symm.trans hcandidate

/-- **Substitution replaces one segment after another.** The induction is that of `segments`, so
that each of its cases is one step of the walk. -/
theorem substituteM_eq (hm : m.argumentOpening ≠ m.argumentClosing) (t : Text) :
    m.substituteM lookup t =
      List.flatten <$> (m.segments t).mapM (Segment.replacedM m lookup) := by
  fun_induction segments m t with
  | case1 => simp [substituteM]
  | case2 t name rest hcandidate ih =>
    obtain ⟨rfl, hopening, hclosing⟩ := eq_of_candidate? hcandidate
    rw [← placeholder_append, substituteM_placeholder hm hopening hclosing, ih]
    simp
  | case3 t hcandidate ih =>
    rw [substituteM, if_pos rfl]
    split
    · next name rest h => cases h.symm.trans hcandidate
    · rw [ih]
      simp [Segment.replacedM]
  | case4 c t hc ih =>
    rw [substituteM, if_neg hc, ih]
    simp [Segment.replacedM]

end

/-- Without effects the result is the text of the replaced segments. -/
theorem substitute_eq (hm : m.argumentOpening ≠ m.argumentClosing)
    (lookup : Text → Option Text) (t : Text) :
    m.substitute lookup t = (m.segments t).flatMap (Segment.replaced m lookup) := by
  have hreplaced : Segment.replacedM m (fun name => (pure (lookup name) : Id (Option Text))) =
      fun segment => pure (Segment.replaced m lookup segment) := by
    funext segment
    cases segment <;> rfl
  rw [substitute, substituteM_eq hm, hreplaced, List.mapM_pure, List.flatMap]
  rfl

/-- **Substitution is exact and single-pass.** A text falls into segments such that the candidates
in it are the segments that are candidates, and these do not overlap. Substitution looks up the
names of those, once each and from left to right whatever else the look-up does, and the result is
what the segments are replaced by. -/
theorem exists_segments (hm : m.argumentOpening ≠ m.argumentClosing) (t : Text) :
    ∃ segments : List Segment, m.written segments = t ∧
      (∀ start name, m.IsCandidateAt t start name ↔
        ∃ before after, segments = before ++ .candidate name :: after ∧
          (m.written before).length = start) ∧
      (∀ start name start' name', m.IsCandidateAt t start name → m.IsCandidateAt t start' name' →
        start < start' → start + (m.placeholder name).length ≤ start') ∧
      (∀ {μ : Type → Type} [Monad μ] [LawfulMonad μ] (lookup : Text → μ (Option Text)),
        m.substituteM lookup t = List.flatten <$> segments.mapM (Segment.replacedM m lookup)) ∧
      ∀ lookup : Text → Option Text,
        m.substitute lookup t = segments.flatMap (Segment.replaced m lookup) :=
  ⟨m.segments t, written_segments m t, fun _ _ => isCandidateAt_iff hm,
    fun _ _ _ _ h h' => h.length_le hm h', fun _ => substituteM_eq hm t,
    fun lookup => substitute_eq hm lookup t⟩

/-- In a text with stray braces, two candidates and a third one inside of further braces. -/
theorem exists_segments_braces :
    ({} : Markers).argumentOpening ≠ ({} : Markers).argumentClosing ∧
      ∃ segments : List Segment,
        ({} : Markers).written segments = "\x7ba\x7d or \x7b\x7bb\x7d\x7b".toList ∧
        ({} : Markers).IsCandidateAt "\x7ba\x7d or \x7b\x7bb\x7d\x7b".toList 8 "b".toList ∧
        segments.flatMap
            (Segment.replaced {} fun name => some (({} : Markers).placeholder (name ++ name))) =
          "\x7baa\x7d or \x7b\x7bbb\x7d\x7b".toList := by
  obtain ⟨segments, hwritten, -, -, -, hsubstitute⟩ :=
    exists_segments (m := {}) (by decide) "\x7ba\x7d or \x7b\x7bb\x7d\x7b".toList
  refine ⟨by decide, segments, hwritten, ⟨by decide, by decide, by decide⟩, ?_⟩
  rw [← hsubstitute]
  decide +kernel

end Markers

end MarkupTemplate
