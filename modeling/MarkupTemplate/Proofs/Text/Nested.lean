import MarkupTemplate.Text.Nested

/-!
# Texts that nest

A text **nests** if each marker that it opens is closed in it, and none that it has not opened. What
is taken up to a closing marker then goes on behind it as it would without it, at any depth. Plain
texts nest, and so do texts put one after another or between markers.

Nesting is said by what taking does in front of any other text, and not by counting markers. So it
is used by rewriting, and texts put together out of texts that nest need no induction.
-/

set_option autoImplicit false

namespace MarkupTemplate

namespace Text

variable {opening closing : Char} {s t : Text}

/-- Whether taking what is nested passes over a text. -/
def Nests (opening closing : Char) (s : Text) : Prop :=
  ∀ depth t, takeNested opening closing depth (s ++ t) =
    (takeNested opening closing depth t).map (s ++ ·) id

theorem nests_nil : Nests opening closing [] := fun _ _ => rfl

/-- Texts that nest can be put one after another. -/
theorem Nests.append (h : Nests opening closing s) (h' : Nests opening closing t) :
    Nests opening closing (s ++ t) := by
  intro depth rest
  rw [List.append_assoc, h, h']
  simp [Prod.map]

theorem nests_of_notMem (hopening : opening ∉ s) (hclosing : closing ∉ s) :
    Nests opening closing s := by
  intro depth t
  induction s with
  | nil => exact nests_nil depth t
  | cons c s ih =>
    have hc : c ≠ opening := Ne.symm (List.ne_of_not_mem_cons hopening)
    have hc' : c ≠ closing := Ne.symm (List.ne_of_not_mem_cons hclosing)
    have hstep : ∀ t, takeNested opening closing depth (c :: t) =
        (takeNested opening closing depth t).map (c :: ·) id := by
      intro t
      rw [takeNested.eq_def]
      simp only [if_neg hc, if_neg hc']
    rw [List.cons_append, hstep,
      ih (List.not_mem_of_not_mem_cons hopening) (List.not_mem_of_not_mem_cons hclosing)]
    rfl

/-- A text that nests ends in front of the closing marker behind it. -/
theorem Nests.takeNested (hpair : opening ≠ closing) (h : Nests opening closing s) (rest : Text) :
    takeNested opening closing 0 (s ++ closing :: rest) = (s, some rest) := by
  rw [h, Text.takeNested, if_neg (Ne.symm hpair), if_pos rfl]
  simp

/-- A text that nests does so between markers too. -/
theorem Nests.enclosed (hpair : opening ≠ closing) (h : Nests opening closing s) :
    Nests opening closing (opening :: (s ++ [closing])) := by
  intro depth t
  have hopen : ∀ t, Text.takeNested opening closing depth (opening :: t) =
      (Text.takeNested opening closing (depth + 1) t).map (opening :: ·) id := by
    intro t
    rw [Text.takeNested.eq_def]
    simp only [if_pos]
  rw [List.cons_append, List.append_assoc, List.singleton_append, hopen, h, Text.takeNested,
    if_neg (Ne.symm hpair), if_pos rfl]
  simp [Prod.map]

/-- A text without the markers ends at the first closing one. -/
theorem takeNested_of_notMem (hpair : opening ≠ closing) (hopening : opening ∉ s)
    (hclosing : closing ∉ s) (rest : Text) :
    takeNested opening closing 0 (s ++ closing :: rest) = (s, some rest) :=
  (nests_of_notMem hopening hclosing).takeNested hpair rest

theorem exists_of_map_cons {c : Char} {p : Text × Option Text} {inner rest : Text}
    (h : p.map (c :: ·) id = (inner, some rest)) : ∃ inner', c :: inner' = inner ∧
      p = (inner', some rest) := by
  obtain ⟨inner', rest'⟩ := p
  obtain ⟨rfl, rfl⟩ := Prod.mk.inj h
  exact ⟨inner', rfl, rfl⟩

/-- What a placeholder takes does not depend on what follows it. -/
theorem takeNested_append_of_some {depth : Nat} {t inner rest : Text}
    (h : takeNested opening closing depth t = (inner, some rest)) (behind : Text) :
    takeNested opening closing depth (t ++ behind) = (inner, some (rest ++ behind)) := by
  -- The walk stops inside of the text, so it never comes to what is behind.
  fun_induction takeNested opening closing depth t generalizing inner with
  | case1 => cases h
  | case2 depth t ih =>
    obtain ⟨inner', rfl, htake⟩ := exists_of_map_cons h
    rw [List.cons_append, takeNested.eq_def]
    dsimp only
    rw [if_pos rfl, ih htake]
    rfl
  | case3 t hc =>
    obtain ⟨rfl, hrest⟩ := Prod.mk.inj h
    obtain rfl := Option.some.inj hrest
    rw [List.cons_append, takeNested, if_neg hc, if_pos rfl]
  | case4 t depth hc ih =>
    obtain ⟨inner', rfl, htake⟩ := exists_of_map_cons h
    rw [List.cons_append, takeNested, if_neg hc, if_pos rfl, ih htake]
    rfl
  | case5 depth c t hc hc' ih =>
    obtain ⟨inner', rfl, htake⟩ := exists_of_map_cons h
    rw [List.cons_append, takeNested.eq_def]
    dsimp only
    rw [if_neg hc, if_neg hc', ih htake]
    rfl

end Text

end MarkupTemplate
