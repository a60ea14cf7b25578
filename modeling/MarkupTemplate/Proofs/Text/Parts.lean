import MarkupTemplate.Proofs.Text.Enclosure

/-!
# The parts of a text

A text is cut at a marker wherever that stands at top level. Nothing is open there, however
unbalanced the text is, so what is behind a cut is read as if it were a text of its own. This is why
the text can be taken apart between any two of its parts (`splitTop_of_eq_append`), and why no part
is cut a second time (`splitTop_part`).

`splitTop_lossless_and_complete` puts together what there is to say: the parts make up the text,
they are single, the first cut is the first of all cuts, and the cuts are where the marker stands
outside of quotes and placeholders.

Cutting carries the scope along, and a part begins with the empty one. The lemmas are for any scope
at the start, as the induction on the text needs it; the statements at the end are for a text of its
own.
-/

set_option autoImplicit false

namespace MarkupTemplate

namespace Markers

/-- Whether a text with a marker between two others is cut at it: some of its parts make up the one,
and all those behind them the other. -/
def IsCutBetween (m : Markers) (marker : Char) (before after : Text) : Prop :=
  ∃ front back, front ≠ [] ∧ back ≠ [] ∧
    m.splitTop marker {} (before ++ marker :: after) = front ++ back ∧
    Text.joinWith [marker] front = before ∧ Text.joinWith [marker] back = after

variable {m : Markers} {marker c : Char} {scope : Scope} {t before after first rest : Text}
  {front back : List Text}

/-! ## Cuts

A place at top level divides the parts as it divides the text, and the other way round. -/

/-- At a place at top level, a text is cut into the parts in front and those behind. -/
theorem splitTop_append (h : (scope.behind m before).isTop m marker = true) (after : Text) :
    m.splitTop marker scope (before ++ marker :: after) =
      m.splitTop marker scope before ++ m.splitTop marker {} after := by
  induction before generalizing scope with
  | nil =>
    have htop : scope.isTop m marker = true := h
    rw [List.nil_append, splitTop_cut htop, (isTop_iff.mp htop).2]
    rfl
  | cons c before ih =>
    rw [List.cons_append]
    by_cases hcut : c = marker ∧ scope.isTop m c = true
    · obtain ⟨rfl, htop⟩ := hcut
      -- A marker that is cut at leaves the scope as it is.
      have hbehind : (scope.behind m before).isTop m c = true := by
        rwa [Scope.behind, List.foldl_cons, Scope.next_of_isTop htop] at h
      rw [splitTop_cut htop, splitTop_cut htop, ih hbehind, List.cons_append]
    · rw [splitTop_cons hcut, splitTop_cons hcut, ih h]
      cases hparts : m.splitTop marker (scope.next m c) before with
      | nil => exact absurd hparts (splitTop_ne_nil m marker _ before)
      | cons part parts => rfl

/-- Between any two parts there is a place at top level, and the parts on either side are those of
the text there. -/
theorem splitTop_of_eq_append (h : m.splitTop marker scope t = front ++ back) (hfront : front ≠ [])
    (hback : back ≠ []) :
    (scope.behind m (Text.joinWith [marker] front)).isTop m marker = true ∧
      m.splitTop marker scope (Text.joinWith [marker] front) = front ∧
      m.splitTop marker {} (Text.joinWith [marker] back) = back := by
  obtain ⟨part, front, rfl⟩ := List.exists_cons_of_ne_nil hfront
  induction t generalizing scope part front with
  | nil =>
    rw [splitTop, List.cons_append, List.cons.injEq] at h
    exact absurd (List.append_eq_nil_iff.mp h.2.symm).2 hback
  | cons c t ih =>
    by_cases hcut : c = marker ∧ scope.isTop m c = true
    · obtain ⟨rfl, htop⟩ := hcut
      rw [splitTop_cut htop, List.cons_append] at h
      obtain ⟨rfl, hparts⟩ := List.cons.inj h
      cases front with
      | nil =>
        -- This is the cut between the two, and the scope at it is that of a text of its own.
        refine ⟨htop, rfl, ?_⟩
        rw [← (isTop_iff.mp htop).2, ← List.nil_append back, ← hparts, joinWith_splitTop]
      | cons next front =>
        obtain ⟨hbehind, hpart, hrest⟩ := ih next front hparts (List.cons_ne_nil _ _)
        have hjoin : Text.joinWith [c] ([] :: next :: front) =
            c :: Text.joinWith [c] (next :: front) := rfl
        rw [hjoin, Scope.behind, List.foldl_cons, Scope.next_of_isTop htop, splitTop_cut htop, hpart]
        exact ⟨hbehind, rfl, hrest⟩
    · rw [splitTop_cons hcut] at h
      obtain ⟨part', parts, hparts⟩ :=
        List.exists_cons_of_ne_nil (splitTop_ne_nil m marker (scope.next m c) t)
      rw [hparts, List.modifyHead_cons, List.cons_append] at h
      obtain ⟨rfl, rfl⟩ := List.cons.inj h
      obtain ⟨hbehind, hpart, hrest⟩ := ih part' front hparts (List.cons_ne_nil _ _)
      have hjoin : Text.joinWith [marker] ((c :: part') :: front) =
          c :: Text.joinWith [marker] (part' :: front) :=
        Text.joinWith_modifyHead [marker] c (List.cons_ne_nil part' front)
      rw [hjoin, splitTop_cons hcut, hpart]
      exact ⟨hbehind, rfl, hrest⟩

/-! ## Single parts

A part that were cut again would have had that cut in the whole text. -/

/-- A part, read as a text of its own, is not cut again. -/
theorem splitTop_part {part : Text} (h : part ∈ m.splitTop marker {} t) :
    m.splitTop marker {} part = [part] := by
  obtain ⟨front, back, hparts⟩ := List.append_of_mem h
  -- The parts from this one on are those of the text that they make up.
  have hfrom : m.splitTop marker {} (Text.joinWith [marker] (part :: back)) = part :: back := by
    by_cases hfront : front = []
    · rw [hfront, List.nil_append] at hparts
      rw [← hparts, joinWith_splitTop]
    · exact (splitTop_of_eq_append hparts hfront (List.cons_ne_nil part back)).2.2
  by_cases hback : back = []
  · rwa [hback] at hfrom
  · have hcut : m.splitTop marker {} (Text.joinWith [marker] (part :: back)) = [part] ++ back := hfrom
    exact (splitTop_of_eq_append hcut (List.cons_ne_nil part []) hback).2.1

/-! ## The first cut

Cutting once, and cutting everywhere. -/

theorem eq_of_splitTop? (h : m.splitTop? marker scope t = some (first, rest)) :
    t = first ++ marker :: rest := by
  induction t generalizing scope first with
  | nil => cases h
  | cons c t ih =>
    rw [splitTop?] at h
    split at h
    · next hcut =>
      obtain ⟨rfl, rfl⟩ := Prod.mk.inj (Option.some.inj h)
      rw [hcut.1, List.nil_append]
    · obtain ⟨⟨first', rest'⟩, hsplit, heq⟩ := Option.map_eq_some_iff.mp h
      obtain ⟨rfl, rfl⟩ := Prod.mk.inj heq
      rw [ih hsplit, List.cons_append]

/-- Cutting everywhere is cutting once, and then what is behind the cut. -/
theorem splitTop_eq (m : Markers) (marker : Char) (scope : Scope) (t : Text) :
    m.splitTop marker scope t =
      match m.splitTop? marker scope t with
      | none => [t]
      | some (first, rest) => first :: m.splitTop marker {} rest := by
  induction t generalizing scope with
  | nil => rfl
  | cons c t ih =>
    by_cases hcut : c = marker ∧ scope.isTop m c = true
    · obtain ⟨rfl, htop⟩ := hcut
      rw [splitTop_cut htop, splitTop?, if_pos ⟨rfl, htop⟩, (isTop_iff.mp htop).2]
    · rw [splitTop_cons hcut, splitTop?, if_neg hcut, ih]
      cases m.splitTop? marker (scope.next m c) t <;> rfl

/-- There is no cut just if there is one part. -/
theorem splitTop?_eq_none_iff :
    m.splitTop? marker {} t = none ↔ (m.splitTop marker {} t).length = 1 := by
  rw [splitTop_eq]
  cases m.splitTop? marker {} t with
  | none => simp
  | some cut => simp [splitTop_ne_nil]

/-- The first cut is in front of all parts but the first. -/
theorem splitTop?_eq_some_iff : m.splitTop? marker {} t = some (first, rest) ↔
    t = first ++ marker :: rest ∧ m.splitTop marker {} t = first :: m.splitTop marker {} rest := by
  constructor
  · intro h
    refine ⟨eq_of_splitTop? h, ?_⟩
    rw [splitTop_eq, h]
  · rintro ⟨ht, hparts⟩
    rw [splitTop_eq] at hparts
    cases hcut : m.splitTop? marker {} t with
    | none =>
      rw [hcut] at hparts
      exact absurd (List.cons.inj hparts).2.symm (splitTop_ne_nil m marker {} rest)
    | some cut =>
      rw [hcut] at hparts
      obtain rfl : cut.1 = first := (List.cons.inj hparts).1
      have hrest := (eq_of_splitTop? hcut).symm.trans ht
      rw [List.append_cancel_left_eq, List.cons.injEq] at hrest
      rw [← hrest.2]

/-! ## All cuts

Where the cuts are, told without cutting. -/

/-- A marker is cut at just if it is at top level. -/
theorem isCutBetween_iff : m.IsCutBetween marker before after ↔
    (Scope.behind m {} before).isTop m marker = true := by
  constructor
  · rintro ⟨front, back, hfront, hback, hparts, rfl, -⟩
    exact (splitTop_of_eq_append hparts hfront hback).1
  · intro h
    exact ⟨m.splitTop marker {} before, m.splitTop marker {} after, splitTop_ne_nil m marker {} before,
      splitTop_ne_nil m marker {} after, splitTop_append h after, joinWith_splitTop m marker {} before,
      joinWith_splitTop m marker {} after⟩

/-- **Cutting a text at top level loses nothing and misses nothing.** The parts with the marker in
between are the text, and no part can be cut again. The first cut gives the first part and what is
behind one marker, whose parts are the others, and there is none just if there is only one part. A
marker is cut at just if it is not a quote or an argument marker itself and the text in front of it
ends neither in quotes nor in a placeholder. -/
theorem splitTop_lossless_and_complete (m : Markers) (marker : Char) (t : Text) :
    Text.joinWith [marker] (m.splitTop marker {} t) = t ∧
    (∀ part ∈ m.splitTop marker {} t, m.splitTop marker {} part = [part]) ∧
    (∀ first rest, m.splitTop? marker {} t = some (first, rest) ↔
      t = first ++ marker :: rest ∧
        m.splitTop marker {} t = first :: m.splitTop marker {} rest) ∧
    (m.splitTop? marker {} t = none ↔ (m.splitTop marker {} t).length = 1) ∧
    ∀ before after, m.IsCutBetween marker before after ↔
      m.isLevel marker = true ∧ ¬ EndsInQuotes before ∧ ¬ m.EndsInPlaceholder before :=
  ⟨joinWith_splitTop m marker {} t, fun _ => splitTop_part, fun _ _ => splitTop?_eq_some_iff,
    splitTop?_eq_none_iff, fun _ _ => isCutBetween_iff.trans Scope.isTop_behind_iff⟩

/-- A closing marker with nothing to close, quotes inside of a placeholder, and a placeholder that is
never closed. -/
example : ({} : Markers).splitTop ';' {} "a;\x7d;\x7b'\x7d';\x7bb\x7d;\x7d;'c;d';\x7be;f".toList =
    ["a".toList, "\x7d".toList, "\x7b'\x7d';\x7bb\x7d;\x7d".toList, "'c;d'".toList,
      "\x7be;f".toList] := by
  decide

end Markers

end MarkupTemplate
