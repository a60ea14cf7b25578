import MarkupTemplate.Error.Diagnostics
import MarkupTemplate.Proofs.Reader.Position

/-!
# The excerpt of an error

An error shows the lines around the one it arose on, with their numbers and a mark on that line. The
number of the current line comes from counting line feeds while reading, the lines that are shown
from cutting the whole text at them. The two agree up to one case. A line feed at the end of a text
only ends its last line, but whoever has read it stands on the line behind it, which is not there to
be marked (`not_marks_current`). Wherever else a reader stands, exactly its line is marked, and in
all cases the lines shown are those that are there, up to two away (`excerpt_shows_lines`).

An excerpt is one text, with a line feed between its lines. To say which lines it has, it is cut at
the line feeds again, which gives back its lines since none of them has a line feed in it. The two
ways of counting lines meet in `Sequence.Counted.line_le`, for a sequence that was read by any run
of commands.
-/

set_option autoImplicit false

namespace MarkupTemplate

/-! ## Parts between separators

Cutting a text at all places where a character stands, and what the parts say about the text. -/

namespace Text

variable {c : Char} {s t part : Text}

theorem splitAll_append (h : c ∉ s) (t : Text) : splitAll c (s ++ c :: t) = s :: splitAll c t := by
  induction s with
  | nil => simp [splitAll]
  | cons d s ih =>
    obtain ⟨hd, hs⟩ := not_or.mp (mt List.mem_cons.mpr h)
    rw [List.cons_append, splitAll, if_neg (Ne.symm hd), ih hs]

theorem splitAll_of_notMem (h : c ∉ s) : splitAll c s = [s] := by
  induction s with
  | nil => rfl
  | cons d s ih =>
    obtain ⟨hd, hs⟩ := not_or.mp (mt List.mem_cons.mpr h)
    rw [splitAll, if_neg (Ne.symm hd), ih hs]

/-- Parts without the separator are found again between separators. There has to be a part, as
cutting never gives none. -/
theorem splitAll_joinWith {parts : List Text} (hne : parts ≠ []) (h : ∀ part ∈ parts, c ∉ part) :
    splitAll c (joinWith [c] parts) = parts := by
  induction parts with
  | nil => exact absurd rfl hne
  | cons part parts ih =>
    obtain ⟨hpart, hparts⟩ := List.forall_mem_cons.mp h
    by_cases hnil : parts = []
    · rw [hnil]
      exact splitAll_of_notMem hpart
    · rw [joinWith_cons [c] part hnil, List.append_assoc, List.singleton_append,
        splitAll_append hpart, ih hnil hparts]

/-- A character that is no separator belongs to the first part. -/
theorem splitAll_cons {d : Char} (hd : d ≠ c) (t : Text) : ∃ first others,
    splitAll c t = first :: others ∧ splitAll c (d :: t) = (d :: first) :: others := by
  cases hsplit : splitAll c t with
  | nil => exact absurd hsplit (splitAll_ne_nil c t)
  | cons first others => exact ⟨first, others, rfl, by rw [splitAll, if_neg hd, hsplit]⟩

theorem splitAll_cons_self (c : Char) (t : Text) : splitAll c (c :: t) = [] :: splitAll c t := by
  rw [splitAll, if_pos rfl]

theorem notMem_of_mem_splitAll (h : part ∈ splitAll c t) : c ∉ part := by
  induction t generalizing part with
  | nil =>
    obtain rfl := List.mem_singleton.mp h
    exact List.not_mem_nil
  | cons d t ih =>
    -- A separator begins a part, and any other character goes to the first part.
    by_cases hd : d = c
    · rw [hd, splitAll_cons_self] at h
      rcases List.mem_cons.mp h with rfl | h
      · exact List.not_mem_nil
      · exact ih h
    · obtain ⟨first, others, hsplit, hcons⟩ := splitAll_cons hd t
      rw [hsplit] at ih
      rw [hcons] at h
      rcases List.mem_cons.mp h with rfl | h
      · exact mt List.mem_cons.mp (not_or.mpr ⟨Ne.symm hd, ih List.mem_cons_self⟩)
      · exact ih (List.mem_cons_of_mem _ h)

theorem length_splitAll (c : Char) (t : Text) : (splitAll c t).length = t.count c + 1 := by
  induction t with
  | nil => rfl
  | cons d t ih =>
    by_cases hd : d = c
    · rw [hd, splitAll_cons_self, List.length_cons, ih, List.count_cons_self]
    · obtain ⟨first, others, hsplit, hcons⟩ := splitAll_cons hd t
      rw [hsplit] at ih
      rw [hcons, List.count_cons_of_ne hd, ← ih]
      rfl

/-- Nothing stands behind the last separator just if the text ends with it. -/
theorem getLast?_splitAll (hne : t ≠ []) :
    (splitAll c t).getLast? = some [] ↔ t.getLast? = some c := by
  induction t with
  | nil => exact absurd rfl hne
  | cons d t ih =>
    by_cases ht : t = []
    · subst ht
      by_cases hd : d = c <;> simp [splitAll, hd]
    · have hlast : (d :: t).getLast? = t.getLast? := by
        rw [List.getLast?_cons_of_ne_nil ht]
      rw [hlast, ← ih ht]
      by_cases hd : d = c
      · rw [hd, splitAll_cons_self, List.getLast?_cons_of_ne_nil (splitAll_ne_nil c t)]
      · obtain ⟨first, others, hsplit, hcons⟩ := splitAll_cons hd t
        rw [hsplit, hcons]
        cases others with
        | nil =>
          have hfirst : first = t := by
            have hjoin := joinWith_splitAll c t
            rwa [hsplit] at hjoin
          simp [hfirst, ht]
        | cons second others => rw [List.getLast?_cons_cons, List.getLast?_cons_cons]

end Text

/-! ## Lines

The lines of a text are its parts between line feeds, without the empty part behind a last one and
without the returns in front of line feeds. -/

/-- The number of lines. A line feed at the end of a text ends a line and begins none. -/
theorem length_lines {t : Text} (hne : t ≠ []) :
    (lines t).length = t.count '\n' + if t.getLast? = some '\n' then 0 else 1 := by
  have hparts := Text.length_splitAll '\n' t
  have hlast := Text.getLast?_splitAll (c := '\n') hne
  obtain ⟨last, hsome⟩ := Option.isSome_iff_exists.mp
    (List.getLast?_isSome.mpr (Text.splitAll_ne_nil '\n' t))
  unfold lines
  dsimp only
  rw [List.length_append, List.length_map, List.length_dropLast, hparts, Nat.add_sub_cancel]
  rw [hsome] at hlast ⊢
  -- The last part is empty just if the text ends with a line feed, and then it is no line.
  cases last with
  | nil => rw [if_pos (hlast.mp rfl)]; rfl
  | cons c last =>
    rw [if_neg fun h => absurd (hlast.mpr h) (by simp)]
    rfl

theorem length_lines_pos {t : Text} (hne : t ≠ []) : 1 ≤ (lines t).length := by
  rw [length_lines hne]
  split
  · next hlast => exact List.count_pos_iff.mpr (List.mem_of_getLast? hlast)
  · exact Nat.le_add_left 1 _

theorem notMem_dropReturn {t : Text} (h : '\n' ∉ t) : '\n' ∉ dropReturn t := by
  unfold dropReturn
  cases hdrop : Text.dropLast? '\r' t with
  | none => exact h
  | some init =>
    rw [Text.dropLast?_eq_some_iff.mp hdrop] at h
    exact fun hmem => h (List.mem_append_left _ hmem)

theorem notMem_of_mem_lines {t line : Text} (h : line ∈ lines t) : '\n' ∉ line := by
  have hpart : ∀ part ∈ Text.splitAll '\n' t, '\n' ∉ part :=
    fun part hmem => Text.notMem_of_mem_splitAll hmem
  unfold lines at h
  rcases List.mem_append.mp h with h | h
  · obtain ⟨part, hmem, rfl⟩ := List.mem_map.mp h
    exact notMem_dropReturn (hpart part (List.dropLast_subset _ hmem))
  · split at h
    · exact absurd h List.not_mem_nil
    · exact absurd h List.not_mem_nil
    · next part hlast =>
      obtain rfl := List.mem_singleton.mp h
      exact hpart _ (List.mem_of_getLast? hlast)

/-- Whether a text has a line with the given number and content. -/
def IsLine (t : Text) (number : Nat) (content : Text) : Prop :=
  1 ≤ number ∧ (lines t)[number - 1]? = some content

theorem exists_isLine_iff {t : Text} {number : Nat} :
    (∃ content, IsLine t number content) ↔ 1 ≤ number ∧ number ≤ (lines t).length := by
  unfold IsLine
  rw [exists_and_left]
  refine and_congr_right fun hpos => ?_
  rw [← Option.isSome_iff_exists, isSome_getElem?]
  omega

/-! ## Excerpts

The lines that are shown, as pairs of a number and a content, before they are written. -/

/-- The lines around the current one, with their numbers. -/
def shownLines (t : Text) (current : Nat) : List (Nat × Text) :=
  (((lines t).zipIdx 1).filter fun p =>
    current ≤ p.2 + excerptRadius && p.2 ≤ current + excerptRadius).map Prod.swap

variable {t : Text} {current : Nat}

theorem excerptLines_eq (t : Text) (current : Nat) :
    excerptLines t current =
      (shownLines t current).map fun p => excerptLine current p.1 p.2 := by
  unfold excerptLines shownLines
  rw [List.map_map]
  rfl

/-- The lines that are shown are those up to two away from the current one. -/
theorem mem_shownLines {number : Nat} {content : Text} :
    (number, content) ∈ shownLines t current ↔
      IsLine t number content ∧ number ≤ current + excerptRadius ∧
        current ≤ number + excerptRadius := by
  unfold shownLines IsLine
  rw [List.mem_map]
  constructor
  -- Lines are numbered by their positions, and filtered by how far away they are.
  · rintro ⟨⟨content', number'⟩, hmem, heq⟩
    obtain ⟨rfl, rfl⟩ := Prod.mk.inj heq
    obtain ⟨hline, hnear⟩ := List.mem_filter.mp hmem
    obtain ⟨habove, hbelow⟩ := Bool.and_eq_true_iff.mp hnear
    exact ⟨List.mk_mem_zipIdx_iff_le_and_getElem?_sub.mp hline, of_decide_eq_true hbelow,
      of_decide_eq_true habove⟩
  · rintro ⟨hline, hbelow, habove⟩
    refine ⟨(content, number), List.mem_filter.mpr ⟨?_, ?_⟩, rfl⟩
    · exact List.mk_mem_zipIdx_iff_le_and_getElem?_sub.mpr hline
    · exact Bool.and_eq_true_iff.mpr ⟨decide_eq_true habove, decide_eq_true hbelow⟩

/-- Something is shown wherever a reader may stand, be it behind the last line. -/
theorem shownLines_ne_nil (hne : t ≠ []) (h : current ≤ (lines t).length + 1)
    (hpos : 1 ≤ current) : shownLines t current ≠ [] := by
  have hnumber : 1 ≤ min current (lines t).length ∧
      min current (lines t).length ≤ (lines t).length :=
    ⟨Nat.le_min.mpr ⟨hpos, length_lines_pos hne⟩, Nat.min_le_right _ _⟩
  obtain ⟨content, hline⟩ := exists_isLine_iff.mpr hnumber
  refine List.ne_nil_of_mem (mem_shownLines.mpr ⟨hline, ?_, ?_⟩)
  · exact Nat.le_trans (Nat.min_le_left _ _) (Nat.le_add_right _ _)
  · unfold excerptRadius
    omega

/-- The lines are shown in their order, each of them once. -/
theorem pairwise_shownLines (t : Text) (current : Nat) :
    ((shownLines t current).map Prod.fst).Pairwise (· < ·) := by
  have hnumbers : (((lines t).zipIdx 1).map Prod.snd).Pairwise (· < ·) := by
    rw [List.zipIdx_map_snd]
    exact List.pairwise_lt_range' 1
  have hmap : (shownLines t current).map Prod.fst = (((lines t).zipIdx 1).filter fun p =>
      current ≤ p.2 + excerptRadius && p.2 ≤ current + excerptRadius).map Prod.snd := by
    unfold shownLines
    rw [List.map_map]
    rfl
  rw [hmap]
  exact hnumbers.sublist (List.filter_sublist.map Prod.snd)

theorem notMem_excerptLine {number : Nat} {content : Text} (h : '\n' ∉ content) :
    '\n' ∉ excerptLine current number content := by
  have hdigits : '\n' ∉ writeNat number := fun hmem =>
    absurd (isDigit_of_mem_writeNat hmem) (by decide)
  have hmark : '\n' ≠ if number = current then '>' else ' ' := by split <;> decide
  simp only [excerptLine, List.cons_append, List.mem_cons, List.mem_append, List.mem_replicate,
    not_or]
  exact ⟨hmark, ⟨fun hspace => absurd hspace.2 (by decide), hdigits⟩, by decide, by decide, h⟩

theorem splitAll_excerpt (hne : shownLines t current ≠ []) :
    Text.splitAll '\n' (Text.joinWith ['\n'] (excerptLines t current)) =
      (shownLines t current).map fun p => excerptLine current p.1 p.2 := by
  rw [excerptLines_eq]
  refine Text.splitAll_joinWith (mt List.map_eq_nil_iff.mp hne) fun line hline => ?_
  obtain ⟨⟨number, content⟩, hmem, rfl⟩ := List.mem_map.mp hline
  obtain ⟨⟨-, hcontent⟩, -⟩ := mem_shownLines.mp hmem
  exact notMem_excerptLine (notMem_of_mem_lines (List.mem_of_getElem? hcontent))

/-! ## Marks

A line of an excerpt starts with a mark or with a blank, whatever is in it. -/

/-- Whether a line of an excerpt is marked. -/
def isMarked (line : Text) : Bool := line.head? == some '>'

theorem isMarked_excerptLine (current number : Nat) (content : Text) :
    isMarked (excerptLine current number content) = decide (number = current) := by
  by_cases h : number = current <;> simp [isMarked, excerptLine, h]

/-- Of lines in their order at most one has a given number. -/
theorem filter_number {shown : List (Nat × Text)} {number : Nat} {content : Text}
    (horder : (shown.map Prod.fst).Pairwise (· < ·)) (hmem : (number, content) ∈ shown) :
    shown.filter (fun p => decide (p.1 = number)) = [(number, content)] := by
  induction shown with
  | nil => exact absurd hmem List.not_mem_nil
  | cons line shown ih =>
    obtain ⟨hfirst, horder⟩ := List.pairwise_cons.mp horder
    rcases List.mem_cons.mp hmem with rfl | hmem
    · have hnone : shown.filter (fun p => decide (p.1 = number)) = [] := by
        refine List.filter_eq_nil_iff.mpr fun p hp => ?_
        have hlt := hfirst p.1 (List.mem_map_of_mem hp)
        simp only [decide_eq_true_eq]
        omega
      rw [List.filter_cons_of_pos (by simp), hnone]
    · have hlt := hfirst number (List.mem_map_of_mem hmem)
      rw [List.filter_cons_of_neg (by simp only [decide_eq_true_eq]; omega), ih horder hmem]

theorem filter_isMarked (t : Text) (current : Nat) :
    ((shownLines t current).map fun p => excerptLine current p.1 p.2).filter isMarked =
      ((shownLines t current).filter fun p => decide (p.1 = current)).map
        fun p => excerptLine current p.1 p.2 := by
  rw [List.filter_map]
  congr 2
  funext p
  exact isMarked_excerptLine current p.1 p.2

/-! ## Where a sequence stands

A sequence that knows its line stands on a line of its text, with one exception. -/

namespace Sequence

/-- Whether a sequence was read to its end, and ends with a line feed. -/
def IsBehindLines (s : Sequence) : Prop := s.rest = [] ∧ s.text.getLast? = some '\n'

/-- The current line is one of the text, or the one behind its last line. The latter just if the
text ends with a line feed that was read. -/
theorem Counted.line_le {s : Sequence} (h : s.Counted) (hne : s.text ≠ []) :
    1 ≤ s.line ∧ s.line ≤ (lines s.text).length + 1 ∧
      (s.line ≤ (lines s.text).length ↔ ¬ s.IsBehindLines) := by
  have htext : s.text = s.consumed ++ s.rest := (List.take_append_drop _ _).symm
  have hcount : s.text.count '\n' = s.consumed.count '\n' + s.rest.count '\n' :=
    (congrArg (List.count '\n') htext).trans List.count_append
  have hlines := length_lines hne
  unfold Counted at h
  by_cases hlast : s.text.getLast? = some '\n'
  · rw [if_pos hlast] at hlines
    -- The line feed at the end is among what is left, as long as anything is left.
    have hfeed : 0 < s.rest.count '\n' ↔ s.rest ≠ [] := by
      rw [List.count_pos_iff]
      refine ⟨List.ne_nil_of_mem, fun hrest => ?_⟩
      obtain ⟨last, hsome⟩ := Option.isSome_iff_exists.mp (List.getLast?_isSome.mpr hrest)
      rw [htext, List.getLast?_append, hsome, Option.some_or] at hlast
      exact List.mem_of_getLast? (hsome.trans hlast)
    refine ⟨by omega, by omega, ?_⟩
    rw [IsBehindLines, and_iff_left hlast, ← ne_eq, ← hfeed]
    omega
  · rw [if_neg hlast] at hlines
    refine ⟨by omega, by omega, iff_of_true (by omega) fun hbehind => hlast hbehind.2⟩

end Sequence

/-- Whether the lines of an excerpt are lines of a text with their numbers, in their order: those
that are there up to two away from the current one, and no others. -/
structure Shows (t : Text) (current : Nat) (excerpt : Text) (shown : List (Nat × Text)) : Prop where
  written : Text.splitAll '\n' excerpt = shown.map fun p => excerptLine current p.1 p.2
  inOrder : (shown.map Prod.fst).Pairwise (· < ·)
  mem_iff : ∀ number content, (number, content) ∈ shown ↔
    IsLine t number content ∧ number ≤ current + 2 ∧ current ≤ number + 2

/-- **An excerpt shows the lines around the current one, and marks that one if it is there.** -/
theorem excerpt_shows_lines (commands : List Reader.Command) {s : Sequence}
    (hs : (Reader.empty.runOn commands).current? = some s) (hne : s.text ≠ []) :
    (∃ shown,
      Shows s.text s.line (Diagnostics.capture (Reader.empty.runOn commands)).excerpt shown) ∧
    (¬ s.IsBehindLines → ∃ content, IsLine s.text s.line content ∧
      (Text.splitAll '\n' (Diagnostics.capture (Reader.empty.runOn commands)).excerpt).filter
        isMarked = [excerptLine s.line s.line content]) ∧
    (s.IsBehindLines →
      (Text.splitAll '\n' (Diagnostics.capture (Reader.empty.runOn commands)).excerpt).filter
        isMarked = []) := by
  have hcounted : s.Counted :=
    (Reader.counted_empty.runOn commands).lines s (List.mem_of_head? hs)
  obtain ⟨hpos, hle, hline⟩ := hcounted.line_le hne
  have hexcerpt : (Diagnostics.capture (Reader.empty.runOn commands)).excerpt =
      Text.joinWith ['\n'] (excerptLines s.text s.line) := by
    unfold Diagnostics.capture
    rw [hs]
  have hsplit := splitAll_excerpt (shownLines_ne_nil hne hle hpos)
  rw [hexcerpt, hsplit, filter_isMarked]
  -- The excerpt has the lines shown; of these the current one is marked, or none if it is not
  -- there.
  refine ⟨⟨shownLines s.text s.line, hsplit, pairwise_shownLines _ _, fun _ _ => mem_shownLines⟩,
    fun hthere => ?_, fun hbehind => ?_⟩
  · obtain ⟨content, hcontent⟩ := exists_isLine_iff.mpr ⟨hpos, hline.mpr hthere⟩
    have hmem : (s.line, content) ∈ shownLines s.text s.line :=
      mem_shownLines.mpr ⟨hcontent, Nat.le_add_right _ _, Nat.le_add_right _ _⟩
    exact ⟨content, hcontent, by rw [filter_number (pairwise_shownLines _ _) hmem]; rfl⟩
  · rw [List.map_eq_nil_iff, List.filter_eq_nil_iff]
    rintro ⟨number, content⟩ hmem heq
    obtain rfl : number = s.line := of_decide_eq_true heq
    obtain ⟨hcontent, -⟩ := mem_shownLines.mp hmem
    exact hline.mp (exists_isLine_iff.mp ⟨content, hcontent⟩).2 hbehind

/-- In the middle of a text of six lines the fourth line is marked. -/
theorem excerpt_shows_fourth :
    ∃ s, (Reader.empty.runOn [.append "one\ntwo\nthree\nfour\nfive\nsix".toList "t".toList,
        .skip 15]).current? = some s ∧
      ∃ content, IsLine s.text 4 content ∧
        (Text.splitAll '\n' (Diagnostics.capture (Reader.empty.runOn
          [.append "one\ntwo\nthree\nfour\nfive\nsix".toList "t".toList, .skip 15])).excerpt).filter
            isMarked = [excerptLine 4 4 content] :=
  ⟨⟨"t".toList, "one\ntwo\nthree\nfour\nfive\nsix".toList, 12, 4⟩, by decide,
    (excerpt_shows_lines _ (by decide) (by decide)).2.1 fun h => absurd h.1 (by decide)⟩

/-- Behind the line feed that ends a text no line is marked. -/
theorem not_marks_current :
    ¬∀ (commands : List Reader.Command) (s : Sequence),
      (Reader.empty.runOn commands).current? = some s → s.text ≠ [] →
        ∃ content, IsLine s.text s.line content ∧
          (Text.splitAll '\n' (Diagnostics.capture (Reader.empty.runOn commands)).excerpt).filter
            isMarked = [excerptLine s.line s.line content] := by
  intro h
  obtain ⟨content, -, hmarked⟩ := h [.append "a\n".toList "t".toList, .skip 2]
    ⟨"t".toList, "a\n".toList, 0, 2⟩ (by decide) (by decide)
  have hnone : (Text.splitAll '\n' (Diagnostics.capture (Reader.empty.runOn
      [.append "a\n".toList "t".toList, .skip 2])).excerpt).filter isMarked = [] := by
    decide
  exact absurd (hnone.symm.trans hmarked) (List.cons_ne_nil _ _).symm

end MarkupTemplate
