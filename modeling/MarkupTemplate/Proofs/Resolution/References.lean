import Mathlib.Data.Fintype.Card
import Mathlib.Data.Set.Finite.Basic
import MarkupTemplate.Engine.State
import MarkupTemplate.Markers.Piece
import MarkupTemplate.Proofs.Equation.Outcome
import MarkupTemplate.Proofs.Text.Nested

/-!
# References between arguments

The value of an argument may hold placeholders of other arguments. Following them comes to an end if
no argument leads back to itself: a table has finitely many names with a value, and a name without
one leads nowhere. So what is to be known of the values of all arguments can be proved along their
references (`wellFounded_refers`).

A text that `RefersOnly` has placeholders of arguments and of nothing else, closes all that it opens
and has no tags in it. The placeholders of such a text are the same wherever it stands.

Whether a text closes what it opens is said twice: by counting (`closesArguments`), which can be
decided and is what a text is asked for, and by cutting placeholders off it, which is what reading
does. That they agree is shown for one placeholder at a time (`closesArguments_of_takeNested`).
-/

set_option autoImplicit false

namespace MarkupTemplate

namespace Markers

/-- Whether a text closes all placeholders that it opens. `depth` counts those that are open; a
closing marker without an opening one counts for nothing. -/
def closesArguments (m : Markers) : Nat → Text → Bool
  | depth, [] => depth == 0
  | depth, c :: t =>
    if c = m.argumentOpening then m.closesArguments (depth + 1) t
    else if c = m.argumentClosing then m.closesArguments (depth - 1) t
    else m.closesArguments depth t

/-- Whether the text of a placeholder is the name of an argument: it does not begin with a mark for
something else. -/
def isName (m : Markers) (raw : Text) : Bool :=
  (Text.trim raw).head?.all fun c =>
    c ∉ [m.equationMark, m.conditionMark, m.actionMark, m.lineMark, m.preferenceMark]

/-- The texts of the placeholders of a text. -/
def placeholders (m : Markers) (t : Text) : List Text :=
  (m.pieces t).filterMap fun
    | .placeholder raw => some raw
    | _ => none

/-- Whether a text refers to arguments at most. -/
structure RefersOnly (m : Markers) (t : Text) : Prop where
  closed : m.closesArguments 0 t = true
  tags : m.tagOpening ∉ t
  names : ∀ raw ∈ m.placeholders t, m.isName raw = true

instance (m : Markers) (t : Text) : Decidable (m.RefersOnly t) :=
  decidable_of_iff (m.closesArguments 0 t = true ∧ m.tagOpening ∉ t ∧
      ∀ raw ∈ m.placeholders t, m.isName raw = true)
    ⟨fun ⟨hclosed, htags, hnames⟩ => ⟨hclosed, htags, hnames⟩,
      fun h => ⟨h.closed, h.tags, h.names⟩⟩

/-- The key under which an argument is kept that goes by a name. -/
def key (raw : Text) : Text := Text.lower (Text.trim raw)

/-- Whether the value of an argument has the placeholder of another one. Both are given by their
keys. -/
def Refers (m : Markers) (table : Dictionary Text) (name name' : Text) : Prop :=
  ∃ value, table.get? name = some value ∧ ∃ raw ∈ m.placeholders value, key raw = name'

/-! ## Following references

A circle is a name that can be reached from itself. In a finite table there is no other way for a
walk to be endless. -/

section

variable {m : Markers} {table : Dictionary Text}

/-- The names that have a value. -/
abbrev Named (table : Dictionary Text) : Type := {name : Text // name ∈ table.entries.map Prod.fst}

/-- A name that refers to something has a value. -/
theorem Refers.mem {name name' : Text} (h : m.Refers table name name') :
    name ∈ table.entries.map Prod.fst := by
  obtain ⟨value, hvalue, -⟩ := h
  exact List.mem_map.mpr ⟨_, Dictionary.mem_of_lookup hvalue, rfl⟩

/-- Among the names that have a value no walk is endless, as they are finitely many. -/
theorem wellFounded_named (h : ∀ name, ¬Relation.TransGen (m.Refers table) name name) :
    WellFounded fun a b : Named table => m.Refers table b.1 a.1 := by
  -- A transitive relation on finitely many things is well-founded if nothing is in front of itself.
  have hwf : WellFounded (Relation.TransGen fun a b : Named table => m.Refers table b.1 a.1) := by
    have hfinite : Finite (Named table) := (List.finite_toSet _).to_subtype
    have htrans : IsTrans (Named table)
        (Relation.TransGen fun a b : Named table => m.Refers table b.1 a.1) :=
      ⟨fun _ _ _ => .trans⟩
    have hirrefl : Std.Irrefl
        (Relation.TransGen fun a b : Named table => m.Refers table b.1 a.1) :=
      ⟨fun a ha => h a.1 ((Relation.transGen_swap.mp ha).lift Subtype.val fun _ _ hab => hab)⟩
    exact Finite.wellFounded_of_trans_of_irrefl _
  exact Subrelation.wf (fun hab => .single hab) hwf

/-- **Following the references of arguments ends**, if none leads back to itself. -/
theorem wellFounded_refers (h : ∀ name, ¬Relation.TransGen (m.Refers table) name name) :
    WellFounded fun name' name : Text => m.Refers table name name' := by
  have hnamed : ∀ a : Named table,
      Acc (fun name' name : Text => m.Refers table name name') a.1 := by
    intro a
    induction a using (wellFounded_named h).induction with
    | _ a ih =>
      refine ⟨_, fun name' hname' => ?_⟩
      -- A name without a value ends the walk, as it refers to nothing.
      by_cases hmem : name' ∈ table.entries.map Prod.fst
      · exact ih ⟨name', hmem⟩ hname'
      · exact ⟨_, fun _ h' => absurd h'.mem hmem⟩
  refine ⟨fun name => ?_⟩
  by_cases hmem : name ∈ table.entries.map Prod.fst
  · exact hnamed ⟨name, hmem⟩
  · exact ⟨_, fun _ h' => absurd h'.mem hmem⟩

/-- No reference leads back where a number decreases along all of them. With this a concrete table
is shown to have no circle, by evaluation. -/
theorem not_transGen_of_rank (rank : Text → Nat)
    (h : ∀ e ∈ table.entries, ∀ raw ∈ m.placeholders e.2, rank (key raw) < rank e.1) (name : Text) :
    ¬Relation.TransGen (m.Refers table) name name := by
  have hstep : ∀ name name', m.Refers table name name' → rank name' < rank name := by
    rintro name _ ⟨value, hvalue, raw, hraw, rfl⟩
    exact h _ (Dictionary.mem_of_lookup hvalue) raw hraw
  -- Along a walk the number decreases with each reference.
  have hwalk : ∀ name', Relation.TransGen (m.Refers table) name name' →
      rank name' < rank name := by
    intro name' hname'
    induction hname' with
    | single hlast => exact hstep _ _ hlast
    | tail _ hlast ih => exact (hstep _ _ hlast).trans ih
  exact fun hloop => Nat.lt_irrefl _ (hwalk name hloop)

end

end Markers

namespace Markers

variable {m : Markers} {t raw rest : Text}

/-! ## Placeholders that are closed

What is behind a placeholder that is closed, closes what it opens just if the whole text does. -/

/-- Counting and cutting agree where the placeholder at hand is closed. -/
theorem closesArguments_of_takeNested {depth : Nat}
    (h : Text.takeNested m.argumentOpening m.argumentClosing depth t = (raw, some rest)) :
    m.closesArguments (depth + 1) t = m.closesArguments 0 rest := by
  fun_induction Text.takeNested m.argumentOpening m.argumentClosing depth t generalizing raw with
  | case1 => cases h
  | case2 depth t ih =>
    obtain ⟨raw', -, htake⟩ := Text.exists_of_map_cons h
    rw [closesArguments, if_pos rfl, ih htake]
  | case3 t hc =>
    obtain ⟨-, hrest⟩ := Prod.mk.inj h
    obtain rfl := Option.some.inj hrest
    rw [closesArguments, if_neg hc, if_pos rfl, Nat.add_sub_cancel]
  | case4 t depth hc ih =>
    obtain ⟨raw', -, htake⟩ := Text.exists_of_map_cons h
    rw [closesArguments, if_neg hc, if_pos rfl, Nat.add_sub_cancel, ih htake]
  | case5 depth c t hc hc' ih =>
    obtain ⟨raw', -, htake⟩ := Text.exists_of_map_cons h
    rw [closesArguments, if_neg hc, if_neg hc', ih htake]

/-- They agree too where it is not: then the text does not close what it opens. -/
theorem closesArguments_of_takeNested_none {depth : Nat}
    (h : (Text.takeNested m.argumentOpening m.argumentClosing depth t).2 = none) :
    m.closesArguments (depth + 1) t = false := by
  fun_induction Text.takeNested m.argumentOpening m.argumentClosing depth t with
  | case1 => rfl
  | case2 depth t ih => rw [closesArguments, if_pos rfl, ih h]
  | case3 => cases h
  | case4 t depth hc ih => rw [closesArguments, if_neg hc, if_pos rfl, Nat.add_sub_cancel, ih h]
  | case5 depth c t hc hc' ih => rw [closesArguments, if_neg hc, if_neg hc', ih h]

/-- A closed placeholder is the first piece of a text, and the pieces of the rest come behind it. -/
theorem pieces_opening
    (h : Text.takeNested m.argumentOpening m.argumentClosing 0 t = (raw, some rest)) :
    m.pieces (m.argumentOpening :: t) = .placeholder raw :: m.pieces rest := by
  rw [pieces, if_pos rfl]
  split
  · next h' =>
    rw [h] at h'
    cases h'
    rfl
  · next h' =>
    rw [h] at h'
    cases h'

theorem pieces_cons {c : Char} (hc : c ≠ m.argumentOpening) :
    m.pieces (c :: t) = .plain c :: m.pieces t := by
  rw [pieces, if_neg hc]

theorem placeholders_opening
    (h : Text.takeNested m.argumentOpening m.argumentClosing 0 t = (raw, some rest)) :
    m.placeholders (m.argumentOpening :: t) = raw :: m.placeholders rest := by
  rw [placeholders, pieces_opening h]
  rfl

theorem placeholders_cons {c : Char} (hc : c ≠ m.argumentOpening) :
    m.placeholders (c :: t) = m.placeholders t := by
  rw [placeholders, pieces_cons hc]
  rfl

theorem placeholders_of_notMem (ht : m.argumentOpening ∉ t) : m.placeholders t = [] := by
  induction t with
  | nil => rw [placeholders, pieces]; rfl
  | cons c t ih =>
    rw [List.mem_cons, not_or] at ht
    rw [placeholders_cons (Ne.symm ht.1), ih ht.2]

namespace RefersOnly

/-- What opens a placeholder closes it, and the same holds behind it. -/
theorem exists_of_opening (h : m.RefersOnly (m.argumentOpening :: t)) : ∃ raw rest,
    Text.takeNested m.argumentOpening m.argumentClosing 0 t = (raw, some rest) ∧
      m.isName raw = true ∧ m.RefersOnly rest := by
  have hclosed : m.closesArguments 1 t = true := by
    have hclosed := h.closed
    rwa [closesArguments, if_pos rfl] at hclosed
  -- A placeholder that is not closed would leave the text open.
  cases htake : Text.takeNested m.argumentOpening m.argumentClosing 0 t with
  | mk raw behind =>
    cases behind with
    | none =>
      rw [closesArguments_of_takeNested_none (by rw [htake])] at hclosed
      cases hclosed
    | some rest =>
      have hnames := h.names
      rw [placeholders_opening htake] at hnames
      refine ⟨raw, rest, rfl, hnames raw List.mem_cons_self, ?_, fun htag => h.tags ?_,
        fun raw' hraw' => hnames raw' (List.mem_cons_of_mem _ hraw')⟩
      · rwa [closesArguments_of_takeNested htake] at hclosed
      · rw [Text.eq_of_takeNested htake]
        simp [htag]

/-- A character that opens nothing can be taken off the front. -/
theorem of_cons {c : Char} (hc : c ≠ m.argumentOpening) (h : m.RefersOnly (c :: t)) :
    c ≠ m.tagOpening ∧ m.RefersOnly t := by
  have htags := h.tags
  have hnames := h.names
  rw [placeholders_cons hc] at hnames
  rw [List.mem_cons, not_or] at htags
  refine ⟨Ne.symm htags.1, ?_, htags.2, hnames⟩
  have hclosed := h.closed
  rw [closesArguments, if_neg hc] at hclosed
  split at hclosed
  · exact hclosed
  · exact hclosed

end RefersOnly

/-- A text without the opening markers of placeholders and tags refers to nothing. -/
theorem refersOnly_of_notMem (ht : m.argumentOpening ∉ t) (htag : m.tagOpening ∉ t) :
    m.RefersOnly t := by
  refine ⟨?_, htag, fun raw hraw => by rw [placeholders_of_notMem ht] at hraw; cases hraw⟩
  induction t with
  | nil => rfl
  | cons c t ih =>
    rw [List.mem_cons, not_or] at ht htag
    rw [closesArguments, if_neg (Ne.symm ht.1)]
    split
    · exact ih ht.2 htag.2
    · exact ih ht.2 htag.2

end Markers

end MarkupTemplate
