import MarkupTemplate.Proofs.Resolution.Arrays
import MarkupTemplate.Proofs.Tag.Parts

/-!
# Resolved text

What resolving gives has no placeholders in it, not even the beginning of one. A placeholder may
stand for any text of the host, with markers anywhere in it; but whatever it stands for is resolved
in turn before it is put in, and the characters in between are cut from the text as they are, so
none of them is the opening marker.

The texts of tags are put together in the same way, from characters and from what placeholders stand
for. A comment adds nothing to them.

That resolving comes to an end is no part of this, and it need not: a value may refer to itself.
What is shown is that a text which does come out is free of the marker, on every machine and with
any fuel. Once it is free, resolving it again is the branch in which nothing is looked up.
-/

set_option autoImplicit false

namespace MarkupTemplate

/-! ## Characters between placeholders

Cutting leaves no opening marker among the characters, be they pieces of a text or parts of a
tag. -/

namespace Markers

variable {m : Markers} {c : Char}

theorem ne_of_plain_mem_pieces {t : Text} (h : .plain c ∈ m.pieces t) : c ≠ m.argumentOpening := by
  fun_induction pieces m t with
  | case1 => exact absurd h List.not_mem_nil
  | case2 t raw rest hraw ih =>
    rcases List.mem_cons.mp h with h | h
    · cases h
    · exact ih h
  | case3 => simp at h
  | case4 d t hd ih =>
    rcases List.mem_cons.mp h with h | h
    · obtain rfl := Piece.plain.inj h
      exact hd
    · exact ih h

/-- The same of the parts of a tag, in quotes and out of them. -/
theorem ne_of_char_mem_tagParts {nested : Bool} {quote : Option Char} {t : Text}
    (h : .char c ∈ m.tagParts nested quote t) : c ≠ m.argumentOpening := by
  -- A part that is a character was not the opening marker, or the walk would have taken a
  -- placeholder.
  have hcons : ∀ {d : Char} {parts : List TagPart}, .char c ∈ TagPart.char d :: parts →
      d ≠ m.argumentOpening → (.char c ∈ parts → c ≠ m.argumentOpening) →
      c ≠ m.argumentOpening := by
    intro d parts hmem hd hparts
    rcases List.mem_cons.mp hmem with hmem | hmem
    · obtain rfl := TagPart.char.inj hmem
      exact hd
    · exact hparts hmem
  fun_induction tagParts m nested quote t with
  | case1 => simp at h
  | case2 quote t raw rest hraw ih => exact ih (by simpa using h)
  | case3 => simp at h
  | case4 d t hd q ih => exact hcons h hd ih
  | case5 d t hd hq ih => exact hcons h hd ih
  | case6 d t hd hq htag rest hrest ih => exact ih (by simpa using h)
  | case7 => simp at h
  | case8 => simp at h
  | case9 d t hd hq htag hclosing ih => exact hcons h hd ih

end Markers

namespace Engine

/-! ## Computations that give resolved text

The marker belongs to the settings, so it has to be kept as well: what is resolved next is resolved
with the same one. -/

/-- Whether a computation gives only texts without the opening marker of placeholders, and leaves
that marker as it is. -/
def GivesResolved (opening : Char) (x : Engine Text) : Prop :=
  ∀ machine r machine', machine.parser.settings.markers.argumentOpening = opening →
    x machine = .ok r machine' →
      opening ∉ r ∧ machine'.parser.settings.markers.argumentOpening = opening

section

variable {opening : Char} {α : Type} {x : Engine Text} {f : Text → Engine Text}

theorem givesResolved_pure {t : Text} (h : opening ∉ t) : GivesResolved opening (pure t) := by
  intro machine r machine' hm hr
  obtain ⟨rfl, rfl⟩ := EStateM.Result.ok.inj hr
  exact ⟨h, hm⟩

theorem givesResolved_fail (e : Fault) : GivesResolved opening (fail e) :=
  fun _ _ _ _ hr => absurd hr not_ok_of_fail

theorem GivesResolved.bind (h : GivesResolved opening x)
    (hf : ∀ t, opening ∉ t → GivesResolved opening (f t)) : GivesResolved opening (x >>= f) := by
  intro machine r machine' hm hr
  obtain ⟨t, between, ht, hr⟩ := bind_eq_ok_iff.mp hr
  obtain ⟨hfree, hbetween⟩ := h machine t between hm ht
  exact hf t hfree between r machine' hbetween hr

/-- Behind a computation that leaves the parser alone, whatever it gives. -/
theorem givesResolved_bind {y : Engine α} {g : α → Engine Text} (h : Within SameParser y)
    (hg : ∀ a, GivesResolved opening (g a)) : GivesResolved opening (y >>= g) := by
  intro machine r machine' hm hr
  obtain ⟨a, between, ha, hr⟩ := bind_eq_ok_iff.mp hr
  have hbetween : SameParser machine between := h.of_ok ha
  exact hg a between r machine' (by rw [hbetween, hm]) hr

end

/-! ## Resolving

An induction on the fuel, and inside of it one on the pieces of the text. -/

variable {opening : Char} {fuel : Nat}

theorem givesResolved_piecesBy {pieces : List Piece}
    (hexpand : ∀ t, GivesResolved opening (expand fuel t))
    (h : ∀ c, .plain c ∈ pieces → c ≠ opening) :
    GivesResolved opening (piecesBy (expand fuel) pieces) := by
  induction pieces with
  | nil => exact givesResolved_pure List.not_mem_nil
  | cons piece pieces ih =>
    have hrest := ih fun c hc => h c (List.mem_cons_of_mem piece hc)
    cases piece with
    | plain c =>
      apply hrest.bind
      intro t ht
      apply givesResolved_pure
      rw [List.mem_cons, not_or]
      exact ⟨(h c List.mem_cons_self).symm, ht⟩
    | placeholder raw =>
      -- What the placeholder stands for may be any text: it is resolved before it is put in.
      apply givesResolved_bind (within_placeholder fuel raw)
      intro text
      apply (hexpand text).bind
      intro value hvalue
      apply hrest.bind
      intro t ht
      apply givesResolved_pure
      rw [List.mem_append, not_or]
      exact ⟨hvalue, ht⟩
    | unclosed raw => exact givesResolved_fail _

/-- **Resolving gives resolved text**, by induction on the fuel. -/
theorem givesResolved_expand (fuel : Nat) (t : Text) : GivesResolved opening (expand fuel t) := by
  induction fuel generalizing t with
  | zero => exact fun _ _ _ _ hr => absurd hr throw_ne_ok
  | succ fuel ih =>
    intro machine r machine' hm hr
    rw [expand, bind_of_ok (markers_eq machine)] at hr
    split at hr
    · have hplain : ∀ c, .plain c ∈ machine.parser.settings.markers.pieces t → c ≠ opening :=
        fun c hc => hm ▸ Markers.ne_of_plain_mem_pieces hc
      exact givesResolved_piecesBy ih hplain machine r machine' hm hr
    next hfree =>
      rw [hm] at hfree
      exact givesResolved_pure hfree machine r machine' hm hr

/-! ## Tags

The text of a tag in which placeholders were resolved. -/

theorem givesResolved_joinParts {parts : List TagPart} {before : Text}
    (hparts : ∀ c, .char c ∈ parts → c ≠ opening) (hbefore : opening ∉ before) :
    GivesResolved opening (joinParts fuel before parts) := by
  induction parts generalizing before with
  | nil => exact givesResolved_pure (by simpa using hbefore)
  | cons part parts ih =>
    have hrest : ∀ c, .char c ∈ parts → c ≠ opening := fun c hc =>
      hparts c (List.mem_cons_of_mem part hc)
    intro machine r machine' hm hr
    cases part with
    | char c =>
      rw [joinParts_char] at hr
      have hc : opening ∉ c :: before := by
        rw [List.mem_cons, not_or]
        exact ⟨(hparts c List.mem_cons_self).symm, hbefore⟩
      exact ih hrest hc _ r machine' (by exact hm) hr
    -- The value comes in front of the text so far, which is kept in reverse.
    | placeholder name =>
      rw [joinParts_placeholder] at hr
      refine givesResolved_bind (within_placeholder fuel name) ?_ _ r machine' (by exact hm) hr
      intro text
      apply (givesResolved_expand fuel text).bind
      intro value hvalue
      apply ih hrest
      rw [List.mem_append, List.mem_reverse, not_or]
      exact ⟨hvalue, hbefore⟩
    | comment n =>
      rw [joinParts_comment] at hr
      exact ih hrest hbefore _ r machine' (by exact hm) hr
    | closing =>
      rw [joinParts_closing] at hr
      obtain ⟨rfl, rfl⟩ := EStateM.Result.ok.inj hr
      exact ⟨by simpa using hbefore, hm⟩
    | unclosedPlaceholder name =>
      obtain ⟨_, _, _, hr⟩ := bind_eq_ok_iff.mp hr
      exact absurd hr not_ok_of_fail
    | unclosedComment text =>
      obtain ⟨_, _, _, hr⟩ := bind_eq_ok_iff.mp hr
      obtain ⟨_, _, hcomment, _⟩ := bind_eq_ok_iff.mp hr
      exact absurd hcomment not_ok_of_failUnclosedComment
    | missingClosing =>
      obtain ⟨_, _, _, hr⟩ := bind_eq_ok_iff.mp hr
      exact absurd hr not_ok_of_fail

theorem givesResolved_readTagText (fuel : Nat) : GivesResolved opening (readTagText fuel) := by
  intro machine r machine' hm hr
  have hplain : ∀ c, .char c ∈ machine.parser.settings.markers.tagParts
      machine.parser.settings.nestedComments none machine.parser.reader.unread → c ≠ opening :=
    fun c hc => hm ▸ Markers.ne_of_char_mem_tagParts hc
  exact givesResolved_joinParts hplain List.not_mem_nil machine r machine' hm hr

/-- **Resolved text has no placeholders in it**: resolving it once more, whatever there is to be
looked up by then, gives the text itself and does nothing. Nor has the text of a tag that is
read. -/
theorem argumentOpening_notMem_resolved (machine : Machine)
    (hm : machine.parser.settings.markers.argumentOpening = opening) (fuel : Nat) :
    (∀ t r machine', expand fuel t machine = .ok r machine' →
      opening ∉ r ∧ ∀ again fuel', again.parser.settings.markers.argumentOpening = opening →
        expand (fuel' + 1) r again = .ok r again) ∧
    ∀ raw machine', readTagText fuel machine = .ok raw machine' → opening ∉ raw := by
  constructor
  · intro t r machine' hr
    obtain ⟨hfree, -⟩ := givesResolved_expand fuel t machine r machine' hm hr
    refine ⟨hfree, fun again fuel' hagain => ?_⟩
    rw [← hagain] at hfree
    exact expand_of_argumentOpening_notMem hfree fuel'
  · intro raw machine' hr
    exact (givesResolved_readTagText fuel machine raw machine' hm hr).1

/-- A machine in front of the text of a tag with a placeholder in quotes and a comment. The values
of its arguments have placeholders and closing markers in them. -/
def bracedMachine : Machine where
  parser.environment := (({} : Environment).setArgument "a".toList
    "1\x7d\x7bb\x7d".toList).setArgument "b".toList "\x7d2".toList
  parser.reader := Reader.ofText "template".toList "n k='\x7ba\x7d'<!-- \x7b -->/>".toList

theorem argumentOpening_notMem_bracedMachine :
    bracedMachine.parser.settings.markers.argumentOpening = '{' ∧
      (∃ machine, expand 3 "\x7ba\x7d\x7bb\x7d\x7bc\x7d".toList bracedMachine =
        .ok "1\x7d\x7d2\x7d2null".toList machine) ∧
      (∃ machine, readTagText 3 bracedMachine = .ok "n k='1\x7d\x7d2'/".toList machine) ∧
      '{' ∉ "1\x7d\x7d2\x7d2null".toList ∧ '{' ∉ "n k='1\x7d\x7d2'/".toList := by
  let expanded := expand 3 "\x7ba\x7d\x7bb\x7d\x7bc\x7d".toList bracedMachine
  have hexpanded : expanded = .ok "1\x7d\x7d2\x7d2null".toList (behind expanded) :=
    eq_of_answer? (by decide +kernel)
  let tag := readTagText 3 bracedMachine
  have htag : tag = .ok "n k='1\x7d\x7d2'/".toList (behind tag) := eq_of_answer? (by decide +kernel)
  obtain ⟨hresolved, hread⟩ := argumentOpening_notMem_resolved bracedMachine rfl 3
  exact ⟨rfl, ⟨_, hexpanded⟩, ⟨_, htag⟩, (hresolved _ _ _ hexpanded).1, hread _ _ htag⟩

end Engine

end MarkupTemplate
