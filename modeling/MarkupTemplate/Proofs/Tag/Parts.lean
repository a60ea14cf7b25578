import MarkupTemplate.Proofs.Engine.Resolution
import MarkupTemplate.Proofs.Engine.Turn
import MarkupTemplate.Proofs.Tag.Opening

/-!
# What is written in a tag and what is read from it

The parts of a tag are read one after another: characters as they are, placeholders as what they
stand for, comments not at all. `Resolves` puts beside each other what is written in the parts and
what is read from them, and `resolves_of_joinParts` says that every tag which is read has both, with
the marker of its end behind what is written.

The two need not agree on anything. They do where parts are **steady**: there are no comments, and
no placeholder, as it is written, opens a quote, closes one or ends the tag. Then the quotes of what
is written are those that the reading went by.

Cutting a tag into parts is a walk over quotes as well, but one that stops at placeholders and
comments. So the inductions here are those of `tagParts`, whose cases are the ways in which a tag
can go on or end.
-/

set_option autoImplicit false

namespace MarkupTemplate

namespace Markers

/-- What is written in parts of a tag, and a text that can be read from them. A placeholder may be
read as any text, since what it stands for is not looked up here. -/
inductive Resolves (m : Markers) : List TagPart → Text → Text → Prop
  | closing : Resolves m [.closing] [] []
  | char {c : Char} {parts : List TagPart} {written resolved : Text} :
      Resolves m parts written resolved →
        Resolves m (.char c :: parts) (c :: written) (c :: resolved)
  | placeholder {raw value : Text} {parts : List TagPart} {written resolved : Text} :
      Resolves m parts written resolved →
        Resolves m (.placeholder raw :: parts) (m.placeholder raw ++ written) (value ++ resolved)
  | comment {skipped : Text} {parts : List TagPart} {written resolved : Text} :
      Resolves m parts written resolved →
        Resolves m (.comment skipped.length :: parts) (skipped ++ written) resolved

/-- Whether there are no comments among parts, and each placeholder leaves the quotes as they are
and does not end the tag. -/
def Steady (m : Markers) : Option Char → List TagPart → Prop
  | quote, .char c :: parts => m.Steady (nextQuote quote c) parts
  | quote, .placeholder raw :: parts =>
    m.quoteBehind? quote (m.placeholder raw) = some quote ∧ m.Steady quote parts
  | _, .comment _ :: _ => False
  | _, _ => True

/-- Whether parts have neither placeholders nor comments. -/
def Plain : List TagPart → Prop
  | .char _ :: parts => Plain parts
  | .placeholder _ :: _ => False
  | .comment _ :: _ => False
  | _ => True

variable {m : Markers} {parts : List TagPart} {written resolved : Text}

/-- Without placeholders and comments there is nothing to disturb the quotes. -/
theorem Plain.steady (h : Plain parts) (quote : Option Char) : m.Steady quote parts := by
  induction parts generalizing quote with
  | nil => trivial
  | cons part parts ih =>
    cases part with
    | char c => exact ih h _
    | placeholder raw => exact h.elim
    | comment n => exact h.elim
    | _ => trivial

/-- Without placeholders and comments a tag is read as it is written. -/
theorem Resolves.eq_of_plain (h : m.Resolves parts written resolved) (hp : Plain parts) :
    written = resolved := by
  induction h with
  | closing => rfl
  | char _ ih => rw [ih hp]
  | placeholder => exact hp.elim
  | comment => exact hp.elim

/-- If the last thing that is written is a mark which no placeholder ends with, it is the last thing
that is read. -/
theorem Resolves.lastInk (h : m.Resolves parts written resolved) {quote : Option Char}
    (hs : m.Steady quote parts) {c : Char} (hne : m.argumentClosing ≠ c)
    (hb : isBlank m.argumentClosing = false) {last last' : Option Char}
    (hlast : last = some c → last' = some c) (hw : lastInk last written = some c) :
    MarkupTemplate.lastInk last' resolved = some c := by
  induction h generalizing quote last last' with
  | closing => exact hlast hw
  | @char d parts written resolved _ ih =>
    rw [lastInk_cons] at hw ⊢
    refine ih hs ?_ hw
    cases hd : isBlank d with
    | true => simpa using hlast
    | false => simp
  | @placeholder raw value parts written resolved _ ih =>
    rw [lastInk_append] at hw ⊢
    refine ih hs.2 (fun heq => ?_) hw
    -- A placeholder ends with its closing marker, so what is last behind it is not `c`.
    rw [Markers.placeholder, lastInk_append, lastInk_cons, hb] at heq
    exact absurd (Option.some.inj heq) hne
  | comment => exact hs.elim

/-- Whether a character is read as it is anywhere in a tag and changes nothing in how the tag is
read. -/
def isPlain (m : Markers) (c : Char) : Bool :=
  c != m.argumentOpening && !isQuote c && c != m.tagOpening && c != m.tagClosing

/-- The parts of a tag that begins with plain characters. -/
theorem tagParts_append {m : Markers} {nested : Bool} {s : Text} (t : Text)
    (h : s.all m.isPlain = true) :
    m.tagParts nested none (s ++ t) = s.map .char ++ m.tagParts nested none t := by
  induction s with
  | nil => rfl
  | cons c s ih =>
    simp only [List.all_cons, isPlain, Bool.and_eq_true, bne_iff_ne, Bool.not_eq_true'] at h
    obtain ⟨⟨⟨⟨harg, hquote⟩, hopen⟩, hclose⟩, hs⟩ := h
    rw [List.cons_append, tagParts, if_neg harg, if_neg (by simp [hquote]),
      if_neg (fun hc => hopen hc.1), if_neg hclose, ih hs]
    rfl

/-- In steady parts the quotes are closed where the tag ends. -/
theorem quoteBehind?_of_resolves {nested : Bool} {quote : Option Char} {s : Text}
    (h : m.Resolves (m.tagParts nested quote s) written resolved)
    (hs : m.Steady quote (m.tagParts nested quote s)) :
    m.quoteBehind? quote written = some none ∧ isQuote m.tagClosing = false := by
  -- The cases are those of cutting a tag into parts; a steady tag has no comments.
  fun_induction tagParts m nested quote s generalizing written resolved with
  | case1 => cases h
  | case2 quote t raw rest hraw ih =>
    cases h with
    | placeholder h =>
      obtain ⟨hquote, hclosing⟩ := ih h hs.2
      rw [quoteBehind?_append, hs.1]
      exact ⟨hquote, hclosing⟩
  | case3 => cases h
  | case4 c t hc q ih =>
    cases h with
    | char h =>
      rw [quoteBehind?, if_neg (by simp)]
      exact ih h hs
  | case5 c t hc hq ih =>
    cases h with
    | char h =>
      have hnext : nextQuote none c = some c := by simp [nextQuote, hq]
      rw [Steady, hnext] at hs
      rw [quoteBehind?, if_neg (by simp [hq]), hnext]
      exact ih h hs
  | case6 => exact hs.elim
  | case7 => cases h
  | case8 t hc hq htag =>
    cases h
    exact ⟨rfl, by simpa using hq⟩
  | case9 c t hc hq htag hclosing ih =>
    cases h with
    | char h =>
      have hnext : nextQuote none c = none := by simp [nextQuote, hq]
      rw [Steady, hnext] at hs
      rw [quoteBehind?, if_neg (fun hc => hclosing hc.2.2), hnext]
      exact ih h hs

end Markers

namespace Engine

theorem not_ok_of_fail {α : Type} {e : Fault} {machine machine' : Machine} {a : α} :
    (fail e : Engine α) machine ≠ .ok a machine' := throw_ne_ok

theorem not_ok_of_failUnclosedComment {t : Text} {machine machine' : Machine} :
    failUnclosedComment t machine ≠ .ok () machine' := by
  intro h
  obtain ⟨m, _, _, h⟩ := bind_eq_ok_iff.mp h
  split at h
  · obtain ⟨_, _, _, h⟩ := bind_eq_ok_iff.mp h
    exact not_ok_of_fail h
  · obtain ⟨_, _, _, h⟩ := bind_eq_ok_iff.mp h
    exact not_ok_of_fail h

theorem joinParts_char (fuel : Nat) (before : Text) (c : Char) (parts : List TagPart)
    (machine : Machine) :
    joinParts fuel before (.char c :: parts) machine = joinParts fuel (c :: before) parts
      (machine.withReader (Reader.skip 1 machine.parser.reader)) := rfl

/-- A placeholder is read as what it stands for, resolved in turn. Both happen behind it. -/
theorem joinParts_placeholder (fuel : Nat) (before name : Text) (parts : List TagPart)
    (machine : Machine) :
    joinParts fuel before (.placeholder name :: parts) machine =
      (placeholder fuel name >>= fun text => expand fuel text >>= fun value =>
          joinParts fuel (value.reverse ++ before) parts)
        (machine.withReader (Reader.skip (name.length + 2) machine.parser.reader)) := rfl

theorem joinParts_comment (fuel : Nat) (before : Text) (n : Nat) (parts : List TagPart)
    (machine : Machine) :
    joinParts fuel before (.comment n :: parts) machine = joinParts fuel before parts
      (machine.withReader (Reader.skip n machine.parser.reader)) := rfl

theorem joinParts_closing (fuel : Nat) (before : Text) (parts : List TagPart) (machine : Machine) :
    joinParts fuel before (.closing :: parts) machine =
      .ok before.reverse (machine.withReader (Reader.skip 1 machine.parser.reader)) := rfl

section

variable {fuel : Nat} {m : Markers} {nested : Bool} {raw : Text} {machine' : Machine}

/-- The induction step of `resolves_of_joinParts` for a character, in quotes or not. -/
theorem resolves_char {c : Char} {quote : Option Char} {t before : Text} {machine : Machine}
    (hs : machine.parser.reader.unread = c :: t)
    (h : joinParts fuel before (.char c :: m.tagParts nested quote t) machine = .ok raw machine')
    (ih : ∀ {before : Text} {machine : Machine}, machine.parser.reader.unread = t →
      joinParts fuel before (m.tagParts nested quote t) machine = .ok raw machine' →
      ∃ written resolved, m.Resolves (m.tagParts nested quote t) written resolved ∧
        t = written ++ m.tagClosing :: machine'.parser.reader.unread ∧
        raw = before.reverse ++ resolved) :
    ∃ written resolved, m.Resolves (.char c :: m.tagParts nested quote t) written resolved ∧
      c :: t = written ++ m.tagClosing :: machine'.parser.reader.unread ∧
      raw = before.reverse ++ resolved := by
  rw [joinParts_char] at h
  obtain ⟨written, resolved, hr, ht, hraw⟩ := ih (by simp [hs]) h
  refine ⟨c :: written, c :: resolved, .char hr, ?_, ?_⟩
  · rw [ht]
    rfl
  · rw [hraw]
    simp

/-- **A tag that is read has its end behind what is written in it.** -/
theorem resolves_of_joinParts {quote : Option Char} {s before : Text} {machine : Machine}
    (hs : machine.parser.reader.unread = s)
    (h : joinParts fuel before (m.tagParts nested quote s) machine = .ok raw machine') :
    ∃ written resolved, m.Resolves (m.tagParts nested quote s) written resolved ∧
      s = written ++ m.tagClosing :: machine'.parser.reader.unread ∧
      raw = before.reverse ++ resolved := by
  -- The parts are cut from the unread text, and the reader moves along with them.
  fun_induction m.tagParts nested quote s generalizing before machine with
  | case1 =>
    obtain ⟨_, _, _, h⟩ := bind_eq_ok_iff.mp h
    exact absurd h not_ok_of_fail
  | case2 quote t name rest hname ih =>
    rw [joinParts_placeholder] at h
    obtain ⟨text, machine₁, h₁, h⟩ := bind_eq_ok_iff.mp h
    obtain ⟨value, machine₂, h₂, h⟩ := bind_eq_ok_iff.mp h
    -- What the placeholder stands for is found without reading on.
    have hvalue : SameParser _ _ := (within_placeholder _ _).of_ok h₁
    have hparser := ((within_expand (R := SameParser) _ _).of_ok h₂).trans hvalue
    have ht := Text.eq_of_takeNested hname
    have hunread : machine₂.parser.reader.unread = rest := by
      rw [hparser, Machine.withReader_reader, Reader.unread_skip, hs, ht]
      simp [List.drop_append]
    obtain ⟨written, resolved, hr, hrest, hraw⟩ := ih hunread h
    refine ⟨m.placeholder name ++ written, value ++ resolved, .placeholder hr, ?_, ?_⟩
    · rw [ht, hrest]
      simp [Markers.placeholder]
    · rw [hraw]
      simp
  | case3 =>
    obtain ⟨_, _, _, h⟩ := bind_eq_ok_iff.mp h
    exact absurd h not_ok_of_fail
  | case4 c t hc q ih => exact resolves_char hs h ih
  | case5 c t hc hq ih => exact resolves_char hs h ih
  | case6 c t hc hq htag rest hrest ih =>
    rw [joinParts_comment] at h
    obtain ⟨skipped, hskipped⟩ := Markers.isSuffix_of_afterComment? hrest
    have hlen : t.length + 1 - rest.length = (c :: skipped).length := by
      rw [← hskipped]
      simp only [List.length_append, List.length_cons]
      omega
    have hunread : (machine.withReader (Reader.skip (t.length + 1 - rest.length)
        machine.parser.reader)).parser.reader.unread = rest := by
      rw [Machine.withReader_reader, Reader.unread_skip, hs, hlen, ← hskipped, ← List.cons_append,
        List.drop_left]
    obtain ⟨written, resolved, hr, ht, hraw⟩ := ih hunread h
    refine ⟨c :: skipped ++ written, resolved, ?_, ?_, hraw⟩
    · rw [hlen]
      exact .comment hr
    · rw [← hskipped, ht]
      simp
  | case7 =>
    obtain ⟨_, _, _, h⟩ := bind_eq_ok_iff.mp h
    obtain ⟨_, _, h, _⟩ := bind_eq_ok_iff.mp h
    exact absurd h not_ok_of_failUnclosedComment
  | case8 t hc hq htag =>
    rw [joinParts_closing] at h
    obtain ⟨rfl, rfl⟩ := EStateM.Result.ok.inj h
    exact ⟨[], [], .closing, by simp [hs], by simp⟩
  | case9 c t hc hq htag hclosing ih => exact resolves_char hs h ih

end

/-! ## Tags of characters only

Most tags of the templates that other modules write are of this kind. -/

/-- The text of a tag without placeholders and comments is read as it is. -/
theorem readTagText_eq (machine : Machine) {raw rest : Text} {closing : Char}
    (hr : machine.parser.reader.unread = raw ++ closing :: rest)
    (hparts : ∀ nested, machine.parser.settings.markers.tagParts nested none
      (raw ++ closing :: rest) = raw.map .char ++ [.closing]) :
    ∃ r, r.unread = rest ∧ ∀ fuel, readTagText fuel machine = .ok raw (machine.withReader r) := by
  -- The text that was read so far is kept in reverse, so it is generalized with the reader.
  have hrun : ∀ (s before : Text) (machine : Machine),
      machine.parser.reader.unread = s ++ closing :: rest →
      ∃ r, r.unread = rest ∧ ∀ fuel, joinParts fuel before (s.map .char ++ [.closing]) machine =
        .ok (before.reverse ++ s) (machine.withReader r) := by
    intro s
    induction s with
    | nil =>
      intro before machine hr
      refine ⟨Reader.skip 1 machine.parser.reader, by simp [hr], fun fuel => ?_⟩
      rw [List.append_nil]
      exact joinParts_closing fuel before [] machine
    | cons c s ih =>
      intro before machine hr
      obtain ⟨r, hrest, hjoin⟩ := ih (c :: before)
        (machine.withReader (Reader.skip 1 machine.parser.reader)) (by simp [hr])
      refine ⟨r, hrest, fun fuel => ?_⟩
      rw [List.map_cons, List.cons_append, joinParts_char, hjoin]
      simp
  obtain ⟨r, hrest, hjoin⟩ := hrun raw [] machine hr
  refine ⟨r, hrest, fun fuel => ?_⟩
  have hstep : readTagText fuel machine = joinParts fuel []
      (machine.parser.settings.markers.tagParts machine.parser.settings.nestedComments none
        machine.parser.reader.unread) machine := rfl
  rw [hstep, hr, hparts, hjoin]
  rfl

theorem exists_turn_of_chars {machine : Machine} {raw rest : Text}
    (hargument : machine.parser.settings.markers.tagOpening ≠
      machine.parser.settings.markers.argumentOpening)
    (hunread : machine.parser.reader.unread =
      machine.parser.settings.markers.tagOpening ::
        (raw ++ machine.parser.settings.markers.tagClosing :: rest))
    (hcomment : (raw ++ machine.parser.settings.markers.tagClosing :: rest).head? ≠
      some machine.parser.settings.markers.commentOpening)
    (hparts : ∀ nested, machine.parser.settings.markers.tagParts nested none
      (raw ++ machine.parser.settings.markers.tagClosing :: rest) = raw.map .char ++ [.closing]) :
    ∃ r, r.unread = rest ∧
      ∀ fuel, turn fuel [] machine = .ok (.tag raw) (machine.withReader r) := by
  let opened := machine.withReader
    ⟨Reader.advance machine.parser.settings.markers.tagOpening machine.parser.reader.stack,
      raw ++ machine.parser.settings.markers.tagClosing :: rest⟩
  obtain ⟨r, hr, hread⟩ := readTagText_eq opened rfl hparts
  refine ⟨r, hr, fun fuel => ?_⟩
  have hunread' : unread opened =
      .ok (raw ++ machine.parser.settings.markers.tagClosing :: rest) opened := rfl
  rw [turn, bind_of_ok (markers_eq _), bind_of_ok (next_eq hunread)]
  dsimp only
  rw [if_neg hargument, if_pos rfl, bind_of_ok hunread', if_neg hcomment, List.reverse_nil,
    bind_of_ok (addText_nil _), bind_of_ok (hread fuel)]
  rfl

end Engine

end MarkupTemplate
