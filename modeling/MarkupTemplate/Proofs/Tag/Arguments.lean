import MarkupTemplate.Proofs.Control.Setting
import MarkupTemplate.Proofs.Tag.Parts
import MarkupTemplate.Proofs.Twin.Queueing

/-!
# Arguments in tags

A tag with the placeholders of arguments in it is read as the same tag with the values in their
places. `Fills` puts beside each other what is written and what is read. The tag ends where it did
before anything was looked up, so a value cannot end it; but what is read from the tag afterwards
does not know where a value begins and where it ends.

This is the narrow case of `Proofs/Tag/Parts`, where a placeholder may stand for anything and only
the quotes and the end of the tag are followed. Here what is read is known to the letter, which is
what the call of a definition needs: its body is read with the values of the parameters.
-/

set_option autoImplicit false

namespace MarkupTemplate

/-- What is written in the parts of a tag up to behind its end, and what is read from them: the
characters themselves, and the values of arguments, which hold no placeholders again. -/
inductive Fills (e : Environment) : List TagPart → Text → Text → Prop
  | closing : Fills e [.closing] ['>'] []
  | char {parts : List TagPart} {written read : Text} (c : Char) :
      Fills e parts written read → Fills e (.char c :: parts) (c :: written) (c :: read)
  | argument {parts : List TagPart} {written read name value : Text} :
      name.IsWord → e.argument? name = some value → '{' ∉ value → Fills e parts written read →
        Fills e (.placeholder name :: parts) ('{' :: (name ++ '}' :: written)) (value ++ read)

variable {machine : Machine} {e : Environment} {parts : List TagPart}
  {written read name rest : Text}

theorem Fills.chars (s : Text) (h : Fills e parts written read) :
    Fills e (s.map .char ++ parts) (s ++ written) (s ++ read) := by
  induction s with
  | nil => exact h
  | cons c s ih => exact ih.char c

namespace Markers

/-- A placeholder that is closed is cut off in one piece, whatever is open around it. -/
theorem tagParts_opening {m : Markers} {t : Text} (htake : Text.takeNested m.argumentOpening
    m.argumentClosing 0 t = (name, some rest)) (nested : Bool) (quote : Option Char) :
    m.tagParts nested quote (m.argumentOpening :: t) =
      .placeholder name :: m.tagParts nested quote rest := by
  rw [tagParts.eq_def]
  simp only [if_pos]
  split
  · next raw behind htaken =>
    obtain ⟨rfl, hrest⟩ := Prod.mk.inj (htake.symm.trans htaken)
    rw [Option.some.inj hrest]
  · next raw htaken => cases htake.symm.trans htaken

/-- A placeholder is a part of its own, in quotes or not. -/
theorem tagParts_argument (hname : name.IsWord) (nested : Bool) (quote : Option Char) (t : Text) :
    ({} : Markers).tagParts nested quote ('{' :: (name ++ '}' :: t)) =
      .placeholder name :: ({} : Markers).tagParts nested quote t :=
  tagParts_opening (m := {}) (Text.takeNested_of_notMem (by decide)
    (hname.notMem (by decide)) (hname.notMem (by decide)) t) nested quote

end Markers

namespace Engine

/-- **The parts of a tag are read with the values of arguments in their places.** -/
theorem joinParts_of_fills (h : Fills machine.parser.environment parts written read)
    (hmarkers : machine.parser.settings.markers = {})
    (hr : machine.parser.reader.unread = written ++ rest) : ∃ r, r.unread = rest ∧
      ∀ fuel before, joinParts (fuel + 1) before parts machine =
        .ok (before.reverse ++ read) (machine.withReader r) := by
  -- The reader moves on along the tag, and the arguments stay what they are.
  generalize henvironment : machine.parser.environment = environment at h
  induction h generalizing machine with
  | closing =>
    refine ⟨Reader.skip 1 machine.parser.reader, by simp [hr], fun fuel before => ?_⟩
    rw [joinParts_closing, List.append_nil]
  | char c _ ih =>
    let skipped := machine.withReader (Reader.skip 1 machine.parser.reader)
    obtain ⟨r, hrest, hjoin⟩ := @ih skipped hmarkers (by simp [skipped, hr]) henvironment
    refine ⟨r, hrest, fun fuel before => ?_⟩
    rw [joinParts_char, hjoin]
    simp [skipped]
  | @argument parts written read name value hname hvalue hbrace _ ih =>
    let skipped := machine.withReader (Reader.skip (name.length + 2) machine.parser.reader)
    have hunread : skipped.parser.reader.unread = written ++ rest := by
      simp [skipped, hr]
    obtain ⟨r, hrest, hjoin⟩ := @ih skipped hmarkers hunread henvironment
    refine ⟨r, hrest, fun fuel before => ?_⟩
    have hspares : skipped.parser.settings.markers.SparesWords := by
      show machine.parser.settings.markers.SparesWords
      rw [hmarkers]
      exact sparesWords_default
    have hskipped : skipped.parser.settings.markers = {} := hmarkers
    have hargument : skipped.parser.environment.argument? name = some value := by
      show machine.parser.environment.argument? name = some value
      rw [henvironment, hvalue]
    rw [joinParts_placeholder, bind_of_ok (placeholder_eq skipped hspares hname hargument _),
      bind_of_ok (expand_of_notMem hskipped hbrace fuel), hjoin]
    simp [skipped]

/-- The tag is read to its end, and nothing but the reader has changed behind it. -/
theorem readTagText_of_fills (machine : Machine)
    (h : Fills machine.parser.environment parts written read)
    (hmarkers : machine.parser.settings.markers = {})
    (hparts : ∀ nested, ({} : Markers).tagParts nested none (written ++ rest) = parts)
    (hr : machine.parser.reader.unread = written ++ rest) : ∃ r, r.unread = rest ∧
      ∀ fuel, readTagText (fuel + 1) machine = .ok read (machine.withReader r) := by
  obtain ⟨r, hrest, hjoin⟩ := joinParts_of_fills h hmarkers hr
  refine ⟨r, hrest, fun fuel => ?_⟩
  have hstep : readTagText (fuel + 1) machine = joinParts (fuel + 1) []
      (machine.parser.settings.markers.tagParts machine.parser.settings.nestedComments none
        machine.parser.reader.unread) machine := rfl
  rw [hstep, hmarkers, hr, hparts, hjoin]
  rfl

end Engine

end MarkupTemplate
