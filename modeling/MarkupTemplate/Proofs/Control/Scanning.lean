import MarkupTemplate.Engine.Scan
import MarkupTemplate.Proofs.Body.Reading
import MarkupTemplate.Proofs.Control.Running
import MarkupTemplate.Proofs.Tag.Parts

/-!
# Scanning control templates

`Proceeds` is that scanning one machine comes to scanning another, at the cost of some fuel. A
character is put to the text at hand (`proceeds_char`); in front of a tag the text at hand is handed
over, and the scanner goes on behind the tag (`proceeds_tag`); and a macro is replaced by what it
appends (`proceeds_macroTag`).

Where there are no open tags, the scanner is at a **place**: it has text at hand that it has read
since the last tag, what is unread, and the text of the document. `Leads` is the same relation
between places.
-/

set_option autoImplicit false

namespace MarkupTemplate

open Control

/-- The machine in the midst of a parse, with another reader and another text. -/
def Machine.reading (machine : Machine) (r : Reader) (text : Text) : Machine :=
  { machine with parser := { machine.parser with reader := r, text := text } }

namespace Machine

variable {machine : Machine}

@[simp] theorem reading_reader (r : Reader) (text : Text) :
    (machine.reading r text).parser.reader = r := rfl

@[simp] theorem reading_settings (r : Reader) (text : Text) :
    (machine.reading r text).parser.settings = machine.parser.settings := rfl

/-- Another reader takes the place of the first one. -/
@[simp] theorem reading_withReader (r r' : Reader) (text : Text) :
    (machine.reading r text).withReader r' = machine.reading r' text := rfl

/-- In the midst of a parse a machine reads templates in the usual way, if it did at the start. -/
theorem Standard.reading (h : machine.Standard) (r : Reader) (text : Text) :
    (machine.reading r text).Standard :=
  ⟨h.markers, h.registry, h.operators, h.parents⟩

end Machine

namespace Engine

/-! ## Going on

The relation is on machines with some fuel to be spent in between, so it can be put together without
ever saying how much. It is about what is still to come, and not about what the scanner does with
the result. -/

/-- Whether scanning a machine with some text at hand, the last character first, comes to scanning
another one with other text. -/
def Proceeds (pending : Text) (machine : Machine) (pending' : Text) (machine' : Machine) : Prop :=
  ∃ cost, ∀ fuel, scan (fuel + cost + 1) pending machine = scan (fuel + 1) pending' machine'

section

variable {pending pending' pending'' : Text} {machine machine' machine'' : Machine}

theorem Proceeds.refl (pending : Text) (machine : Machine) :
    Proceeds pending machine pending machine := ⟨0, fun _ => rfl⟩

/-- The costs of two ways in a row add up. -/
theorem Proceeds.trans (h : Proceeds pending machine pending' machine')
    (h' : Proceeds pending' machine' pending'' machine'') :
    Proceeds pending machine pending'' machine'' := by
  obtain ⟨cost, h⟩ := h
  obtain ⟨cost', h'⟩ := h'
  refine ⟨cost' + cost, fun fuel => ?_⟩
  rw [← Nat.add_assoc, h, h']

/-- A character that is no marker is put to the text at hand. -/
theorem proceeds_char {c : Char} {t : Text} (pending : Text)
    (hr : machine.parser.reader.unread = c :: t)
    (hc : c ≠ machine.parser.settings.markers.argumentOpening)
    (htag : c ≠ machine.parser.settings.markers.tagOpening) :
    Proceeds pending machine (c :: pending)
      (machine.withReader ⟨Reader.advance c machine.parser.reader.stack, t⟩) := by
  refine ⟨1, fun fuel => ?_⟩
  rw [scan, bind_of_ok (markers_eq _), bind_of_ok (next_eq hr)]
  simp only [if_neg hc, if_neg htag]

/-- Text without markup is put to the text at hand. -/
theorem exists_proceeds_text {s rest : Text} (machine : Machine)
    (hm : machine.parser.settings.markers = {}) (htag : '<' ∉ s) (hbrace : '{' ∉ s) (pending : Text)
    (hr : machine.parser.reader.unread = s ++ rest) :
    ∃ r, r.unread = rest ∧
      Proceeds pending machine (s.reverse ++ pending) (machine.withReader r) := by
  -- One character at a time, each at the cost of one.
  induction s generalizing machine pending with
  | nil => exact ⟨machine.parser.reader, hr, .refl pending machine⟩
  | cons c s ih =>
    rw [List.mem_cons, not_or] at htag hbrace
    have hstep := proceeds_char pending hr (by rw [hm]; exact Ne.symm hbrace.1)
      (by rw [hm]; exact Ne.symm htag.1)
    obtain ⟨r, hrest, hproceeds⟩ := ih
      (machine.withReader ⟨Reader.advance c machine.parser.reader.stack, s ++ rest⟩) hm htag.2
      hbrace.2 (c :: pending) rfl
    refine ⟨r, hrest, hstep.trans ?_⟩
    rw [List.reverse_cons, List.append_assoc]
    exact hproceeds

/-- The text at hand is handed over in front of a tag, and the scanner goes on behind the tag, which
may take what follows it and put something else in its place. -/
theorem proceeds_tag {machine₁ machine₂ machine₃ : Machine} {raw behind : Text}
    (hm : machine.parser.settings.markers = {})
    (hr : machine.parser.reader.unread = '<' :: behind) (hmark : behind.head? ≠ some '!')
    (hadd : addText pending.reverse
      (machine.withReader ⟨Reader.advance '<' machine.parser.reader.stack, behind⟩) =
        .ok () machine₁)
    (htext : ∀ fuel, readTagText (fuel + 1) machine₁ = .ok raw machine₂)
    (htag : ∀ fuel fragment, readTag (fuel + 1) fragment raw machine₂ = .ok () machine₃) :
    Proceeds pending machine [] machine₃ := by
  refine ⟨1, fun fuel => ?_⟩
  have hunread : unread
      (machine.withReader ⟨Reader.advance '<' machine.parser.reader.stack, behind⟩) =
        .ok behind (machine.withReader _) := rfl
  rw [scan, bind_of_ok (markers_eq _), bind_of_ok (next_eq hr), hm]
  simp only [if_neg (by decide : ¬ '<' = '{'), if_true]
  rw [bind_of_ok hunread, if_neg hmark, bind_of_ok hadd, bind_of_ok (htext fuel),
    bind_of_ok (htag fuel _)]

end

/-! ## Macros

From the tag to what the macro has appended, everything is taken from the reader: the text of the
tag, the body and the closing tag. -/

section

variable {name setting key value body s rest : Text} {b : BuiltinMacro}

/-- A level body is read up to its closing tag. -/
theorem readBody_of_level (machine : Machine) (hm : machine.parser.settings.markers = {})
    (hn : name ∈ names)
    (hr : machine.parser.reader.unread = body ++ '<' :: closingText name ++ rest)
    (hbody : TagPattern.Level ⟨name, true, machine.parser.settings.strict⟩ {} body) :
    ∃ r, r.unread = rest ∧ readBody name true machine = .ok body (machine.withReader r) := by
  have htake := hbody.takeBody (closes_closingText hn) rest
  refine ⟨_, Reader.unread_skip_of_append hr, readBody_eq_ok_iff.mpr ⟨rest, ?_, rfl⟩⟩
  rw [hm, hr]
  exact htake

/-- The macro that a tag asks for is run with the body behind the tag. -/
theorem readTag_ofMacro {raw : Text} {t : Tag} (machine : Machine) {machine' : Machine}
    (hm : machine.parser.settings.markers = {}) (hsign : (Text.trim raw).head? = some ':')
    (hparse : Tag.parse {} (Text.trim raw) = .ok t) (hopen : t.closed = false)
    (hread : readBody t.name true machine = .ok body machine')
    (hmaker : machine'.registry.macroMaker? t.name = some (.native (.builtin b))) (fuel : Nat)
    (fragment : Text → Text → Engine Document) :
    readTag fuel fragment raw machine = runBuiltin fuel b (t.bodied body) machine' := by
  have htag : readTag fuel fragment raw machine =
      readMacro fuel fragment (Text.trim raw) machine := by
    obtain ⟨rest, htext⟩ := List.head?_eq_some_iff.mp hsign
    rw [readTag, bind_of_ok (markers_eq machine), hm, htext]
    rfl
  have houtcome : (ofOutcome (Tag.parse machine.parser.settings.markers (Text.trim raw)) :
      Engine Tag) machine = .ok t machine := by
    rw [hm, hparse]
    rfl
  have hwith : withBody t true machine = .ok (t.bodied body) machine' := by
    rw [withBody, if_neg (by simp [hopen])]
    exact bind_of_ok hread
  have hget : (get : Engine Machine) machine' = .ok machine' machine' := rfl
  have hname : (t.bodied body).name = t.name := rfl
  -- The macro is parsed, gets its body, and is looked up by its name.
  rw [htag, readMacro, bind_of_ok (markers_eq machine), bind_of_ok houtcome, bind_of_ok hwith,
    bind_of_ok hget, hname, hmaker]

/-- **A macro is replaced by what it appends.** -/
theorem proceeds_macroTag {pending : Text} (machine machine' : Machine)
    (hm : machine.parser.settings.markers = {}) (hm' : machine'.parser.settings.markers = {})
    (hregistry : machine'.registry = .standard) (hn : name ∈ names)
    (h : IsSetting setting key value)
    (hbody : TagPattern.Level ⟨name, true, machine'.parser.settings.strict⟩ {} body)
    (hmaker : Registry.standard.macroMaker? name = some (.native (.builtin b)))
    (hadd : ∀ r, addText pending.reverse (machine.withReader r) = .ok () (machine'.withReader r))
    (hrun : ∀ fuel r,
      Appends (runBuiltin (fuel + 1) b ((macroOf name setting key value).bodied body))
        (machine'.withReader r) name s)
    (hr : machine.parser.reader.unread = macroTag name setting body ++ rest) :
    ∃ r, r.unread = s ++ rest ∧ Proceeds pending machine [] (machine'.withReader r) := by
  have hsplit : macroTag name setting body ++ rest =
      '<' :: (macroText name setting ++ '>' :: (body ++ '<' :: closingText name ++ rest)) := by
    simp [macroTag_eq]
  rw [hsplit] at hr
  -- The tag, its body and what it appends are taken from the reader one after another.
  obtain ⟨r₁, hr₁, htext⟩ := readTagText_eq
    (machine'.withReader ⟨Reader.advance '<' machine.parser.reader.stack, macroText name setting ++
      '>' :: (body ++ '<' :: closingText name ++ rest)⟩) rfl
    (fun nested => by
      rw [Machine.withReader_settings, hm']
      exact h.tagParts (isWord_of_mem_names hn) nested _)
  obtain ⟨r₂, hr₂, hread⟩ := readBody_of_level (machine'.withReader r₁) hm' hn hr₁ hbody
  rw [Machine.withReader_withReader] at hread
  simp only [Machine.withReader_withReader] at htext
  have htrim : Text.trim (macroText name setting) = _ := h.trim_macroText
  refine ⟨r₂.append s (({} : Markers).macroTitle name), by rw [Reader.unread_append, hr₂],
    proceeds_tag hm hr (by simp [macroText]) (hadd _) (fun fuel => htext (fuel + 1))
      fun fuel fragment => ?_⟩
  rw [readTag_ofMacro (machine'.withReader r₁) hm' (by rw [htrim]; rfl)
    (by rw [htrim]; exact h.parse (isWord_of_mem_names hn)) rfl hread (hregistry ▸ hmaker),
    hrun fuel r₂]
  rfl

end

/-! ## Places -/

/-- Where the scanner is: the text since the last tag, the last character first, what is unread, and
the text of the document. -/
structure Place where
  pending : Text
  reader : Reader
  text : Text

/-- All text so far. -/
def Place.content (p : Place) : Text := p.text ++ p.pending.reverse

/-- Whether the text since the last tag will get into the document. -/
def Place.Inked (p : Place) : Prop := Text.isBlankText p.pending = true → p.pending = []

/-- Whether scanning at one place comes to scanning at another. -/
def Leads (machine : Machine) (p p' : Place) : Prop :=
  ∃ cost, ∀ fuel, scan (fuel + cost + 1) p.pending (machine.reading p.reader p.text) =
    scan (fuel + 1) p'.pending (machine.reading p'.reader p'.text)

variable {machine : Machine} {p p' p'' : Place}

theorem Leads.refl (machine : Machine) (p : Place) : Leads machine p p := Proceeds.refl _ _

theorem Leads.trans (h : Leads machine p p') (h' : Leads machine p' p'') : Leads machine p p'' :=
  Proceeds.trans h h'

/-- Text goes into the document if it is not blank. -/
theorem addText_eq (hp : machine.parser.parents = []) {r : Reader} {text : Text} (p : Place)
    (hink : p.Inked) : addText p.pending.reverse (machine.reading r text) =
      .ok () (machine.reading r (text ++ p.pending.reverse)) := by
  have hparents : (machine.reading r text).parser.parents = [] := hp
  have hreverse : Text.isBlankText p.pending.reverse = Text.isBlankText p.pending :=
    List.all_reverse
  rw [addText, bind_of_ok (parser_eq _), hparents]
  simp only [hreverse]
  cases hblank : Text.isBlankText p.pending with
  | true =>
    rw [hink hblank]
    simp only [List.reverse_nil, List.append_nil]
    rfl
  | false => rfl

/-- The scanner goes on behind a tag, which may take what follows it and put something else in its
place. -/
theorem leads_tag (hstd : machine.Standard) {raw behind : Text} {r r' : Reader}
    (hr : p.reader.unread = '<' :: behind) (hmark : behind.head? ≠ some '!') (hink : p.Inked)
    (htext : ∀ fuel, readTagText (fuel + 1) (machine.reading
      ⟨Reader.advance '<' p.reader.stack, behind⟩ p.content) =
        .ok raw (machine.reading r p.content))
    (htag : ∀ fuel fragment, readTag (fuel + 1) fragment raw (machine.reading r p.content) =
      .ok () (machine.reading r' p.content)) : Leads machine p ⟨[], r', p.content⟩ :=
  proceeds_tag hstd.markers hr hmark (addText_eq hstd.parents p hink) htext htag

theorem leads_macroTag {name setting key value body s rest : Text} {b : BuiltinMacro}
    (hstd : machine.Standard) (hn : name ∈ names) (h : IsSetting setting key value)
    (hbody : TagPattern.Level ⟨name, true, machine.parser.settings.strict⟩ {} body)
    (hmaker : Registry.standard.macroMaker? name = some (.native (.builtin b)))
    (hrun : ∀ fuel r text,
      Appends (runBuiltin (fuel + 1) b ((macroOf name setting key value).bodied body))
        (machine.reading r text) name s)
    (hr : p.reader.unread = macroTag name setting body ++ rest) (hink : p.Inked) :
    ∃ r, r.unread = s ++ rest ∧ Leads machine p ⟨[], r, p.content⟩ :=
  proceeds_macroTag (machine.reading p.reader p.text) (machine.reading p.reader p.content)
    hstd.markers hstd.markers hstd.registry hn h hbody hmaker
    (fun _ => addText_eq hstd.parents p hink) (fun fuel r => hrun fuel r p.content) hr

end Engine

end MarkupTemplate
