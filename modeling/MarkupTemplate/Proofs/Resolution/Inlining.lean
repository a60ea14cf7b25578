import MarkupTemplate.Proofs.Control.Scanning
import MarkupTemplate.Proofs.Engine.Turn
import MarkupTemplate.Proofs.Resolution.References

/-!
# Resolving a text and reading it come to the same

A text with placeholders is resolved in two ways. `expand` replaces each placeholder by the expanded
text of what it stands for; it works on texts, from the inside. The scanner puts what a placeholder
stands for in front of what is unread, and goes on there; it works on one stream, from the left, and
never knows which value it is in.

`Comes` is that both ways come from one text to another. For a text that only refers to arguments
this follows from the same of their values, piece by piece (`exists_comes`), so for all texts along
the references (`exists_comes_value`), however deep they lead. The induction is on the references,
not on the text: values may be longer than the text they stand in.

Both halves of `Comes` are about texts with something behind them, since a value that the scanner
puts in has the rest of the template behind it. The fuel of `expand` is how deep the references lead
and that of the scanner how many turns it takes, so the two need not be equal, and for each way it
is shown that there is enough.
-/

set_option autoImplicit false

namespace MarkupTemplate

/-- What a name stands for in a table. -/
def Dictionary.valueOr (table : Dictionary Text) (name : Text) : Text :=
  (table.get? name).getD nullText

namespace Engine

variable {machine : Machine} {t rest r raw : Text}

/-! ## Resolving

One level of resolving, and what the name of an argument stands for. -/

theorem piecesBy_plain (expanded : Text → Engine Text) (machine : Machine) (t : Text) :
    piecesBy expanded (t.map .plain) machine = .ok t machine := by
  induction t with
  | nil => rfl
  | cons c t ih =>
    rw [List.map_cons, piecesBy, bind_of_ok ih]
    rfl

theorem pieces_of_notMem {m : Markers} (ht : m.argumentOpening ∉ t) :
    m.pieces t = t.map .plain := by
  induction t with
  | nil => simp [Markers.pieces]
  | cons c t ih =>
    rw [List.mem_cons, not_or] at ht
    rw [Markers.pieces_cons (Ne.symm ht.1), ih ht.2, List.map_cons]

/-- A text without placeholders is no exception to how its pieces are resolved, though `expand`
makes one of it. -/
theorem expand_succ (fuel : Nat) (t : Text) (machine : Machine) : expand (fuel + 1) t machine =
    piecesBy (expand fuel) (machine.parser.settings.markers.pieces t) machine := by
  rw [expand, bind_of_ok (markers_eq machine)]
  split
  · rfl
  · next ht =>
    rw [pieces_of_notMem ht, piecesBy_plain]
    rfl

/-- A plain name stands for the argument of that name, or for the word for a missing value. -/
theorem placeholderBy_of_isName (expanded : Text → Engine Text)
    (h : machine.parser.settings.markers.isName raw = true) :
    placeholderBy expanded raw machine =
      .ok (machine.parser.environment.arguments.valueOr (Markers.key raw)) machine := by
  rw [placeholderBy, bind_of_ok (parser_eq machine), Markers.key]
  have hname := h
  unfold Markers.isName at hname
  cases htrim : Text.trim raw with
  | nil => rfl
  | cons c name =>
    rw [htrim] at hname
    -- None of the five marks stands in front of the name.
    simp only [List.head?_cons, Option.all_some, List.mem_cons, List.not_mem_nil, or_false, not_or,
      decide_eq_true_eq] at hname
    obtain ⟨hequation, hcondition, haction, hline, hpreference⟩ := hname
    have hmarked : isMarked machine.parser.settings.markers (c :: name) = false := by
      simp [isMarked, haction, hline, hpreference]
    simp only [Text.dropFirst?, if_neg hequation, if_neg hcondition, hmarked]
    rfl

/-! ## Both ways

Three rules by which a text comes to another one: nothing, a character more, a placeholder more. -/

/-- Whether resolving a text, and scanning it wherever it stands, both come to another one. -/
structure Comes (machine : Machine) (t r : Text) : Prop where
  resolving : ∃ least, ∀ fuel, least ≤ fuel →
    piecesBy (expand fuel) (machine.parser.settings.markers.pieces t) machine = .ok r machine
  scanning : ∀ p rest, p.reader.unread = t ++ rest → ∃ reader, reader.unread = rest ∧
    Leads machine p ⟨r.reverse ++ p.pending, reader, p.text⟩

theorem comes_nil (machine : Machine) : Comes machine [] [] where
  resolving := ⟨0, fun fuel _ => by rw [Markers.pieces]; rfl⟩
  scanning p _ hr := ⟨p.reader, hr, .refl machine p⟩

/-- A character that is no marker is put to the text at hand. -/
theorem Comes.cons {c : Char} (hc : c ≠ machine.parser.settings.markers.argumentOpening)
    (htag : c ≠ machine.parser.settings.markers.tagOpening) (h : Comes machine t r) :
    Comes machine (c :: t) (c :: r) where
  resolving := by
    obtain ⟨least, hresolving⟩ := h.resolving
    refine ⟨least, fun fuel hle => ?_⟩
    rw [Markers.pieces_cons hc, piecesBy, bind_of_ok (hresolving fuel hle)]
    rfl
  scanning p rest hr := by
    obtain ⟨reader, hrest, hlead⟩ := h.scanning
      ⟨c :: p.pending, ⟨Reader.advance c p.reader.stack, t ++ rest⟩, p.text⟩ rest rfl
    have hstep : Leads machine p
        ⟨c :: p.pending, ⟨Reader.advance c p.reader.stack, t ++ rest⟩, p.text⟩ :=
      proceeds_char p.pending hr hc htag
    refine ⟨reader, hrest, hstep.trans ?_⟩
    rw [List.reverse_cons, List.append_assoc]
    exact hlead

/-- The scanner goes on with what a placeholder stands for, and behind that with the rest. -/
theorem exists_scan_placeholder (value : Text)
    (htake : Text.takeNested machine.parser.settings.markers.argumentOpening
      machine.parser.settings.markers.argumentClosing 0 t = (raw, some rest)) (p : Place)
    (hr : p.reader.unread = machine.parser.settings.markers.argumentOpening :: t) :
    ∃ reader, reader.unread = value ++ rest ∧ ∀ fuel,
      (∀ r, placeholder fuel raw (machine.reading r p.text) =
        .ok value (machine.reading r p.text)) →
      scan (fuel + 1) p.pending (machine.reading p.reader p.text) =
        scan fuel p.pending (machine.reading reader p.text) := by
  have hcut : t = (raw ++ [machine.parser.settings.markers.argumentClosing]) ++ rest := by
    rw [Text.eq_of_takeNested htake]
    simp
  let inside : Reader :=
    ⟨Reader.advance machine.parser.settings.markers.argumentOpening p.reader.stack, t⟩
  let behind : Reader := Reader.skip (inside.available - rest.length) inside
  have hbehind : behind.unread = rest := Reader.unread_skip_of_append hcut
  refine ⟨behind.append value (machine.parser.settings.markers.placeholder raw),
    by rw [Reader.unread_append, hbehind], fun fuel hvalue => ?_⟩
  -- The reader is put behind the placeholder, and then the value in front of what is left.
  have hread : readPlaceholder (machine.reading inside p.text) =
      .ok raw (machine.reading behind p.text) := by
    have hunread : unread (machine.reading inside p.text) = .ok t (machine.reading inside p.text) :=
      rfl
    rw [readPlaceholder, bind_of_ok (markers_eq _), bind_of_ok hunread, Machine.reading_settings,
      htake]
    rfl
  rw [scan, bind_of_ok (markers_eq _), bind_of_ok (next_eq hr), Machine.reading_settings]
  dsimp only
  rw [if_pos rfl, Machine.reading_withReader, Machine.reading_reader]
  show (readPlaceholder >>= _) (machine.reading inside p.text) = _
  rw [bind_of_ok hread, bind_of_ok (hvalue behind)]
  rfl

/-- The placeholder of an argument costs a turn, however little fuel there is. -/
theorem leads_placeholder (hname : machine.parser.settings.markers.isName raw = true)
    (htake : Text.takeNested machine.parser.settings.markers.argumentOpening
      machine.parser.settings.markers.argumentClosing 0 t = (raw, some rest)) (p : Place)
    (hr : p.reader.unread = machine.parser.settings.markers.argumentOpening :: t) :
    ∃ reader, reader.unread = machine.parser.environment.arguments.valueOr
        (Markers.key raw) ++ rest ∧
      Leads machine p ⟨p.pending, reader, p.text⟩ := by
  obtain ⟨reader, hunread, hscan⟩ := exists_scan_placeholder _ htake p hr
  refine ⟨reader, hunread, 1, fun fuel => hscan (fuel + 1) fun r => ?_⟩
  have hname' : (machine.reading r p.text).parser.settings.markers.isName raw = true := hname
  exact placeholderBy_of_isName _ hname'

/-- A placeholder comes to what its value comes to. -/
theorem Comes.placeholder {value : Text}
    (hname : machine.parser.settings.markers.isName raw = true)
    (htake : Text.takeNested machine.parser.settings.markers.argumentOpening
      machine.parser.settings.markers.argumentClosing 0 t = (raw, some rest))
    (hvalue : Comes machine (machine.parser.environment.arguments.valueOr
      (Markers.key raw)) value)
    (hrest : Comes machine rest r) :
    Comes machine (machine.parser.settings.markers.argumentOpening :: t) (value ++ r) where
  resolving := by
    obtain ⟨least, hvalue⟩ := hvalue.resolving
    obtain ⟨least', hrest⟩ := hrest.resolving
    -- The value is expanded with one less than the text is resolved with.
    refine ⟨max (least + 1) least', fun fuel hle => ?_⟩
    obtain ⟨hle, hle'⟩ := Nat.max_le.mp hle
    obtain ⟨more, rfl⟩ : ∃ more, fuel = more + 1 := ⟨fuel - 1, by omega⟩
    have hexpand := expand_succ more (machine.parser.environment.arguments.valueOr
      (Markers.key raw)) machine
    rw [hvalue more (by omega)] at hexpand
    rw [Markers.pieces_opening htake, piecesBy, bind_of_ok (placeholderBy_of_isName _ hname),
      bind_of_ok hexpand, bind_of_ok (hrest _ hle')]
    rfl
  scanning p behind hr := by
    rw [List.cons_append] at hr
    -- Behind the placeholder the value is read first, and then the text that is left.
    obtain ⟨reader, hunread, hlead⟩ :=
      leads_placeholder hname (Text.takeNested_append_of_some htake behind) p hr
    obtain ⟨reader', hunread', hlead'⟩ := hvalue.scanning ⟨p.pending, reader, p.text⟩ _ hunread
    obtain ⟨reader'', hunread'', hlead''⟩ :=
      hrest.scanning ⟨value.reverse ++ p.pending, reader', p.text⟩ _ hunread'
    refine ⟨reader'', hunread'', hlead.trans (hlead'.trans ?_)⟩
    rw [List.reverse_append, List.append_assoc]
    exact hlead''

/-! ## Texts and values

The induction on the pieces of a text, and around it the one on references. -/

/-- A text comes to another one, if the values that it refers to do. -/
theorem exists_comes (ht : machine.parser.settings.markers.RefersOnly t)
    (h : ∀ raw ∈ machine.parser.settings.markers.placeholders t, ∃ value,
      Comes machine (machine.parser.environment.arguments.valueOr (Markers.key raw)) value) :
    ∃ r, Comes machine t r := by
  fun_induction Markers.pieces machine.parser.settings.markers t with
  | case1 => exact ⟨[], comes_nil machine⟩
  | case2 t raw rest htake ih =>
    obtain ⟨raw', rest', htake', hname, hrefers⟩ := ht.exists_of_opening
    obtain ⟨rfl, hrest⟩ := Prod.mk.inj (htake.symm.trans htake')
    obtain rfl := Option.some.inj hrest
    rw [Markers.placeholders_opening htake] at h
    obtain ⟨value, hvalue⟩ := h raw List.mem_cons_self
    obtain ⟨r, hr⟩ := ih hrefers fun raw' hraw' => h raw' (List.mem_cons_of_mem _ hraw')
    exact ⟨value ++ r, hvalue.placeholder hname htake hr⟩
  | case3 t raw htake =>
    obtain ⟨raw', rest', htake', -⟩ := ht.exists_of_opening
    cases htake.symm.trans htake'
  | case4 c t hc ih =>
    obtain ⟨htag, hrefers⟩ := ht.of_cons hc
    rw [Markers.placeholders_cons hc] at h
    obtain ⟨r, hr⟩ := ih hrefers h
    exact ⟨c :: r, hr.cons hc htag⟩

/-- **Every value comes to a text**, by induction on what it refers to. -/
theorem exists_comes_value
    (hacyclic : ∀ name, ¬Relation.TransGen (machine.parser.settings.markers.Refers
      machine.parser.environment.arguments) name name)
    (hvalues : ∀ name value, machine.parser.environment.arguments.get? name = some value →
      machine.parser.settings.markers.RefersOnly value)
    (hnull : machine.parser.settings.markers.argumentOpening ∉ nullText ∧
      machine.parser.settings.markers.tagOpening ∉ nullText) (name : Text) :
    ∃ r, Comes machine (machine.parser.environment.arguments.valueOr name) r := by
  -- On the references, which have no cycles: a value comes out once those it refers to do.
  induction name using (Markers.wellFounded_refers hacyclic).induction with
  | _ name ih =>
    unfold Dictionary.valueOr
    cases hvalue : machine.parser.environment.arguments.get? name with
    | none =>
      refine exists_comes (Markers.refersOnly_of_notMem hnull.1 hnull.2) fun raw hraw => ?_
      rw [Option.getD_none, Markers.placeholders_of_notMem hnull.1] at hraw
      cases hraw
    | some value =>
      exact exists_comes (hvalues name value hvalue) fun raw hraw =>
        ih _ ⟨value, hvalue, raw, hraw, rfl⟩

/-! ## Whole templates

A template is read to its end and nothing is open there, so what it comes to is the text of its
document. -/

/-- At the end of a template the text at hand goes into the document, unless it is blank. Nothing is
open then, so the scan succeeds. -/
theorem scan_finish (hparents : machine.parser.parents = []) {p : Place}
    (hr : p.reader.unread = []) : ∃ reader, ∀ fuel,
      scan (fuel + 1) p.pending (machine.reading p.reader p.text) = .ok () (machine.reading reader
        (p.text ++ if Text.isBlankText p.pending.reverse then [] else p.pending.reverse)) := by
  refine ⟨p.reader.next.2, fun fuel => ?_⟩
  have hadd : addText p.pending.reverse (machine.reading p.reader.next.2 p.text) =
      .ok () (machine.reading p.reader.next.2
        (p.text ++ if Text.isBlankText p.pending.reverse then [] else p.pending.reverse)) := by
    have hnone : (machine.reading p.reader.next.2 p.text).parser.parents = [] := hparents
    rw [addText, bind_of_ok (parser_eq _), hnone]
    cases hblank : Text.isBlankText p.pending.reverse with
    | true => simp only [if_pos, List.append_nil]; rfl
    | false => rfl
  -- No node is open, so nothing is left unclosed.
  have hclosed : ∀ text, checkClosed (machine.reading p.reader.next.2 text) =
      .ok () (machine.reading p.reader.next.2 text) := by
    intro text
    have hname : parentName (machine.reading p.reader.next.2 text) =
        .ok (machine.parser.parents.head?.map fun n => n.tag.name)
          (machine.reading p.reader.next.2 text) := rfl
    rw [checkClosed, bind_of_ok hname, hparents]
    rfl
  rw [scan, bind_of_ok (markers_eq _), bind_of_ok (next_end hr)]
  simp only
  rw [Machine.reading_withReader, Machine.reading_reader, bind_of_ok hadd]
  exact hclosed _

/-- A text that comes to another one is the template of it. -/
theorem Comes.parse (h : Comes machine t r) (hrest : machine.parser.atRest = machine.parser)
    (hlisteners : ∀ phase, machine.parser.listeners phase = []) (title : Text) :
    ∃ least, ∀ fuel, least ≤ fuel → parse fuel t title machine =
      .ok ⟨[], if Text.isBlankText r then [] else r⟩ machine := by
  have hparents : machine.parser.parents = [] := (congrArg Parser.parents hrest).symm
  have hroots : machine.parser.roots = [] := (congrArg Parser.roots hrest).symm
  have htext : machine.parser.text = [] := (congrArg Parser.text hrest).symm
  obtain ⟨reader, hunread, cost, hlead⟩ := h.scanning
    ⟨[], machine.parser.reader.append t title, machine.parser.text⟩ []
    (by rw [List.append_nil]; exact unread_append_of_atRest hrest t title)
  obtain ⟨reader', hfinish⟩ := scan_finish hparents
    (p := ⟨r.reverse ++ [], reader, machine.parser.text⟩) hunread
  refine ⟨cost + 1, fun fuel hle => ?_⟩
  obtain ⟨more, rfl⟩ : ∃ more, fuel = more + cost + 1 := ⟨fuel - cost - 1, by omega⟩
  have hscan : scan (more + cost + 1) []
      (machine.withReader (machine.parser.reader.append t title)) =
        .ok () (machine.reading reader' (if Text.isBlankText r then [] else r)) := by
    have hboth := (hlead more).trans (hfinish more)
    rw [List.append_nil, List.reverse_reverse, htext, List.nil_append] at hboth
    rw [← hboth, ← htext]
    rfl
  rw [← hroots]
  exact parse_of_scan_atRest hrest hlisteners hscan

/-- **Resolving a text and parsing it as a template both end, and come to the same text**, if the
references of arguments lead into no circle. A document has no text if that is blank. -/
theorem exists_text (hrest : machine.parser.atRest = machine.parser)
    (hlisteners : ∀ phase, machine.parser.listeners phase = [])
    (hacyclic : ∀ name, ¬Relation.TransGen (machine.parser.settings.markers.Refers
      machine.parser.environment.arguments) name name)
    (hvalues : ∀ name value, machine.parser.environment.arguments.get? name = some value →
      machine.parser.settings.markers.RefersOnly value)
    (hnull : machine.parser.settings.markers.argumentOpening ∉ nullText ∧
      machine.parser.settings.markers.tagOpening ∉ nullText)
    (ht : machine.parser.settings.markers.RefersOnly t) :
    ∃ r, (∃ least, ∀ fuel, least ≤ fuel → expand fuel t machine = .ok r machine) ∧
      ∀ title, ∃ least, ∀ fuel, least ≤ fuel → parse fuel t title machine =
        .ok ⟨[], if Text.isBlankText r then [] else r⟩ machine := by
  obtain ⟨r, hr⟩ := exists_comes ht fun raw _ =>
    exists_comes_value hacyclic hvalues hnull (Markers.key raw)
  obtain ⟨least, hresolving⟩ := hr.resolving
  refine ⟨r, ⟨least + 1, fun fuel hle => ?_⟩, hr.parse hrest hlisteners⟩
  obtain ⟨more, rfl⟩ : ∃ more, fuel = more + 1 := ⟨fuel - 1, by omega⟩
  rw [expand_succ]
  exact hresolving more (by omega)

/-- A machine with arguments that refer to each other, to one that is missing, and to one that has a
closing marker of its own. -/
def greetingMachine : Machine where
  parser := { environment := (((({} : Environment).setArgument
    "greeting".toList "Dear \x7bname\x7d, \x7b Title \x7d".toList).setArgument
    "name".toList "\x7bfirst\x7d \x7bfirst\x7d \x7blast\x7d".toList).setArgument
    "first".toList "a\x7db".toList) }

theorem exists_text_greeting : ∃ r,
    (∃ least, ∀ fuel, least ≤ fuel →
      expand fuel "\x7d\x7bGREETING\x7d".toList greetingMachine = .ok r greetingMachine) ∧
    ∀ title, ∃ least, ∀ fuel, least ≤ fuel →
      parse fuel "\x7d\x7bGREETING\x7d".toList title greetingMachine =
        .ok ⟨[], if Text.isBlankText r then [] else r⟩ greetingMachine := by
  have hentries : ∀ e ∈ greetingMachine.parser.environment.arguments.entries,
      ({} : Markers).RefersOnly e.2 := by decide +kernel
  refine exists_text rfl (fun phase => by cases phase <;> rfl)
    (Markers.not_transGen_of_rank (fun name => if name = "greeting".toList then 2 else
      if name = "name".toList then 1 else 0) (by decide +kernel))
    (fun name value hvalue => hentries _ (Dictionary.mem_of_lookup hvalue)) (by decide)
    (by decide +kernel)

end Engine

end MarkupTemplate
