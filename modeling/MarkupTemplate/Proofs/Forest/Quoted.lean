import MarkupTemplate.Proofs.Forest.Document
import MarkupTemplate.Proofs.Forest.Order
import MarkupTemplate.Proofs.Tag.Arguments
import MarkupTemplate.Proofs.Twin.Leniency

/-!
# Arguments in quotes

The value of an argument is put into the text of a tag as it is, and the attributes are read from
that text. Around the value the template has quotes, so its blanks, its slashes, its separators and
its tag markers are part of the attribute. What ends the quotes is another quote of the same kind,
and nothing in the value is protected from being one.

So the attribute has exactly the value of the argument if and only if there is no double quote in it
(`parsesTo_quoted_iff`). The rest of the value cannot do any harm, but behind a quote it can: what
follows is read as the template of a tag, with attributes of its own (`not_parsesTo_quoted`).

For the one direction the tag is read. For the other it is enough to look at lengths: a quote of the
value is missing from what is read, and so what is read is shorter than the value
(`exists_of_items`). Nothing has to be known of how such a tag is read, or whether it is at all.
-/

set_option autoImplicit false

namespace MarkupTemplate

/-! ## Quotes in a quoted value

What the list of attributes can be, if there is a quote in the value. -/

namespace Attributes

variable {key value : Text}

/-- A value under way grows by a character at most. -/
theorem length_push (separator : Char) (p : Pending) (c : Char) :
    (p.push separator c).value.length ≤ p.value.length + 1 := by
  unfold Pending.push
  split
  · split <;> simp
  · split
    · simp
    · split <;> simp

/-- In a text that ends in a quote, the quote is no part of the item under way. -/
theorem exists_of_items {p : Pending} {t : Text} {read : List Item}
    (h : items '=' (some p) (t ++ ['"']) = some read) :
    ∃ item rest, read = item :: rest ∧ item.value.length ≤ p.value.length + t.length := by
  induction t generalizing p with
  | nil =>
    have hblank : isBlank '"' = false := by decide
    have hquote : isQuote '"' = true := by decide
    rw [List.nil_append, items, if_neg (by simp [hblank]), items] at h
    cases hp : p.quote with
    | none => simp [Pending.push, hp, hquote] at h
    | some q =>
      by_cases hq : '"' = q
      · simp only [Pending.push, hp, if_pos hq, Option.isSome_none, Bool.false_eq_true, if_false,
          Option.some.injEq] at h
        exact ⟨_, _, h.symm, Nat.le_refl _⟩
      · simp [Pending.push, hp, hq] at h
  | cons c t ih =>
    -- Outside of quotes a blank ends the item, and any other character goes on with it.
    rw [List.cons_append, items] at h
    split at h
    · obtain ⟨rest, -, hread⟩ := Option.map_eq_some_iff.mp h
      exact ⟨p.item, rest, hread.symm, Nat.le_add_right _ _⟩
    · obtain ⟨item, rest, hread, hlength⟩ := ih h
      have hpush := length_push '=' p c
      refine ⟨item, rest, hread, ?_⟩
      rw [List.length_cons]
      omega

/-- A quote in a quoted value is missing from what is read. -/
theorem notMem_of_items (hkey : isKey key = true) {read : List Item}
    (h : items '=' .none (settings [(key, value)]) = some read) {item : Item} {rest : List Item}
    (hread : read = item :: rest) (hvalue : item.value = value) : '"' ∉ value := by
  intro hmem
  obtain ⟨before, behind, rfl, hbefore⟩ := List.eq_append_cons_of_mem hmem
  have hblank : isBlank ' ' = true := by decide
  have hsplit : settings [(key, before ++ '"' :: behind)] =
      ' ' :: (key ++ '=' :: ('"' :: before ++ '"' :: (behind ++ ['"']))) := by
    simp [settings]
  rw [hsplit, items, if_pos hblank, items_key hkey, items_quoted_append hbefore] at h
  -- What is read ends at the first quote or goes on behind it without that quote.
  obtain ⟨item', rest', hread', hlength⟩ := exists_of_items h
  obtain ⟨rfl, -⟩ := List.cons.inj (hread.symm.trans hread')
  rw [hvalue, List.length_append, List.length_cons] at hlength
  simp only at hlength
  omega

/-- If the attributes are read as they were meant, there was no quote in the value. -/
theorem notMem_of_parse (hkey : isKey key = true) {tag : Text} {a : Attributes}
    (h : parse tag (settings [(key, value)]) '=' = .ok a) (ha : a.pairs = [(key, value)]) :
    '"' ∉ value := by
  obtain ⟨read, hread⟩ := exists_items h
  have hpairs : pairsOf read = [(key, value)] ∧ valuesOf read = [] := by
    rw [parse, hread] at h
    dsimp only at h
    split at h
    all_goals cases h
    · cases ha
    · cases ha
    · next hvalues _ => exact ⟨ha, hvalues⟩
  cases read with
  | nil => cases hpairs.1
  | cons item rest =>
    obtain ⟨hpairs, hvalues⟩ := hpairs
    cases hitem : item.key with
    | none => simp [valuesOf, hitem] at hvalues
    | some k =>
      rw [pairsOf, List.filterMap_cons, hitem] at hpairs
      have hvalue := (Prod.mk.inj (List.cons.inj hpairs).1).2
      exact notMem_of_items hkey hread rfl hvalue

end Attributes

/-! ## Tags with an argument in quotes

The tag is filled in first and then read like any written tag. -/

/-- The text of a tag that closes itself, with the placeholder of an argument as an attribute, from
behind its opening marker on. -/
def quoting (name key argument : Text) : Text :=
  name ++ ' ' :: (key ++ ['=', '"']) ++ '{' :: (argument ++ '}' :: "\"/>".toList)

variable {name key argument value : Text}

/-- The parts of the tag: text, the placeholder, and the end behind the quote. -/
theorem tagParts_quoting (hname : name.IsWord) (hkey : isKey key = true)
    (hargument : argument.IsWord) (nested : Bool) :
    ({} : Markers).tagParts nested none (quoting name key argument ++ []) =
      (name ++ ' ' :: (key ++ ['=', '"'])).map .char ++ .placeholder argument ::
        ("\"/".toList.map .char ++ [.closing]) := by
  have hplain : ∀ c ∈ name ++ ' ' :: (key ++ ['=']), ({} : Markers).isPlain c = true := by
    intro c hc
    rcases List.mem_append.mp hc with hc | hc
    · exact isPlain_name hname c hc
    · rcases List.mem_cons.mp hc with rfl | hc
      · decide
      · exact isPlain_key hkey c hc
  have hend : ({} : Markers).tagParts nested (some '"') "\"/>".toList =
      "\"/".toList.map .char ++ [.closing] := by
    simp [Markers.tagParts, isQuote]
  -- Characters, the quote that opens, the placeholder inside, and the rest of the tag.
  have hsplit : quoting name key argument ++ [] = (name ++ ' ' :: (key ++ ['='])) ++
      '"' :: '{' :: (argument ++ '}' :: "\"/>".toList) := by
    simp [quoting]
  have hquote : ∀ t, ({} : Markers).tagParts nested none ('"' :: t) =
      .char '"' :: ({} : Markers).tagParts nested (some '"') t := by
    intro t
    rw [Markers.tagParts, if_neg (by decide)]
    rfl
  rw [hsplit, Markers.tagParts_append _ (List.all_eq_true.mpr hplain), hquote,
    Markers.tagParts_argument hargument, hend]
  simp

/-- What the tag is filled in to is a written tag with the value as its attribute. -/
theorem fills_quoting {e : Environment} (hargument : argument.IsWord)
    (hvalue : e.argument? argument = some value) (hbrace : '{' ∉ value) :
    Fills e ((name ++ ' ' :: (key ++ ['=', '"'])).map .char ++ .placeholder argument ::
        ("\"/".toList.map .char ++ [.closing])) (quoting name key argument)
      (TagToken.tag name [(key, value)] true).raw := by
  have hfills := Fills.chars (name ++ ' ' :: (key ++ ['=', '"']))
    (.argument hargument hvalue hbrace (Fills.chars "\"/".toList (.closing (e := e))))
  have hraw : (TagToken.tag name [(key, value)] true).raw =
      (name ++ ' ' :: (key ++ ['=', '"'])) ++ (value ++ ("\"/".toList ++ [])) := by
    simp [TagToken.raw, settings]
  rw [hraw]
  exact hfills

namespace Engine

variable {machine machine' : Machine}

/-- The turn that comes upon a tag with an argument in quotes. -/
theorem exists_turn_quoting (hmarkers : machine.parser.settings.markers = {})
    (hname : name.IsWord) (hkey : isKey key = true) (hargument : argument.IsWord)
    (hvalue : machine.parser.environment.argument? argument = some value) (hbrace : '{' ∉ value)
    (hr : machine.parser.reader.unread = '<' :: quoting name key argument) :
    ∃ r, r.unread = [] ∧ ∀ fuel, turn (fuel + 1) [] machine =
      .ok (.tag (TagToken.tag name [(key, value)] true).raw) (machine.withReader r) := by
  let opened := machine.withReader
    ⟨Reader.advance '<' machine.parser.reader.stack, quoting name key argument⟩
  obtain ⟨r, hrest, hread⟩ := readTagText_of_fills opened
    (fills_quoting hargument hvalue hbrace) hmarkers (tagParts_quoting hname hkey hargument)
    (List.append_nil _).symm
  refine ⟨r, hrest, fun fuel => ?_⟩
  have hcomment : opened.parser.reader.unread.head? ≠ some '!' := by
    intro hmark
    have hmem : '!' ∈ (name ++ (' ' :: (key ++ ['=', '"']) ++
        '{' :: (argument ++ '}' :: "\"/>".toList))).head? := by
      rw [← List.append_assoc]
      exact hmark
    exact hname.notMem (by decide) (mem_of_head? hname hmem)
  have hunread : unread opened = .ok opened.parser.reader.unread opened := rfl
  rw [turn, bind_of_ok (markers_eq _), bind_of_ok (next_eq hr), hmarkers]
  dsimp only
  rw [if_neg (by decide), if_pos rfl, bind_of_ok hunread, if_neg hcomment, List.reverse_nil,
    bind_of_ok (addText_nil _), bind_of_ok (hread fuel)]
  rfl

/-! ## Documents -/

/-- The tag that the scanner first comes upon is taken in, and if it opens one, that is the first of
the document. -/
theorem exists_tags_of_turn {fuel : Nat} {raw : Text} {between : Machine}
    (hstart : machine.listing = [])
    (hturn : turn fuel [] machine = .ok (.tag raw) between)
    (h : scan (fuel + 1) [] machine = .ok () machine') :
    (∃ behind, readTag fuel (apart (scan fuel [])) raw between = .ok () behind) ∧
      ∃ opened, Node.tags machine'.parser.roots = (opened? between raw).toList ++ opened := by
  rw [scan_succ, bind_of_ok hturn] at h
  obtain ⟨_, behind, hread, h⟩ := bind_eq_ok_iff.mp h
  obtain ⟨opened, last, hrun, hends⟩ := exists_run_of_scan h
  have hlisting := (Run.of_step (.tag hturn hread) hrun).listing_eq
  refine ⟨⟨behind, hread⟩, opened, ?_⟩
  rw [tags_of_ends hends, hlisting]
  show machine.listing ++ _ = _
  rw [hstart, List.nil_append]

/-- A tag that is taken in as an element has the attributes that are read from its text. -/
theorem exists_opened_of_readTag {fuel : Nat} {fragment : Text → Text → Engine Document}
    {pairs : List (Text × Text)} {closed : Bool} {kind : Text} {container : Bool}
    (hmarkers : machine.parser.settings.markers = {}) (hname : name.IsWord)
    (hknown : machine.registry.element? name = some (kind, container))
    (h : readTag fuel fragment (TagToken.tag name pairs closed).raw machine = .ok () machine') :
    ∃ attributes, Attributes.parse name (settings pairs) '=' = .ok attributes ∧
      opened? machine (TagToken.tag name pairs closed).raw =
        some { TagToken.read name pairs closed with attributes } := by
  rw [readTag_eq, bind_of_ok (markers_eq _), hmarkers, tagText_raw hname, takeTag, readRegular_eq,
    bind_of_ok (markers_eq _), hmarkers] at h
  obtain ⟨t, _, houtcome, _⟩ := bind_eq_ok_iff.mp h
  obtain ⟨hparse, _⟩ := ofOutcome_eq_ok_iff.mp houtcome
  have hraw := hparse
  simp only [Tag.parse, content_raw hname, cutName_settings hname, if_neg hname.1] at hparse
  cases hattributes : Attributes.parse name (settings pairs) '=' with
  | error f =>
    rw [hattributes] at hparse
    cases hparse
  | ok attributes =>
    rw [hattributes] at hparse
    obtain rfl := Except.ok.inj hparse
    obtain ⟨own, hmaker, _⟩ := Registry.tagMaker?_of_element? hknown
    refine ⟨attributes, rfl, ?_⟩
    rw [opened?, hmarkers, tagText_raw hname]
    dsimp only
    rw [hraw]
    dsimp only
    rw [hmaker]
    rfl

theorem ParsesTo.of_le {fuel fuel' : Nat} {template title : Text} {forest : List Outline}
    (hle : fuel ≤ fuel') (h : ParsesTo machine fuel template title forest) :
    ParsesTo machine fuel' template title forest := by
  obtain ⟨document, notices, hparse, hdocument⟩ := h
  exact ⟨document, notices, parse_of_le hle hparse, hdocument⟩

section

variable {kind : Text} {container : Bool} (hmachine : machine.ForElements) (hname : name.IsWord)
  (hkey : isKey key = true) (hargument : argument.IsWord)
  (hvalue : machine.parser.environment.argument? argument = some value) (hbrace : '{' ∉ value)

include hmachine hname hkey hargument hvalue hbrace

/-- The first turn of the parse comes upon the tag. -/
theorem exists_first_turn (title : Text) : ∃ r, r.unread = [] ∧ ∀ fuel, turn (fuel + 1) []
    (machine.withReader (machine.parser.reader.append ('<' :: quoting name key argument) title)) =
      .ok (.tag (TagToken.tag name [(key, value)] true).raw) (machine.withReader r) :=
  exists_turn_quoting (show (machine.withReader _).parser.settings.markers = {} from
    hmachine.markers) hname hkey hargument hvalue hbrace (unread_of_atRest hmachine _ title)

variable (hknown : machine.registry.element? name = some (kind, container))

include hknown

/-- Only a value without quotes gets into the document as it is. -/
theorem notMem_of_parsesTo_quoting {fuel : Nat} {title : Text}
    (h : ParsesTo machine fuel ('<' :: quoting name key argument) title
      [.mk name [(key, value)] true []]) : '"' ∉ value := by
  obtain ⟨document, notices, hparse, hforest, _⟩ := h.of_le (Nat.le_add_right fuel 2)
  obtain ⟨start, hstart, last, behind, hrun, hends⟩ := opens_of_parse hmachine.atRest hparse
  rw [startParse_eq (hmachine.listeners .before)] at hstart
  obtain ⟨_, rfl⟩ := EStateM.Result.ok.inj hstart
  have hlisting : (machine.withReader (machine.parser.reader.append
      ('<' :: quoting name key argument) title)).listing = [] := by
    show machine.listing = []
    rw [Machine.listing, ← hmachine.atRest]
    rfl
  obtain ⟨r, _, hturn⟩ := exists_first_turn hmachine hname hkey hargument hvalue hbrace title
  obtain ⟨⟨_, hread⟩, opened, htags⟩ := exists_tags_of_turn hlisting (hturn fuel)
    (scan_eq_ok_iff.mpr ⟨_, last, hrun, hends⟩)
  obtain ⟨a, ha, hopened⟩ := exists_opened_of_readTag
    (show (machine.withReader r).parser.settings.markers = {} from hmachine.markers) hname hknown
    hread
  -- The one node of the document has the tag that was read.
  rw [tags_of_ends hends, hrun.listing_eq, hlisting, hopened] at htags
  obtain ⟨n, rest, hnodes⟩ : ∃ n rest, document.nodes = n :: rest := by
    cases hnodes : document.nodes with
    | nil => rw [hnodes] at hforest; cases hforest
    | cons n rest => exact ⟨n, rest, rfl⟩
  rw [hnodes, List.nil_append, Node.tags_cons] at htags
  obtain ⟨htag, _⟩ := List.cons.inj htags
  have hpairs : n.tag.attributes.pairs = [(key, value)] := by
    obtain ⟨tag, conduct, widget, children⟩ := n
    rw [hnodes, Node.outlines, Node.outline] at hforest
    injection (List.cons.inj hforest).1
  rw [htag] at hpairs
  exact Attributes.notMem_of_parse hkey ha hpairs

theorem exists_parsesTo_quoting (htakes : machine.registry.Takes kind key) (hquote : '"' ∉ value) :
    ∃ enough, ∀ fuel, enough ≤ fuel → ∀ title,
      ParsesTo machine fuel ('<' :: quoting name key argument) title
        [.mk name [(key, value)] true []] := by
  have helement : (TagToken.tag name [(key, value)] true).IsElement machine.registry := by
    refine ⟨⟨hname, ?_⟩, kind, container, hknown, ?_⟩
    · simpa using ⟨hkey, hquote, hbrace⟩
    · simpa using htakes
  obtain ⟨enough, hread⟩ := exists_readTag hmachine helement
  refine ⟨max enough 1 + 1, fun fuel hfuel title => ?_⟩
  obtain ⟨less, rfl⟩ : ∃ less, fuel = less + 2 := ⟨fuel - 2, by omega⟩
  obtain ⟨r, hunread, hturn⟩ :=
    exists_first_turn hmachine hname hkey hargument hvalue hbrace title
  -- The tag that is read is the one that would be written with the value in it.
  have htag := hread (less + 1) (by omega) (apart (scan (less + 1) [])) r [] [] machine.notices {}
    ⟨rfl, rfl, by simp⟩
  rw [Machine.growing_of_atRest _ hmachine.atRest] at htag
  have hends := htag.bind (f := fun _ => scan (less + 1) []) fun s parents roots notices hs =>
    scan_end_ends less hunread hs
  have hscan : scan (less + 2) [] (machine.withReader
      (machine.parser.reader.append ('<' :: quoting name key argument) title)) =
      (readTag (less + 1) (apart (scan (less + 1) [])) (TagToken.tag name [(key, value)] true).raw
        >>= fun _ => scan (less + 1) []) (machine.withReader r) := by
    rw [scan_succ, bind_of_ok (hturn less)]
    rfl
  rw [← hscan] at hends
  exact parsesAs_of_ends hmachine hends

end

/-- **An attribute in quotes takes the value of an argument just if there is no double quote in
it**, and then the value changes nothing else about the tag. -/
theorem parsesTo_quoted_iff (hmachine : machine.ForElements)
    (hregistry : machine.registry = .standard)
    (hvalue : machine.parser.environment.argument? "x".toList = some value) (hbrace : '{' ∉ value) :
    ∃ enough, ∀ fuel, enough ≤ fuel → ∀ title,
      (ParsesTo machine fuel "<element title=\"\x7bx\x7d\"/>".toList title
        [.mk "element".toList [("title".toList, value)] true []] ↔ '"' ∉ value) := by
  have htemplate : "<element title=\"\x7bx\x7d\"/>".toList =
      '<' :: quoting "element".toList "title".toList "x".toList := by decide
  have hknown : machine.registry.element? "element".toList = some ("element".toList, true) := by
    rw [hregistry]
    decide +kernel
  have htakes : machine.registry.Takes "element".toList "title".toList :=
    Registry.takes_of_standard (by rw [hregistry]) _ _
  have hname : Text.IsWord "element".toList := by decide
  have hkey : isKey "title".toList = true := by decide
  have hargument : Text.IsWord "x".toList := by decide
  rw [htemplate]
  have honly : ∀ fuel title, ParsesTo machine fuel _ title _ → '"' ∉ value := fun fuel title h =>
    notMem_of_parsesTo_quoting hmachine hname hkey hargument hvalue hbrace hknown h
  -- With a quote in it no fuel will do, and without one any fuel from some point on.
  by_cases hquote : '"' ∈ value
  · exact ⟨0, fun fuel _ title => ⟨honly fuel title, fun h => absurd hquote h⟩⟩
  · obtain ⟨enough, hparse⟩ := exists_parsesTo_quoting hmachine hname hkey hargument hvalue hbrace
      hknown htakes hquote
    exact ⟨enough, fun fuel hfuel title => ⟨honly fuel title, fun _ => hparse fuel hfuel title⟩⟩

/-- A machine with an argument of a given value. -/
def argumentMachine (value : Text) : Machine :=
  { parser := { environment := ({} : Environment).setArgument "x".toList value } }

theorem forElements_argumentMachine (value : Text) : (argumentMachine value).ForElements :=
  ⟨rfl, rfl, rfl, fun phase => by cases phase <;> rfl⟩

/-- Blanks, markers and a mark that closes tags are part of the value. -/
theorem parsesTo_quoted_iff_marked : ∃ enough, ∀ fuel, enough ≤ fuel →
    ParsesTo (argumentMachine " b='c' > </".toList) fuel "<element title=\"\x7bx\x7d\"/>".toList
      defaultTitle [.mk "element".toList [("title".toList, " b='c' > </".toList)] true []] := by
  obtain ⟨enough, hiff⟩ := parsesTo_quoted_iff
    (forElements_argumentMachine " b='c' > </".toList) rfl rfl (by decide)
  exact ⟨enough, fun fuel hfuel => (hiff fuel hfuel defaultTitle).mpr (by decide)⟩

/-- A value that ends the quotes is not what the attribute takes: the rest of it becomes an
attribute of its own. -/
theorem not_parsesTo_quoted :
    (argumentMachine "a\" b=\"c".toList).parser.environment.argument? "x".toList =
        some "a\" b=\"c".toList ∧ '{' ∉ "a\" b=\"c".toList ∧
    ∀ fuel title, ¬ParsesTo (argumentMachine "a\" b=\"c".toList) fuel
      "<element title=\"\x7bx\x7d\"/>".toList title
      [.mk "element".toList [("title".toList, "a\" b=\"c".toList)] true []] := by
  have hvalue : (argumentMachine "a\" b=\"c".toList).parser.environment.argument? "x".toList =
      some "a\" b=\"c".toList := rfl
  have hknown : (argumentMachine "a\" b=\"c".toList).registry.element? "element".toList =
      some ("element".toList, true) := by decide +kernel
  refine ⟨hvalue, by decide, fun fuel title h => ?_⟩
  -- The quotes of the value end the attribute, and the rest of the value would be another one.
  have hquote := notMem_of_parsesTo_quoting (forElements_argumentMachine _) (by decide)
    (by decide) (by decide) hvalue (by decide) hknown
    (show ParsesTo _ fuel ('<' :: quoting "element".toList "title".toList "x".toList) title _
      from h)
  exact hquote (by decide)

end Engine

end MarkupTemplate
