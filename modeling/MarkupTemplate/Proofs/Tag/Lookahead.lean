import MarkupTemplate.Proofs.Body.Reading
import MarkupTemplate.Proofs.Tag.Content
import MarkupTemplate.Proofs.Tag.Parts
import MarkupTemplate.Proofs.Tag.Quotes

/-!
# Looking ahead and reading

A nested macro is seen twice: first by the look-ahead, when the body around it is captured, and
again by the reader, when that body has been put back. Bodies are captured as they are written, so
the look-ahead goes by the written text; the reader goes by what placeholders in the tag stand for,
and without comments and blanks around it. The two can differ (`not_agree`): the mark that closes a
tag, or its name, may come out of a placeholder, and a comment or a placeholder may have a character
in it that ends the tag for the look-ahead.

`lookahead_agrees` says that these are the only ways to differ. A tag that begins right behind its
marker and has neither placeholders nor comments is always seen as it is read. With placeholders it
is, if they are steady, and if the name and the closing mark are written out.

The look-ahead needs two things of a tag: where it ends and whether it is closed. The first is a
matter of quotes, the second of the last character in front of the end that is not a blank. For a
tag that is read, `Tag.Layout` gives the form of what is read, and `Resolves` the way from there to
what is written.
-/

set_option autoImplicit false

namespace MarkupTemplate

/-- Whether the name of a tag stands at the start of a text, with a blank or a mark behind it, and
the mark that closes it in front of the end of the tag, if there is one. -/
structure Tag.WrittenOut (m : Markers) (t : Tag) (s rest : Text) : Prop where
  name : ∃ after, s = m.macroMark :: t.name ++ after ∧
    after.head?.any (TagPattern.endsName m) = true
  quotes : m.quoteBehind? none (m.macroMark :: t.name) = some none
  mark : t.closed = true → ∃ before blanks,
    s = m.macroMark :: t.name ++ (before ++ m.closedMark :: (blanks ++ m.tagClosing :: rest)) ∧
      ∀ c ∈ blanks, isBlank c = true

namespace Tag

variable {m : Markers} {t : Tag} {s rest written resolved : Text}

/-- A name that is written out is in front of the end of the tag. -/
theorem WrittenOut.exists_after (h : t.WrittenOut m s rest)
    (hs : s = written ++ m.tagClosing :: rest)
    (hq : m.quoteBehind? none written = some none) (hm : isQuote m.tagClosing = false) :
    ∃ after, written = m.macroMark :: t.name ++ after ∧
      (after ++ [m.tagClosing]).head?.any (TagPattern.endsName m) = true ∧
      m.quoteBehind? none after = some none := by
  obtain ⟨after, hname, hends⟩ := h.name
  rw [hs] at hname
  rcases List.append_eq_append_iff.mp hname with ⟨b, hb, hafter⟩ | ⟨a, ha, hafter⟩
  · cases b with
    | nil =>
      rw [List.append_nil] at hb
      refine ⟨[], by rw [hb, List.append_nil], ?_, rfl⟩
      simp [TagPattern.endsName]
    | cons c b =>
      -- The name would go beyond the end of the tag.
      obtain ⟨rfl, _⟩ := List.cons.inj hafter
      have hquotes := h.quotes
      rw [hb, Markers.quoteBehind?_append, hq] at hquotes
      simp [Markers.quoteBehind?, hm] at hquotes
  · refine ⟨a, ha, ?_, ?_⟩
    · rw [hafter] at hends
      cases a with
      | nil => simp [TagPattern.endsName]
      | cons c a => exact hends
    · rw [ha, Markers.quoteBehind?_append, h.quotes] at hq
      exact hq

/-- The look-ahead over a tag that is written out, given what is written and what is read. -/
theorem WrittenOut.opening? (h : t.WrittenOut m s rest) (hs : s = written ++ m.tagClosing :: rest)
    (hq : m.quoteBehind? none written = some none) (hm : isQuote m.tagClosing = false)
    (hsign : (Text.trim resolved).head? = some m.macroMark)
    (hparse : Tag.parse m (Text.trim resolved) = .ok t)
    (hink : lastInk none written = some m.closedMark → lastInk none resolved = some m.closedMark)
    (strict : Bool) :
    TagPattern.opening? ⟨t.name, true, strict⟩ m s = some (t.closed, rest) := by
  obtain ⟨after, hwritten, hends, hquotes⟩ := h.exists_after hs hq hm
  have hopen := (TagPattern.spells_name ⟨t.name, true, strict⟩).opening? hm rest hends hquotes
  obtain ⟨lead, attributes, tail, hlayout⟩ := exists_layout hsign hparse
  -- The flag of the look-ahead is the last ink in front of the end of the tag.
  have hflag : (lastInk none after == some m.closedMark) = t.closed := by
    rcases hlayout.closing with ⟨hclosed, hblank, _⟩ | ⟨hclosed, _, hnot⟩
    · obtain ⟨before, blanks, hmark, hb⟩ := h.mark hclosed
      have hafter : after = before ++ m.closedMark :: blanks := by
        rw [hs, hwritten, List.append_assoc] at hmark
        have hcut : after ++ m.tagClosing :: rest =
            (before ++ m.closedMark :: blanks) ++ m.tagClosing :: rest := by
          rw [List.append_cancel_left hmark]
          simp
        exact List.append_cancel_right hcut
      rw [hclosed, hafter, lastInk_append_blank hblank none before hb]
      simp
    · rw [hclosed, beq_eq_false_iff_ne]
      intro heq
      refine hnot (hink ?_)
      rw [hwritten, lastInk_append]
      exact lastInk_of_none heq
  rw [hflag] at hopen
  rw [hs, hwritten, List.append_assoc]
  exact hopen

/-- What is behind the attributes of a tag has no quotes in it. -/
theorem Layout.tail_plain {lead attributes tail : Text}
    (h : Layout m t written lead attributes tail) (hmark : isQuote m.closedMark = false) :
    ∀ c ∈ tail, isQuote c = false := by
  rcases h.closing with ⟨_, _, before, behind, rfl, hb, hb'⟩ | ⟨_, hb, _⟩
  · intro c hc
    rcases List.mem_append.mp hc with hc | hc
    · exact isQuote_of_isBlank (hb c hc)
    · rcases List.mem_cons.mp hc with rfl | hc
      · exact hmark
      · exact isQuote_of_isBlank (hb' c hc)
  · exact fun c hc => isQuote_of_isBlank (hb c hc)

/-- A tag that is read as it is written, without blanks in front, is written out. -/
theorem Layout.writtenOut {attributes tail : Text} (h : Layout m t written [] attributes tail)
    (hs : s = written ++ m.tagClosing :: rest) (hq : m.quoteBehind? none written = some none)
    (hmark : isQuote m.closedMark = false) : t.WrittenOut m s rest := by
  have hwritten : written = m.macroMark :: t.name ++ (attributes ++ tail) := h.text_eq
  refine ⟨⟨attributes ++ tail ++ m.tagClosing :: rest, ?_, ?_⟩, ?_, ?_⟩
  · rw [hs, hwritten]
    simp
  · cases hattributes : attributes with
    | cons c attributes =>
      have hc : isBlank c = true := h.apart c (by rw [hattributes]; rfl)
      simp [TagPattern.endsName, hc]
    | nil =>
      rcases h.closing with ⟨_, _, before, behind, rfl, hb, _⟩ | ⟨_, hb, _⟩
      · cases before with
        | nil => simp [TagPattern.endsName]
        | cons c before => simp [TagPattern.endsName, hb c List.mem_cons_self]
      · cases tail with
        | nil => simp [TagPattern.endsName]
        | cons c tail => simp [TagPattern.endsName, hb c List.mem_cons_self]
  · -- The attributes lead from the quote behind the name, and from none, to the same one.
    rw [hwritten, Markers.quoteBehind?_append] at hq
    obtain ⟨quote, hname, hrest⟩ := Option.bind_eq_some_iff.mp hq
    have hopen : IsOpenQuote quote := by
      rw [Markers.eq_of_quoteBehind? hname]
      exact isOpenQuote_none.foldl _
    have hfold := Markers.eq_of_quoteBehind? hrest
    rw [List.foldl_append, foldl_nextQuote_plain (hopen.foldl attributes) (h.tail_plain hmark)]
      at hfold
    rw [hname, foldl_nextQuote_inj hopen isOpenQuote_none (hfold.symm.trans h.quotes.symm)]
  · intro hclosed
    rcases h.closing with ⟨_, _, before, behind, rfl, _, hb⟩ | ⟨hopen, _, _⟩
    · refine ⟨attributes ++ before, behind, ?_, hb⟩
      rw [hs, hwritten]
      simp
    · rw [hclosed] at hopen
      exact absurd hopen (by simp)

end Tag

namespace Engine

/-- Whether reading a tag, at a machine, gives the given macro and leaves the given machine. This is
the reader's side: the text of the tag with all placeholders resolved, trimmed, and parsed. -/
def ReadsMacro (fuel : Nat) (machine : Machine) (t : Tag) (machine' : Machine) : Prop :=
  ∃ raw, readTagText fuel machine = .ok raw machine' ∧
    (Text.trim raw).head? = some machine.parser.settings.markers.macroMark ∧
    Tag.parse machine.parser.settings.markers (Text.trim raw) = .ok t

/-- Whether the look-ahead over the unread text finds the given macro, and the given machine's
unread text behind it. This is the side of a body that is captured. -/
def SeesMacro (machine : Machine) (t : Tag) (machine' : Machine) : Prop :=
  (bodyPattern t.name true machine).opening? machine.parser.settings.markers
    machine.parser.reader.unread = some (t.closed, machine'.parser.reader.unread)

/-- The parts of the tag that is unread. -/
def unreadParts (machine : Machine) : List TagPart :=
  machine.parser.settings.markers.tagParts machine.parser.settings.nestedComments none
    machine.parser.reader.unread

/-- A machine in front of a tag, with a value for one argument. -/
def tagMachine (value text : Text) : Machine :=
  { parser := {
      reader := Reader.ofText defaultTitle text
      environment := ({} : Environment).setArgument ['x'] value } }

theorem unread_tagMachine (value text : Text) :
    (tagMachine value text).parser.reader.unread = text := by
  rw [tagMachine, Reader.ofText, Reader.unread_append]
  exact List.append_nil text

/-- The parts of the tag are those of the text, with nested comments allowed. -/
theorem unreadParts_tagMachine (value text : Text) :
    unreadParts (tagMachine value text) = ({} : Markers).tagParts true none text :=
  congrArg _ (unread_tagMachine value text)

theorem readsMacro_of_parts {fuel : Nat} {value plain rest raw : Text} {t : Tag}
    {machine' : Machine} {parts : List TagPart}
    (hplain : plain.all ({} : Markers).isPlain = true)
    (hparts : ({} : Markers).tagParts true none rest = parts)
    (hjoin : joinParts fuel [] (plain.map .char ++ parts) (tagMachine value (plain ++ rest)) =
      .ok raw machine')
    (hsign : (Text.trim raw).head? = some ':') (hparse : Tag.parse {} (Text.trim raw) = .ok t) :
    ReadsMacro fuel (tagMachine value (plain ++ rest)) t machine' := by
  refine ⟨raw, ?_, hsign, hparse⟩
  have hread : readTagText fuel (tagMachine value (plain ++ rest)) =
      joinParts fuel [] (unreadParts (tagMachine value (plain ++ rest)))
        (tagMachine value (plain ++ rest)) := rfl
  rw [hread, unreadParts_tagMachine, Markers.tagParts_append rest hplain, hparts, hjoin]

/-- **A macro is seen as it is read**, if it is written without placeholders, comments and blanks
in front, or if its placeholders are steady and its name and closing mark are written out. -/
theorem lookahead_agrees {fuel : Nat} {machine machine' : Machine} {t : Tag}
    (hread : ReadsMacro fuel machine t machine')
    (h : (Markers.Plain (unreadParts machine) ∧
        (∀ c ∈ machine.parser.reader.unread.head?, isBlank c = false) ∧
        isQuote machine.parser.settings.markers.closedMark = false) ∨
      (machine.parser.settings.markers.Steady none (unreadParts machine) ∧
        t.WrittenOut machine.parser.settings.markers machine.parser.reader.unread
          machine'.parser.reader.unread ∧
        isBlank machine.parser.settings.markers.argumentClosing = false ∧
        machine.parser.settings.markers.argumentClosing ≠
          machine.parser.settings.markers.closedMark)) :
    SeesMacro machine t machine' ∧
      (bodyPattern t.name true machine).opensBody machine.parser.settings.markers
        machine.parser.reader.unread = !t.closed := by
  have hsees : SeesMacro machine t machine' := by
    obtain ⟨raw, htext, hsign, hparse⟩ := hread
    obtain ⟨written, resolved, hresolves, hs, hraw⟩ := resolves_of_joinParts rfl htext
    rw [List.reverse_nil, List.nil_append] at hraw
    subst hraw
    -- A plain tag is written out as it stands; for the other one that is assumed.
    rcases h with ⟨hplain, hhead, hmark⟩ | ⟨hsteady, hwritten, hblank, hne⟩
    · obtain ⟨hq, hm⟩ := Markers.quoteBehind?_of_resolves hresolves (hplain.steady none)
      obtain rfl := hresolves.eq_of_plain hplain
      obtain ⟨lead, attributes, tail, hlayout⟩ := Tag.exists_layout hsign hparse
      cases lead with
      | nil =>
        exact (hlayout.writtenOut hs hq hmark).opening? hs hq hm hsign hparse id _
      | cons c lead =>
        rw [hs, hlayout.text_eq] at hhead
        have := hlayout.lead_blank c List.mem_cons_self
        rw [hhead c rfl] at this
        exact absurd this (by simp)
    · obtain ⟨hq, hm⟩ := Markers.quoteBehind?_of_resolves hresolves hsteady
      exact hwritten.opening? hs hq hm hsign hparse
        (hresolves.lastInk hsteady hne hblank id) _
  refine ⟨hsees, ?_⟩
  rw [TagPattern.opensBody, hsees]

/-- A machine that has read all there is. -/
def finished (machine : Machine) : Machine := machine.withReader machine.parser.reader.finish

/-- A tag with a placeholder, and one without, that are seen as they are read. -/
theorem lookahead_agrees_loop :
    SeesMacro (tagMachine "2".toList (":loop ".toList ++ "\x7bx\x7d />".toList))
      { name := "loop".toList, raw := ":loop 2 /".toList, attributes := .positional ["2".toList],
        closed := true }
      (finished (tagMachine "2".toList (":loop ".toList ++ "\x7bx\x7d />".toList))) ∧
    SeesMacro (tagMachine [] (":loop 2".toList ++ ">".toList))
      { name := "loop".toList, raw := ":loop 2".toList, attributes := .positional ["2".toList],
        parental := true }
      (finished (tagMachine [] (":loop 2".toList ++ ">".toList))) := by
  have hargument : ({} : Markers).tagParts true none "\x7bx\x7d />".toList =
      [.placeholder ['x'], .char ' ', .char '/', .closing] := by
    simp [Markers.tagParts, Text.takeNested, isQuote]
  have hend : ({} : Markers).tagParts true none ">".toList = [.closing] := by
    simp [Markers.tagParts, isQuote]
  constructor
  · have hplain : ":loop ".toList.all ({} : Markers).isPlain = true := by decide
    have hread : ReadsMacro 3 (tagMachine "2".toList (":loop ".toList ++ "\x7bx\x7d />".toList))
        { name := "loop".toList, raw := ":loop 2 /".toList, attributes := .positional ["2".toList],
          closed := true }
        (finished (tagMachine "2".toList (":loop ".toList ++ "\x7bx\x7d />".toList))) :=
      readsMacro_of_parts hplain hargument rfl rfl rfl
    -- The tag with a placeholder is of the second kind, and the one that is written out of the
    -- first.
    refine (lookahead_agrees hread (Or.inr ⟨?_, ?_, rfl, by decide⟩)).1
    · rw [unreadParts_tagMachine, Markers.tagParts_append _ hplain, hargument]
      exact ⟨rfl, trivial⟩
    · refine ⟨⟨" \x7bx\x7d />".toList, rfl, rfl⟩, rfl, fun _ => ?_⟩
      exact ⟨" \x7bx\x7d ".toList, [], rfl, fun c hc => absurd hc (by simp)⟩
  · have hplain : ":loop 2".toList.all ({} : Markers).isPlain = true := by decide
    have hread : ReadsMacro 3 (tagMachine [] (":loop 2".toList ++ ">".toList))
        { name := "loop".toList, raw := ":loop 2".toList, attributes := .positional ["2".toList],
          parental := true }
        (finished (tagMachine [] (":loop 2".toList ++ ">".toList))) :=
      readsMacro_of_parts hplain hend rfl rfl rfl
    refine (lookahead_agrees hread (Or.inl ⟨?_, fun c hc => ?_, rfl⟩)).1
    rotate_left
    · obtain rfl : ':' = c := Option.some.inj hc
      decide
    rw [unreadParts_tagMachine, Markers.tagParts_append _ hplain, hend]
    trivial

/-! ## Where the two differ

Five tags that are read as macros and not seen as these, one for each condition. -/

/-- A macro may be read and not be seen, or be seen as another one: where its closing mark or its
name come out of a placeholder, where a placeholder or a comment ends the tag for the look-ahead,
and where blanks stand in front. -/
theorem not_agree :
    (∃ t machine', ReadsMacro 3 (tagMachine "/".toList (":loop ".toList ++ "\x7bx\x7d>".toList))
        t machine' ∧
      ¬ SeesMacro (tagMachine "/".toList (":loop ".toList ++ "\x7bx\x7d>".toList)) t machine') ∧
    (∃ t machine', ReadsMacro 3 (tagMachine "loop".toList (":".toList ++ "\x7bx\x7d>".toList))
        t machine' ∧
      ¬ SeesMacro (tagMachine "loop".toList (":".toList ++ "\x7bx\x7d>".toList)) t machine') ∧
    (∃ t machine', ReadsMacro 3 (tagMachine [] (":loop ".toList ++ "\x7b>\x7d/>".toList))
        t machine' ∧
      ¬ SeesMacro (tagMachine [] (":loop ".toList ++ "\x7b>\x7d/>".toList)) t machine') ∧
    (∃ t machine', ReadsMacro 3 (tagMachine [] (":loop ".toList ++ "<!>/>".toList)) t machine' ∧
      ¬ SeesMacro (tagMachine [] (":loop ".toList ++ "<!>/>".toList)) t machine') ∧
    ∃ t machine', ReadsMacro 3 (tagMachine [] (" :loop".toList ++ ">".toList)) t machine' ∧
      ¬ SeesMacro (tagMachine [] (" :loop".toList ++ ">".toList)) t machine' := by
  have hargument : ({} : Markers).tagParts true none "\x7bx\x7d>".toList =
      [.placeholder ['x'], .closing] := by
    simp [Markers.tagParts, Text.takeNested, isQuote]
  have hmarker : ({} : Markers).tagParts true none "\x7b>\x7d/>".toList =
      [.placeholder ['>'], .char '/', .closing] := by
    simp [Markers.tagParts, Text.takeNested, isQuote]
  have hcomment : ({} : Markers).tagParts true none "<!>/>".toList =
      [.comment 3, .char '/', .closing] := by
    show ({} : Markers).tagParts true none ('<' :: "!>/>".toList) = _
    rw [Markers.tagParts, if_neg (by decide), if_neg (by decide), if_pos ⟨rfl, rfl⟩]
    split
    · next rest h =>
      obtain rfl : "/>".toList = rest := Option.some.inj h
      simp [Markers.tagParts, isQuote]
    · next h => exact absurd h (by decide)
  have hend : ({} : Markers).tagParts true none ">".toList = [.closing] := by
    simp [Markers.tagParts, isQuote]
  -- A slash and a name from values, a marker in a placeholder and in a comment, and a blank in
  -- front.
  refine ⟨⟨_, _, readsMacro_of_parts (by decide) hargument rfl rfl rfl, ?_⟩,
    ⟨_, _, readsMacro_of_parts (by decide) hargument rfl rfl rfl, ?_⟩,
    ⟨_, _, readsMacro_of_parts (by decide) hmarker rfl rfl rfl, ?_⟩,
    ⟨_, _, readsMacro_of_parts (by decide) hcomment rfl rfl rfl, ?_⟩,
    ⟨_, _, readsMacro_of_parts (by decide) hend rfl rfl rfl, ?_⟩⟩
  all_goals
    show ¬ (_ = _)
    decide

end Engine

end MarkupTemplate
