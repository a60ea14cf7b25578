import MarkupTemplate.Proofs.Body.Written
import MarkupTemplate.Proofs.Engine.Run
import MarkupTemplate.Proofs.Reader

/-!
# Reading a body

`Engine.readBody` takes the body of a tag from the reader. `readBody_outcome` says what it returns
and what it leaves, for every machine: the body ends at the first place where the count of tags is
down to zero, the reader goes on right behind the closing tag there, and a text without such a place
is refused as a whole. As what a reader delivers is one text, however its sequences cut it, nothing
in this depends on the cuts; of the sequences exactly the rest is left.

The count and the texts that templates write are those of `Proofs/Body/Capture` and
`Proofs/Body/Written`. What is added here is the reader: how far it is moved
(`unread_skip_of_endsBody`), and that it stays coherent.
-/

set_option autoImplicit false

namespace MarkupTemplate

namespace Engine

/-- The pattern for the tags of a name, at a machine. Letter case counts in strict mode only. -/
def bodyPattern (name : Text) (isMacro : Bool) (machine : Machine) : TagPattern :=
  ⟨name, isMacro, machine.parser.settings.strict⟩

/-- Reading a body is looking ahead and then moving the reader, in one step or to the very end. -/
theorem readBody_eq (name : Text) (isMacro : Bool) (machine : Machine) :
    readBody name isMacro machine =
      match (bodyPattern name isMacro machine).takeBody machine.parser.settings.markers 0
        machine.parser.reader.unread with
      | some (body, rest) => .ok body (machine.withReader
          (Reader.skip (machine.parser.reader.available - rest.length) machine.parser.reader))
      | none =>
        .error (.failure { fault := if isMacro then .unclosedMacro name else .unclosedTag name })
          (machine.withReader machine.parser.reader.finish) := by
  -- Looking for the end of the body reads nothing; only what was found is skipped.
  have hread : readBody name isMacro machine =
      (match (bodyPattern name isMacro machine).takeBody machine.parser.settings.markers 0
        machine.parser.reader.unread with
      | some (body, rest) => do
        skipTo rest
        return body
      | none => do
        skipAll
        fail (if isMacro then .unclosedMacro name else .unclosedTag name) : Engine Text) machine :=
    rfl
  rw [hread]
  cases (bodyPattern name isMacro machine).takeBody machine.parser.settings.markers 0
      machine.parser.reader.unread with
  | some taken => rfl
  | none => rfl

/-- What is left behind a body and its closing tag. -/
theorem unread_skip_of_endsBody {p : TagPattern} {m : Markers} {r : Reader} {depth : Int}
    {body closing rest : Text} (h : p.EndsBody m depth r.unread body closing rest) :
    r.available - rest.length = body.length + 1 + closing.length ∧
      (Reader.skip (body.length + 1 + closing.length) r).unread = rest := by
  have ht := h.1
  constructor
  · simp only [Reader.available, ht, List.length_append, List.length_cons]
    omega
  · have hlen : body.length + 1 + closing.length =
        (body ++ m.tagOpening :: closing).length := by
      simp only [List.length_append, List.length_cons]
      omega
    have hcut : r.unread = (body ++ m.tagOpening :: closing) ++ rest := by
      rw [ht]
      simp
    rw [Reader.unread_skip, hlen, hcut, List.drop_left]

/-- Exactly what reading a body gives, by the text ahead. -/
theorem readBody_eq_ok_iff {name : Text} {isMacro : Bool} {machine machine' : Machine}
    {body : Text} :
    readBody name isMacro machine = .ok body machine' ↔
      ∃ rest, (bodyPattern name isMacro machine).takeBody machine.parser.settings.markers 0
          machine.parser.reader.unread = some (body, rest) ∧
        machine' = machine.withReader
          (Reader.skip (machine.parser.reader.available - rest.length) machine.parser.reader) := by
  rw [readBody_eq]
  cases (bodyPattern name isMacro machine).takeBody machine.parser.settings.markers 0
      machine.parser.reader.unread with
  | none => simp
  | some taken =>
    obtain ⟨body', rest'⟩ := taken
    simp only [EStateM.Result.ok.injEq, Option.some.injEq, Prod.mk.injEq]
    constructor
    · rintro ⟨rfl, rfl⟩
      exact ⟨rest', ⟨rfl, rfl⟩, rfl⟩
    · rintro ⟨rest, ⟨rfl, rfl⟩, rfl⟩
      exact ⟨rfl, rfl⟩

/-- **Reading a body finds the closing tag that belongs to it.** Four parts: what is returned and
where the reader is then, as an equivalence; that the reader stays coherent; the refusal of a text
in which no place ends the body; and that a body as templates write it is found, with tags of the
same name in it, whatever its attributes hold in quotes. -/
theorem readBody_outcome (name : Text) (isMacro : Bool) (machine : Machine) :
    (∀ body machine', readBody name isMacro machine = .ok body machine' ↔
      ∃ closing rest,
        (bodyPattern name isMacro machine).EndsBody machine.parser.settings.markers 1
          machine.parser.reader.unread body closing rest ∧
        machine' = machine.withReader
          (Reader.skip (body.length + 1 + closing.length) machine.parser.reader) ∧
        machine'.parser.reader.unread = rest) ∧
    (machine.parser.reader.Coherent → ∀ body machine',
      readBody name isMacro machine = .ok body machine' → machine'.parser.reader.Coherent) ∧
    ((¬ ∃ body closing rest,
        (bodyPattern name isMacro machine).EndsBody machine.parser.settings.markers 1
          machine.parser.reader.unread body closing rest) →
      readBody name isMacro machine =
        .error (.failure { fault := if isMacro then .unclosedMacro name else .unclosedTag name })
          (machine.withReader machine.parser.reader.finish)) ∧
    ∀ body word blanks rest, machine.parser.settings.markers.Apart → name ≠ [] →
      (bodyPattern name isMacro machine).NestedBody machine.parser.settings.markers body →
      (bodyPattern name isMacro machine).SpellsInLetters word →
      (∀ c ∈ blanks, isBlank c = true) →
      machine.parser.reader.unread = body ++
        (bodyPattern name isMacro machine).closingTag machine.parser.settings.markers word blanks ++
          rest →
      ∃ machine', readBody name isMacro machine = .ok body machine' ∧
        machine'.parser.reader.unread = rest := by
  refine ⟨fun body machine' => ?_, fun hco body machine' h => ?_, fun hno => ?_, ?_⟩
  · rw [readBody_eq_ok_iff]
    constructor
    · rintro ⟨rest, htake, rfl⟩
      obtain ⟨closing, hends⟩ := TagPattern.takeBody_eq_some_iff.mp htake
      obtain ⟨hlen, hrest⟩ := unread_skip_of_endsBody hends
      refine ⟨closing, rest, hends, by rw [hlen], ?_⟩
      rw [hlen]
      exact hrest
    · rintro ⟨closing, rest, hends, rfl, _⟩
      obtain ⟨hlen, _⟩ := unread_skip_of_endsBody hends
      exact ⟨rest, TagPattern.takeBody_eq_some_iff.mpr ⟨closing, hends⟩, by rw [hlen]⟩
  · obtain ⟨rest, _, rfl⟩ := readBody_eq_ok_iff.mp h
    exact hco.skip _
  · rw [readBody_eq]
    split
    · next body rest htake =>
      obtain ⟨closing, hends⟩ := TagPattern.takeBody_eq_some_iff.mp htake
      exact absurd ⟨body, closing, rest, hends⟩ hno
    · rfl
  -- A nested body is level, so its closing tag is the first place where the count is down to zero.
  · intro body word blanks rest hm hn hbody hw hb ht
    have htake := hbody.takeBody hm hn hw hb rest
    rw [← ht] at htake
    refine ⟨_, readBody_eq_ok_iff.mpr ⟨rest, htake, rfl⟩, ?_⟩
    obtain ⟨closing, hends⟩ := TagPattern.takeBody_eq_some_iff.mp htake
    obtain ⟨hlen, hrest⟩ := unread_skip_of_endsBody hends
    rw [hlen]
    exact hrest

/-- A machine whose reader holds a template in two sequences, cut inside of a tag. -/
def cutMachine : Machine :=
  let inner := Reader.ofText "outer".toList "x=\">\">c</:loop >d</:loop>e".toList
  { parser := { reader := inner.append "a<:loop />b<:loop ".toList "inner".toList } }

/-- A body with a tag in it that closes itself, one that is closed, and the end of a tag in
quotes. -/
theorem readBody_cutMachine :
    ∃ machine', readBody "loop".toList true cutMachine =
        .ok "a<:loop />b<:loop x=\">\">c</:loop >d".toList machine' ∧
      machine'.parser.reader.unread = "e".toList ∧ machine'.parser.reader.Coherent := by
  let p : TagPattern := bodyPattern "loop".toList true cutMachine
  let text (t : String) (h : '<' ∉ t.toList) : p.NestedBody {} t.toList := .text h
  have hword : p.SpellsInLetters "loop".toList :=
    ⟨TagPattern.spells_name _, List.all_eq_true.mp (by decide)⟩
  have hblank : ∀ c ∈ " ".toList, isBlank c = true := List.all_eq_true.mp (by decide)
  have hclosed : p.NestedBody {} (p.closedTag {} "loop".toList " ".toList []) :=
    .closed hword ⟨fun c hc => hblank c (List.mem_of_head? hc), by decide, by decide⟩
      (List.all_eq_true.mp rfl)
  have hnested : p.NestedBody {} (p.openingTag {} "loop".toList " x=\">\"".toList ++ "c".toList ++
      p.closingTag {} "loop".toList " ".toList) := by
    refine .nested hword ⟨?_, by decide, by decide⟩ (by decide) (text "c" (by decide)) hword hblank
    intro c hc
    obtain rfl : ' ' = c := Option.some.inj hc
    decide
  have hbody : p.NestedBody {} "a<:loop />b<:loop x=\">\">c</:loop >d".toList :=
    (text "a" (by decide)).append (hclosed.append
      ((text "b" (by decide)).append (hnested.append (text "d" (by decide)))))
  have houtcome := readBody_outcome "loop".toList true cutMachine
  obtain ⟨machine', hread, hrest⟩ := houtcome.2.2.2 _ "loop".toList [] "e".toList
    Markers.apart_standard (by decide) hbody hword (by simp) (by decide)
  exact ⟨machine', hread, hrest,
    houtcome.2.1 ((Reader.coherent_empty.append _ _).append _ _) _ _ hread⟩

end Engine

end MarkupTemplate
