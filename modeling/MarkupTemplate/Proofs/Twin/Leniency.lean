import MarkupTemplate.Proofs.Twin.Scan

/-!
# Lenient parses

A lenient parse passes over anomalies on which a strict one fails. Where the strict one succeeds
there were none, and one expects both to give the same document. Letter case can come in between:
strict names are compared letter by letter and lenient ones are not, and on this comparison hangs
where a captured body ends and where a conditional divides its body. So `</:IF>` can end a body in
a lenient parse that goes on in the strict one (`not_parse_lenient`).

`parse_lenient` is that nothing else comes in between.
-/

set_option autoImplicit false

namespace MarkupTemplate

/-- The machine with a lenient parser, which is its lax twin with the same reader. -/
def Machine.lenient (machine : Machine) : Machine :=
  { machine with
    parser := { machine.parser with settings := { machine.parser.settings with strict := false } } }

namespace Engine

variable {fuel fuel' : Nat} {template name : Text} {machine machine' : Machine}
  {document document' : Document}

/-- Nothing is left to read behind a parse. -/
theorem reader_of_parse (h : parse fuel template name machine = .ok document machine') :
    machine'.parser.reader = .empty := by
  rw [parse_eq] at h
  cases hread : readDocument fuel template name machine with
  | ok d m =>
    rw [hread] at h
    obtain ⟨_, rfl⟩ := EStateM.Result.ok.inj h
    rfl
  | error stop m =>
    rw [hread] at h
    cases h

/-- Behind a parse the twin has the same reader as the machine, so it is the twin with that reader
and no other. -/
theorem parse_twin (lax : Bool) (hle : fuel ≤ fuel')
    (h : parse fuel template name machine = .ok document machine')
    (hcase : lax = true → ∀ tag ∈ tagsOf fuel template name machine, CaseFree tag.1 tag.2) :
    parse fuel' template name (machine.twin lax machine.parser.reader) =
      .ok document (machine'.twin lax machine'.parser.reader) := by
  have hanswer := mirrorsAt_parse hle hcase machine.parser.reader rfl
  rw [h] at hanswer
  obtain ⟨r, _, hparse⟩ := hanswer
  have hr : r = .empty := reader_of_parse hparse
  rw [hparse, hr, reader_of_parse h]

/-- More fuel makes no difference to a parse that succeeds: the machine is an exact twin of
itself. -/
theorem parse_of_le (hle : fuel ≤ fuel')
    (h : parse fuel template name machine = .ok document machine') :
    parse fuel' template name machine = .ok document machine' := by
  have hparse := parse_twin false hle h fun hlax => by cases hlax
  rw [Machine.twin_false, Machine.twin_false] at hparse
  exact hparse

/-- **A lenient parse gives what a strict one gives**, with the same document, arguments, listeners
and registry, if letter case makes no difference to the tags that the strict parse comes upon. The
two parses draw from the same random numbers, whatever these are. -/
theorem parse_lenient (hle : fuel ≤ fuel')
    (h : parse fuel template name machine = .ok document machine')
    (hcase : ∀ tag ∈ tagsOf fuel template name machine, CaseFree tag.1 tag.2) :
    parse fuel' template name machine.lenient = .ok document machine'.lenient := by
  have htwin : ∀ machine : Machine,
      machine.twin true machine.parser.reader = machine.lenient := by
    intro machine
    simp [Machine.twin, Parser.twin, Machine.lenient]
  have hparse := parse_twin true hle h fun _ => hcase
  rw [htwin, htwin] at hparse
  exact hparse

/-! ## Conditionals whose branches differ in letter case

What is left out by the condition does happen. All of it can be decided, so the examples are run. -/

instance (machine : Machine) (name : Text) (isMacro : Bool) :
    Decidable (SameBody machine name isMacro) :=
  inferInstanceAs (Decidable (_ = _))

instance (machine : Machine) (t : Tag) : Decidable (SameBranches machine t) :=
  inferInstanceAs (Decidable (_ = _))

instance (machine : Machine) (raw : Text) : Decidable (CaseFree machine raw) :=
  inferInstanceAs (Decidable (_ ∧ _))

/-- The text of a document without nodes. -/
def textAlone? : EStateM.Result Stop Machine Document → Option Text
  | .ok ⟨[], text⟩ _ => some text
  | _ => none

theorem exists_of_textAlone? {outcome : EStateM.Result Stop Machine Document} {text : Text}
    (h : textAlone? outcome = some text) : ∃ machine, outcome = .ok ⟨[], text⟩ machine := by
  unfold textAlone? at h
  split at h
  · next t machine =>
    obtain rfl := Option.some.inj h
    exact ⟨machine, rfl⟩
  · cases h

/-- Both spellings of the macro, but only one where it matters: the inner conditional closes itself
in its own spelling, so neither search is misled. -/
def spelledTemplate : Text :=
  "<:if test=false>a<:if:else/><:IF test=true>B</:IF></:if>".toList

theorem parse_lenient_spelledTemplate :
    (∀ tag ∈ tagsOf 80 spelledTemplate defaultTitle {}, CaseFree tag.1 tag.2) ∧
    ∃ machine, parse 80 spelledTemplate defaultTitle {} = .ok ⟨[], ['B']⟩ machine ∧
      parse 80 spelledTemplate defaultTitle ({} : Machine).lenient =
        .ok ⟨[], ['B']⟩ machine.lenient := by
  have hcase : ∀ tag ∈ tagsOf 80 spelledTemplate defaultTitle {}, CaseFree tag.1 tag.2 := by
    decide +kernel
  obtain ⟨machine, hparse⟩ : ∃ machine, parse 80 spelledTemplate defaultTitle {} =
      .ok ⟨[], ['B']⟩ machine := exists_of_textAlone? (by decide +kernel)
  exact ⟨hcase, machine, hparse, parse_lenient (Nat.le_refl _) hparse hcase⟩

/-- A conditional that only the lenient parser divides. -/
def dividedTemplate : Text := "<:if test=false>a<:IF:else/>b</:if>".toList

/-- A strict parse gives no text here, and a lenient one takes the tag in capitals for the one
between the branches. -/
theorem not_parse_lenient :
    ({} : Machine).parser.settings.strict = true ∧
    (∃ machine, parse 60 dividedTemplate defaultTitle {} = .ok ⟨[], []⟩ machine) ∧
    ∀ fuel machine, parse fuel dividedTemplate defaultTitle ({} : Machine).lenient ≠
      .ok ⟨[], []⟩ machine := by
  refine ⟨rfl, exists_of_textAlone? (by decide +kernel), ?_⟩
  intro fuel machine h
  obtain ⟨machine', hdivided⟩ : ∃ machine, parse 60 dividedTemplate defaultTitle
      ({} : Machine).lenient = .ok ⟨[], ['b']⟩ machine := exists_of_textAlone? (by decide +kernel)
  have hmore := parse_of_le (Nat.le_max_left fuel 60) h
  rw [parse_of_le (Nat.le_max_right fuel 60) hdivided] at hmore
  have htext := congrArg Parsed.text (EStateM.Result.ok.inj hmore).1
  cases htext

end Engine

end MarkupTemplate
