import MarkupTemplate.Proofs.Reader
import MarkupTemplate.Proofs.Text.Nested
import MarkupTemplate.Proofs.Text.Words
import MarkupTemplate.Proofs.Twin.Scan

/-!
# Queued text

A reader keeps its unread text in several sequences, for one because a placeholder's value is put in
front of the rest as a sequence of its own. How the text is queued decides what errors report about
the place they occurred at, and nothing else: two machines that differ in the queueing alone come to
the same outcome (`scan_requeued`).

So a placeholder in literal text can be read as if its value had been written there. The value may
be any text, also one that opens a tag or a placeholder and leaves it to the rest to close it.
-/

set_option autoImplicit false

namespace MarkupTemplate

/-- Whether a machine differs from another at most in how its unread text is queued. The random
numbers are part of the machine and do not differ. -/
def Machine.Requeues (machine machine' : Machine) : Prop :=
  ∃ r, r.unread = machine.parser.reader.unread ∧ machine' = machine.withReader r

/-- Whether the marks of placeholders are neither letters nor digits, and a placeholder closes with
another one than it opens with. -/
structure Markers.SparesWords (m : Markers) : Prop where
  pair : m.argumentOpening ≠ m.argumentClosing
  marks : ∀ mark ∈ [m.argumentOpening, m.argumentClosing, m.equationMark, m.conditionMark,
    m.actionMark, m.lineMark, m.preferenceMark], isAlphanumeric mark = false

namespace Engine

/-- Whether two runs end alike: both with success, or both with the same fault, or both without
fuel, or both without room for an array. What they leave differs in the queueing alone, so they have
also drawn the same random numbers. Without fuel nothing is said about what they leave, since the
two may have stopped at different places. -/
inductive EndAlike :
    EStateM.Result Stop Machine Unit → EStateM.Result Stop Machine Unit → Prop
  | ok {machine machine' : Machine} (h : machine.Requeues machine') :
      EndAlike (.ok () machine) (.ok () machine')
  | failure {e e' : Error} {machine machine' : Machine} (he : e.fault = e'.fault)
      (h : machine.Requeues machine') :
      EndAlike (.error (.failure e) machine) (.error (.failure e') machine')
  | exhausted {machine machine' : Machine} :
      EndAlike (.error .exhausted machine) (.error .exhausted machine')
  | overflow {machine machine' : Machine} (h : machine.Requeues machine') :
      EndAlike (.error .overflow machine) (.error .overflow machine')

/-- Runs that answer each other end alike. One way leaves it open what the second run does where the
first is out of fuel, and the other way closes that. -/
theorem endAlike_of_answers {outcome outcome' : EStateM.Result Stop Machine Unit}
    (h : Answers false outcome outcome') (h' : Answers false outcome' outcome) :
    EndAlike outcome outcome' := by
  cases outcome with
  | ok _ machine =>
    obtain ⟨r, hr, rfl⟩ := h
    exact .ok ⟨r, hr, machine.twin_false r⟩
  | error stop machine =>
    cases stop with
    | failure e =>
      obtain ⟨e', r, he, hr, rfl⟩ := h rfl
      exact .failure he.symm ⟨r, hr, machine.twin_false r⟩
    | overflow =>
      obtain ⟨r, hr, rfl⟩ := h
      exact .overflow ⟨r, hr, machine.twin_false r⟩
    | exhausted =>
      -- The first run says nothing about the second here, but the second about the first.
      cases outcome' with
      | ok _ machine' =>
        obtain ⟨r, _, hr⟩ := h'
        cases hr
      | error stop' machine' =>
        cases stop' with
        | failure e =>
          obtain ⟨e', r, _, _, hr⟩ := h' rfl
          cases hr
        | overflow =>
          obtain ⟨r, _, hr⟩ := h'
          cases hr
        | exhausted => exact .exhausted

/-- Scanning does not tell how the text is queued: it is mirrored both ways, with the same fuel. -/
theorem endAlike_scan (fuel : Nat) (pending : Text) {machine : Machine} {r : Reader}
    (hr : r.unread = machine.parser.reader.unread) :
    EndAlike (scan fuel pending machine) (scan fuel pending (machine.withReader r)) := by
  have hmirrors : ∀ machine, MirrorsAt false machine (scan fuel pending) (scan fuel pending) :=
    fun machine => mirrorsAt_scan (Nat.le_refl fuel) fun hlax => by cases hlax
  have hthere := hmirrors machine r hr
  have hback := hmirrors (machine.withReader r) machine.parser.reader hr.symm
  rw [Machine.twin_false] at hthere hback
  rw [Machine.withReader_withReader, Machine.withReader_self] at hback
  exact endAlike_of_answers hthere hback

/-! ## Placeholders of arguments

A plain name in a placeholder is the name of an argument, whose value the scanner puts in front of
what follows. The marks must not be letters or digits for that, or a word could be something else
than a name. -/

section

variable (machine : Machine) {name value rest : Text}
  (hmarkers : machine.parser.settings.markers.SparesWords) (hname : name.IsWord)

include hmarkers hname

/-- A plain name holds no marker, so the placeholder ends at the first closing one. -/
theorem readPlaceholder_eq
    (hr : machine.parser.reader.unread =
      name ++ machine.parser.settings.markers.argumentClosing :: rest) :
    ∃ r, r.unread = rest ∧ readPlaceholder machine = .ok name (machine.withReader r) := by
  have htake := Text.takeNested_of_notMem hmarkers.pair
    (hname.notMem (hmarkers.marks _ (by simp))) (hname.notMem (hmarkers.marks _ (by simp))) rest
  have hunread : unread machine = .ok machine.parser.reader.unread machine := rfl
  have hcut : machine.parser.reader.unread =
      (name ++ [machine.parser.settings.markers.argumentClosing]) ++ rest := by
    rw [hr, List.append_assoc, List.singleton_append]
  refine ⟨_, Reader.unread_skip_of_append hcut, ?_⟩
  rw [readPlaceholder, bind_of_ok (markers_eq _), bind_of_ok hunread, hr, htake]
  rfl

/-- A plain name stands for the argument of that name. -/
theorem placeholder_eq (h : machine.parser.environment.argument? name = some value) (fuel : Nat) :
    placeholder fuel name machine = .ok value machine := by
  have hfirst : ∀ mark, isAlphanumeric mark = false → Text.dropFirst? mark name = none :=
    fun mark hmark => hname.dropFirst? hmark
  -- A word begins with a letter or digit, so with none of the marks.
  have hmarked : isMarked machine.parser.settings.markers name = false := by
    cases name with
    | nil => rfl
    | cons c t =>
      have hne : ∀ mark, isAlphanumeric mark = false → c ≠ mark := fun mark hmark =>
        ne_of_isAlphanumeric (hname.2 c List.mem_cons_self) hmark
      have haction := hne _ (hmarkers.marks machine.parser.settings.markers.actionMark (by simp))
      have hline := hne _ (hmarkers.marks machine.parser.settings.markers.lineMark (by simp))
      have hpreference :=
        hne _ (hmarkers.marks machine.parser.settings.markers.preferenceMark (by simp))
      simp [isMarked, haction, hline, hpreference]
  rw [placeholder, placeholderBy, bind_of_ok (parser_eq _), hname.trim_eq,
    hfirst _ (hmarkers.marks machine.parser.settings.markers.equationMark (by simp)),
    hfirst _ (hmarkers.marks machine.parser.settings.markers.conditionMark (by simp)),
    hmarked, h]
  rfl

/-- The scanner puts the value of an argument in front of what follows the placeholder. -/
theorem turn_placeholder (h : machine.parser.environment.argument? name = some value)
    (hr : machine.parser.reader.unread =
      machine.parser.settings.markers.placeholder name ++ rest) (fuel : Nat) (pending : Text) :
    ∃ r, r.unread = value ++ rest ∧
      turn fuel pending machine = .ok (.text pending) (machine.withReader r) := by
  have hsplit : machine.parser.reader.unread = machine.parser.settings.markers.argumentOpening ::
      (name ++ machine.parser.settings.markers.argumentClosing :: rest) := by
    rw [hr, Markers.placeholder]
    simp
  obtain ⟨r, hrest, hread⟩ := readPlaceholder_eq (machine.withReader
    ⟨Reader.advance machine.parser.settings.markers.argumentOpening machine.parser.reader.stack,
      name ++ machine.parser.settings.markers.argumentClosing :: rest⟩) hmarkers hname rfl
  rw [Machine.withReader_withReader] at hread
  have hvalue := placeholder_eq (machine.withReader r) hmarkers hname h fuel
  refine ⟨r.append value (machine.parser.settings.markers.placeholder name), ?_, ?_⟩
  · rw [Reader.unread_append, hrest]
  · rw [turn, bind_of_ok (markers_eq _), bind_of_ok (next_eq hsplit)]
    dsimp only
    rw [if_pos rfl, bind_of_ok hread, bind_of_ok hvalue]
    rfl

end

/-- **A parse depends on the unread text, not on how it is queued**, and so the placeholder of an
argument in literal text is as good as its value. The turn that the placeholder takes is the one
unit of fuel more. Both runs start from the same machine but for the reader, so they draw from the
same random numbers, and the statement is for every stream of them: two runs that draw differently
need not end alike. -/
theorem scan_requeued (fuel : Nat) (pending : Text) (machine : Machine) :
    (∀ r, r.unread = machine.parser.reader.unread →
      EndAlike (scan fuel pending machine) (scan fuel pending (machine.withReader r))) ∧
    (machine.parser.settings.markers.SparesWords → ∀ name value, name.IsWord →
      machine.parser.environment.argument? name = some value → ∀ rest r r',
      r.unread = machine.parser.settings.markers.placeholder name ++ rest →
      r'.unread = value ++ rest →
      EndAlike (scan (fuel + 1) pending (machine.withReader r))
        (scan fuel pending (machine.withReader r'))) := by
  refine ⟨fun r hr => endAlike_scan fuel pending hr, ?_⟩
  intro hmarkers name value hname hvalue rest r r' hr hr'
  obtain ⟨inlined, hinlined, hturn⟩ := turn_placeholder (machine.withReader r)
    hmarkers hname hvalue hr fuel pending
  rw [scan_succ, bind_of_ok hturn, goOn, Machine.withReader_withReader]
  have hunread : r'.unread = (machine.withReader inlined).parser.reader.unread := by
    rw [hr', Machine.withReader_reader, hinlined]
  exact endAlike_scan fuel pending hunread

/-- The marks of the language itself are no letters or digits. -/
theorem sparesWords_default : ({} : Markers).SparesWords := by
  refine ⟨by decide, fun mark hmark => ?_⟩
  simp only [List.mem_cons, List.not_mem_nil, or_false] at hmark
  rcases hmark with rfl | rfl | rfl | rfl | rfl | rfl | rfl <;> decide

/-- A machine with an argument that opens a tag, and leaves the rest of it to the template. -/
def halfTagMachine : Machine :=
  { parser := { environment := ({} : Environment).setArgument "x".toList "<element".toList } }

theorem scan_requeued_halfTag :
    halfTagMachine.parser.environment.argument? "x".toList = some "<element".toList ∧
    EndAlike
      (scan (59 + 1) ['a'] (halfTagMachine.withReader
        (Reader.ofText [] "\x7bx\x7d id=b/>c".toList)))
      (scan 59 ['a'] (halfTagMachine.withReader (Reader.ofText [] "<element id=b/>c".toList))) ∧
    EndAlike
      (scan 59 ['a'] (halfTagMachine.withReader (Reader.ofText [] "<element id=b/>c".toList)))
      (scan 59 ['a'] (halfTagMachine.withReader
        ((Reader.ofText [] " id=b/>c".toList).append "<element".toList []))) := by
  have hvalue : halfTagMachine.parser.environment.argument? "x".toList =
      some "<element".toList := rfl
  have hinlined := (scan_requeued 59 ['a'] halfTagMachine).2 sparesWords_default "x".toList
    "<element".toList (by decide) hvalue " id=b/>c".toList
    (Reader.ofText [] "\x7bx\x7d id=b/>c".toList) (Reader.ofText [] "<element id=b/>c".toList)
    (by decide) (by decide)
  -- The same text once more, now with the tag cut between two sequences.
  have hcut := (scan_requeued 59 ['a'] (halfTagMachine.withReader
    (Reader.ofText [] "<element id=b/>c".toList))).1
    ((Reader.ofText [] " id=b/>c".toList).append "<element".toList []) (by decide)
  rw [Machine.withReader_withReader] at hcut
  exact And.intro hvalue (And.intro hinlined hcut)

end Engine

end MarkupTemplate
