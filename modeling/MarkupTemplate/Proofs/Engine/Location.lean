import MarkupTemplate.Proofs.Engine.Failure
import MarkupTemplate.Proofs.Reader.Position

/-!
# Where an error was raised

Reading a template puts text in front of it, suspends it and goes on with it, and an error can be
raised at any time of that. It is an invariant of reading that the base of the reader is the template
and knows its line (`Machine.Tracks`). An error does not know its place before it leaves the parse,
unless a macro of the host has read a fragment, which is a parse of its own. So the error of a parse
names the template and the line that reading has reached in it, whatever was read at that moment
(`positions_outlast_expansions`).

That is so if nothing was in the reader in front of the template. Text that waits there is read
behind the template, but it is the base (`not_positions_outlast_queued`).
-/

set_option autoImplicit false

namespace MarkupTemplate

/-! ## Macros that read fragments

A fragment is a parse of its own: its errors know their place already when they reach the parse
around it, and it is the place in the fragment. So the statements below are for registries without
macros that read one, and that there are none is an invariant. -/

/-- What a list of entries has under a name is the value of one of them. -/
theorem Dictionary.exists_mem_of_get?_ofList {α : Type} {entries : List (Text × α)} {name : Text}
    {a : α} (h : (ofList entries).get? name = some a) : ∃ e ∈ entries, e.2 = a := by
  -- The table is built by inserting, so an entry was there before or is one of those inserted.
  have hfold : ∀ d : Dictionary α,
      (entries.foldl (fun (d : Dictionary α) e => d.insert e.1 e.2) d).get? name = some a →
        d.get? name = some a ∨ ∃ e ∈ entries, e.2 = a := by
    clear h
    induction entries with
    | nil => exact fun d hd => .inl hd
    | cons entry entries ih =>
      intro d hd
      rcases ih _ hd with hinsert | ⟨e, he, ha⟩
      · rw [get?_insert] at hinsert
        split at hinsert
        · exact .inr ⟨entry, List.mem_cons_self, Option.some.inj hinsert⟩
        · exact .inl hinsert
      · exact .inr ⟨e, List.mem_cons_of_mem _ he, ha⟩
  rcases hfold _ h with hempty | hmem
  · cases hempty
  · exact hmem

namespace Registry

variable {r : Registry}

/-- The registry of the language has no macro of a host. -/
theorem not_readsFragments_standard : ¬ standard.ReadsFragments := by
  rintro ⟨name, hname⟩
  obtain ⟨e, he, hvalue⟩ := Dictionary.exists_mem_of_get?_ofList hname
  obtain ⟨entry, -, rfl⟩ := List.mem_map.mp he
  cases hvalue

theorem macros_countCall (r : Registry) (place : ActionPlace) :
    (r.countCall place).macros = r.macros := by
  unfold countCall
  dsimp only
  repeat' split
  all_goals rfl

/-- Calling an action adds no macro that reads fragments. -/
theorem ReadsFragments.of_call? {separator : Char} {name : Text} {argument : Option Text}
    {call : Call} (hcall : r.call? separator name argument = some call)
    (h : call.registry.ReadsFragments) : r.ReadsFragments := by
  obtain ⟨place, -, hplace⟩ := Option.bind_eq_some_iff.mp hcall
  obtain ⟨action, -, rfl⟩ := Option.map_eq_some_iff.mp hplace
  obtain ⟨name, hname⟩ := h
  refine ⟨name, ?_⟩
  rw [macroMaker?, macros_countCall] at hname
  exact hname

/-- A macro that a template defines reads no fragments. -/
theorem ReadsFragments.of_registerMacro {name : Text} {d : Definition}
    (h : (r.registerMacro name (.template d)).ReadsFragments) : r.ReadsFragments := by
  obtain ⟨other, hother⟩ := h
  rw [macroMaker?, registerMacro, Dictionary.get?_insert] at hother
  split at hother
  · cases Option.some.inj hother
  · exact ⟨other, hother⟩

end Registry

/-! ## The base of a parse

The base of the reader is the sequence at the bottom of its stack. What is put in front of it while
it is read comes and goes, and its own lines are counted all the time. -/

/-- Whether a machine reads a text of a name, and what was put in front of it meanwhile, without
macros that read a fragment. The field `counted` is about every sequence on the stack, since each of
them may be the one whose line an error tells. -/
structure Machine.Tracks (name text : Text) (m : Machine) : Prop where
  base : m.parser.reader.base?.map Sequence.source = some (name, text)
  counted : m.parser.reader.Counted
  fragments : ¬ m.registry.ReadsFragments

theorem Machine.Tracks.withParser {name text : Text} {m : Machine} (h : m.Tracks name text)
    {p : Parser} (hreader : p.reader = m.parser.reader) :
    Machine.Tracks name text { m with parser := p } :=
  ⟨hreader ▸ h.base, hreader ▸ h.counted, h.fragments⟩

/-- Whether an error does not know its place. This is the kind of errors that reading raises, before
they leave the parse. -/
def Error.IsUnplaced (e : Error) : Prop := e.place = none

instance {name text : Text} : Growing (Machine.Tracks name text) (Stop.IsOf Error.IsUnplaced) where
  fault _ := rfl
  strictFault _ _ _ := rfl
  operators _ := .inr fun _ => rfl
  exhausted := trivial
  notices _ h := ⟨h.base, h.counted, h.fragments⟩
  call h hcall := ⟨⟨h.base, h.counted, fun hreads => h.fragments (hreads.of_call? hcall)⟩,
    fun _ _ => rfl⟩
  skip n h := ⟨(Reader.source_base?_skip n _).trans h.base, h.counted.skip n, h.fragments⟩
  overflow := trivial
  draws _ h := ⟨h.base, h.counted, h.fragments⟩
  append text name h := by
    refine ⟨?_, h.counted.append text name, h.fragments⟩
    rw [Machine.withReader_reader, Reader.source_base?_append, h.base]
    rfl
  define what _ _ h := by
    refine ⟨h.base, h.counted, fun hreads => h.fragments ?_⟩
    cases what with
    | macroName => exact hreads.of_registerMacro
    | tagName => exact hreads
    | attributeName => exact hreads
  environment _ h := h.withParser rfl
  text _ h := h.withParser rfl
  widget _ _ h := h.withParser rfl
  deferred _ _ _ h := h.withParser rfl
  parents _ h := h.withParser rfl
  roots _ h := h.withParser rfl
  fragments h hreads := absurd hreads h.fragments

namespace Engine

variable {fuel : Nat} {template name : Text} {machine front inside : Machine} {e : Error}

theorem scan_nothing (hrest : machine.parser.atRest = machine.parser) :
    scan fuel [] machine ≠ .error (.failure e) inside := by
  have hreader : machine.parser.reader = .empty := (congrArg Parser.reader hrest).symm
  have hparents : machine.parser.parents = [] := (congrArg Parser.parents hrest).symm
  cases fuel with
  | zero => exact fun h => by cases h
  | succ fuel =>
    have hend : machine.parser.reader.unread = [] := by rw [hreader]; rfl
    have hname : parentName (machine.withReader machine.parser.reader.next.2) =
        .ok none (machine.withReader machine.parser.reader.next.2) := by
      show EStateM.Result.ok (machine.parser.parents.head?.map _) _ = _
      rw [hparents]
      rfl
    have hclosed : checkClosed (machine.withReader machine.parser.reader.next.2) =
        .ok () (machine.withReader machine.parser.reader.next.2) := by
      rw [checkClosed, bind_of_ok hname]
      rfl
    have hturn : turn fuel [] machine =
        .ok .finished (machine.withReader machine.parser.reader.next.2) := by
      rw [turn, bind_of_ok (markers_eq _), bind_of_ok (next_end hend)]
      dsimp only
      rw [List.reverse_nil, bind_of_ok (addText_nil _)]
      exact bind_of_ok hclosed
    rw [scan_succ, bind_of_ok hturn]
    exact fun h => by cases h

/-- A template that is put into an empty reader is the base from then on. An empty template would
leave the reader without one. -/
theorem tracks_append (name : Text) (hreader : front.parser.reader = .empty) (ht : template ≠ [])
    (hfragments : ¬ front.registry.ReadsFragments) :
    (front.withReader (front.parser.reader.append template name)).Tracks name template := by
  refine ⟨?_, ?_, hfragments⟩
  · rw [Machine.withReader_reader, Reader.source_base?_append, hreader, if_neg ht]
    rfl
  · rw [Machine.withReader_reader, hreader]
    exact Reader.counted_empty.append template name

/-- The error of a parse that fails while its template is read. It leaves the scan without a place
and gets that of the reader at this point. -/
theorem located_of_failed_scan {nodes : List Node}
    (hfront : notify .before [] machine = .ok nodes front)
    (hrest : front.parser.atRest = front.parser) (hfragments : ¬ front.registry.ReadsFragments)
    (hscan : scan fuel [] (front.withReader (front.parser.reader.append template name)) =
      .error (.failure e) inside) :
    e.place = none ∧
    parse fuel template name machine =
      .error (.failure { fault := e.fault, place := some (.capture inside.parser.reader) })
        { inside with parser := inside.parser.atRest } ∧
    ∃ s, inside.parser.reader.base? = some s ∧ s.name = name ∧ s.text = template ∧
      s.left ≤ template.length ∧ s.line = 1 + s.consumed.count '\n' := by
  have hreader : front.parser.reader = .empty := (congrArg Parser.reader hrest).symm
  have hstart : startParse template name machine =
      .ok () (front.withReader (front.parser.reader.append template name)) := by
    rw [startParse, bind_of_ok hfront]
    rfl
  have ht : template ≠ [] := by
    rintro rfl
    exact scan_nothing hrest hscan
  -- The scan keeps the base that the template has become, and its errors have no place yet.
  obtain ⟨htracks, hplace⟩ :=
    keeps_scan (G := Stop.IsOf Error.IsUnplaced) fuel [] _ (tracks_append name hreader ht hfragments)
  rw [hscan] at htracks
  have hunplaced : e.place = none := hplace (.failure e) inside hscan
  refine ⟨hunplaced, ?_, ?_⟩
  · rw [parse_of_start_error hstart hscan, Error.locate, hunplaced]
  · obtain ⟨s, hs, hsource⟩ := Option.map_eq_some_iff.mp htracks.base
    obtain ⟨rfl, rfl⟩ := Prod.mk.inj hsource
    have hmem : s ∈ inside.parser.reader.stack := List.mem_of_getLast? hs
    exact ⟨s, hs, rfl, rfl, htracks.counted.coherent.2 s hmem, htracks.counted.lines s hmem⟩

/-- **Positions outlast what is put in front of a text.** Every run of commands on a reader keeps
them right, and so an error that is raised while a template is read names the template and its line.
The first part is about readers by themselves, and is what the second part rests on. -/
theorem positions_outlast_expansions :
    (∀ commands,
      (∀ s ∈ (Reader.empty.runOn commands).stack, s.left ≤ s.text.length ∧
        s.line = 1 + s.consumed.count '\n') ∧
      (∀ below more, (Reader.empty.runOn commands).Suspends below → .clear ∉ more →
        ((Reader.empty.runOn commands).runOn more).Suspends below ∨
          ∃ earlier, earlier <+: more ∧
            ((Reader.empty.runOn commands).runOn earlier).IsDownTo below) ∧
      (Reader.empty.runOn commands).base?.map Sequence.source =
        commands.foldl Reader.Command.firstQueued none) ∧
    ∀ fuel template name machine nodes front inside e,
      notify .before [] machine = .ok nodes front → front.parser.atRest = front.parser →
      ¬ front.registry.ReadsFragments →
      scan fuel [] (front.withReader (front.parser.reader.append template name)) =
        .error (.failure e) inside →
      e.place = none ∧ ∃ d s,
        parse fuel template name machine =
          .error (.failure { fault := e.fault, place := some d })
            { inside with parser := inside.parser.atRest } ∧
        inside.parser.reader.base? = some s ∧ s.source = (name, template) ∧
        d.baseName = some name ∧ d.baseLine = some (1 + s.consumed.count '\n') := by
  refine ⟨Reader.positions_runOn, fun fuel template name machine nodes front inside e hfront hrest
    hfragments hscan => ?_⟩
  obtain ⟨hplace, hparse, s, hs, rfl, rfl, -, hline⟩ :=
    located_of_failed_scan hfront hrest hfragments hscan
  refine ⟨hplace, _, s, hparse, hs, rfl, ?_, ?_⟩
  · simp [Diagnostics.capture, hs]
  · simp [Diagnostics.capture, hs, hline]

/-- A loop whose body has a stray closing tag, which is found in what stands for the loop. -/
def strayTemplate : Text := "a\n<:loop times=2>\n</b></:loop>".toList

theorem positions_outlast_expansions_strayTemplate : ∃ e inside d s,
    scan 40 [] (Machine.withReader {} (Reader.append .empty strayTemplate "n".toList)) =
      .error (.failure e) inside ∧
    parse 40 strayTemplate "n".toList {} = .error (.failure { fault := e.fault, place := some d })
      { inside with parser := inside.parser.atRest } ∧
    inside.parser.reader.base? = some s ∧ s.source = ("n".toList, strayTemplate) ∧
    d.baseName = some "n".toList ∧ d.baseLine = some (1 + s.consumed.count '\n') := by
  obtain ⟨e, inside, hscan⟩ := exists_of_fails (show fails (scan 40 []
    (Machine.withReader {} (Reader.append .empty strayTemplate "n".toList))) = true by
      decide +kernel)
  obtain ⟨-, d, s, hplaced⟩ := positions_outlast_expansions.2 40 strayTemplate "n".toList {} [] {}
    inside e (notify_eq rfl []) rfl Registry.not_readsFragments_standard hscan
  exact ⟨e, inside, d, s, hscan, hplaced⟩

/-- A machine with a text that waits to be read. -/
def queuedMachine : Machine :=
  Machine.withReader {} (Reader.append .empty "x".toList "before".toList)

/-- The name of the base that the error of a computation is placed in. -/
def basePlace? {α : Type} : EStateM.Result Stop Machine α → Option Text
  | .error (.failure e) _ => e.place.bind Diagnostics.baseName
  | _ => none

theorem basePlace?_queuedMachine :
    basePlace? (parse 20 "</b>".toList "n".toList queuedMachine) = some "before".toList := by
  decide +kernel

/-- The error of a template is placed in the text that has waited behind it. -/
theorem not_positions_outlast_queued : ¬ ∀ fuel template name machine e m,
    machine.parser.listeners .before = [] → machine.registry = .standard →
    parse fuel template name machine = .error (.failure e) m →
      e.place.bind Diagnostics.baseName = some name := by
  intro h
  obtain ⟨e, m, hparse⟩ := exists_of_fails
    (show fails (parse 20 "</b>".toList "n".toList queuedMachine) = true by decide +kernel)
  have hname := h 20 "</b>".toList "n".toList queuedMachine e m rfl rfl hparse
  have hplace := basePlace?_queuedMachine
  rw [hparse, basePlace?, hname] at hplace
  exact absurd (Option.some.inj hplace) (by decide)

end Engine

end MarkupTemplate
