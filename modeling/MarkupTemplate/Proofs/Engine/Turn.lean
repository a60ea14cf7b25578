import MarkupTemplate.Engine.Parse
import MarkupTemplate.Proofs.Engine.Run

/-!
# The turns of the scanner

`scan` goes round once for each character, placeholder, comment or tag. `turn` is one round up to
where it comes upon a tag, and `scan_succ` says that scanning is one turn after another, each tag
being taken in by `readTag`. So a fact about scanning is a fact about turns and one about tags.

`tagsAhead` is the tags that a run comes upon. A macro of the host can have other template text read
in between, and the tags in there are among them.
-/

set_option autoImplicit false

namespace MarkupTemplate

/-- What one turn of the scanner comes to. A tag is given as its text with the placeholders
resolved, and has not been taken in yet. -/
inductive Turn where
  | finished
  /-- The scanner goes on with that much text since the last tag. -/
  | text (pending : Text)
  | tag (raw : Text)

/-- What the text between tag markers is about. The texts of the tags are without blanks around
them. -/
inductive TagText where
  | blank
  | closing (name : Text)
  | macroTag (raw : Text)
  | regular (raw : Text)

/-- What the text between tag markers is about, by its first character behind the blanks. -/
def Markers.tagText (m : Markers) (raw : Text) : TagText :=
  if Text.trim raw = [] then .blank
  else
    match Text.dropFirst? m.closedMark (Text.trim raw) with
    | some name => .closing (Text.trim name)
    | none =>
      if (Text.trim raw).head? = some m.macroMark then .macroTag (Text.trim raw)
      else .regular (Text.trim raw)

/-- The machine at the start of a text that is read apart from the parse under way. -/
def Machine.apart (machine : Machine) (text name : Text) : Machine :=
  { machine with
    parser := { machine.parser with
      reader := Reader.ofText name text, parents := [], roots := [], text := [] } }

/-- The machine behind such a text, with everything of the parse under way back in place. What the
text has told the parser for good is still there. -/
def Machine.back (machine outside : Machine) : Machine :=
  { machine with
    parser := { machine.parser with
      reader := outside.parser.reader, parents := outside.parser.parents,
      roots := outside.parser.roots, text := outside.parser.text } }

namespace Engine

/-! ## Turns

A turn is what scanning does between two looks at its fuel. The statement about a whole run that a
proof wants is then an induction with one lemma about turns and one about tags. -/

/-- One turn, without taking in the tag it may come upon. Text is handed to the tree in a turn if a
tag or the end follows it. -/
def turn (fuel : Nat) (pending : Text) : Engine Turn := do
  let m ← markers
  match ← next with
  | none =>
    addText pending.reverse
    checkClosed
    return .finished
  | some c =>
    if c = m.argumentOpening then
      let raw ← readPlaceholder
      append (← placeholder fuel raw) (m.placeholder raw)
      return .text pending
    else if c = m.tagOpening then
      if (← unread).head? = some m.commentOpening then
        skipComment
        return .text pending
      else
        addText pending.reverse
        return .tag (← readTagText fuel)
    else return .text (c :: pending)

/-- How scanning goes on after a turn, with the fuel that is left. -/
def goOn (fuel : Nat) : Turn → Engine Unit
  | .finished => return
  | .text pending => scan fuel pending
  | .tag raw => do
    readTag fuel (apart (scan fuel [])) raw
    scan fuel []

/-- Scanning is a turn and what it leads to. This is the only place where the definition of `scan`
is unfolded. -/
theorem scan_succ (fuel : Nat) (pending : Text) :
    scan (fuel + 1) pending = turn fuel pending >>= goOn fuel := by
  rw [scan, turn, bind_assoc]
  congr 1
  funext m
  rw [bind_assoc]
  congr 1
  funext c
  -- The same cases on both sides, with the scan going on behind each on the left.
  cases c with
  | none => simp [goOn]
  | some c =>
    dsimp only
    split
    · simp [goOn]
    · split
      · rw [bind_assoc]
        congr 1
        funext t
        split
        · simp [goOn]
        · simp [goOn]
      · simp [goOn]

theorem addText_nil (machine : Machine) : addText [] machine = .ok () machine := by
  rw [addText, bind_of_ok (parser_eq machine)]
  cases machine.parser.parents with
  | nil => rfl
  | cons parent outer => rfl

/-! ## Tags

Taking in a tag is cut in the same way, into a look at what the text is about and one computation
for each answer. -/

/-- A tag is taken in by what it is about. -/
def takeTag (fuel : Nat) (fragment : Text → Text → Engine Document) : TagText → Engine Unit
  | .blank => fail .emptyTag
  | .closing name => closeParent name
  | .macroTag raw => readMacro fuel fragment raw
  | .regular raw => readRegular fuel raw

theorem readTag_eq (fuel : Nat) (fragment : Text → Text → Engine Document) (raw : Text) :
    readTag fuel fragment raw = markers >>= fun m => takeTag fuel fragment (m.tagText raw) := by
  rw [readTag]
  congr 1
  funext m
  rw [Markers.tagText]
  dsimp only
  -- The text of a tag says which kind it is, and the reader asks in the same order.
  by_cases hblank : Text.trim raw = []
  · rw [if_pos hblank, if_pos hblank]
    rfl
  · rw [if_neg hblank, if_neg hblank]
    cases Text.dropFirst? m.closedMark (Text.trim raw) with
    | some name => rfl
    | none =>
      dsimp only
      by_cases hmacro : (Text.trim raw).head? = some m.macroMark
      · rw [if_pos hmacro, if_pos hmacro]
        rfl
      · rw [if_neg hmacro, if_neg hmacro]
        rfl

/-- Takes in a regular tag by what is registered for it. The registered thing is a parameter, so
that a case distinction on it does not have to look into the registry. -/
def runTag (fuel : Nat) (t : Tag) : Option (Provider TagMaker) → Engine Unit
  | some (.native maker) => makeNode maker t >>= openNode fuel
  | some (.template d) => withBody t false >>= appendTemplate d
  | none => do
    failIfStrict (.unknownTag t.name)
    openNode fuel { tag := t }

theorem readRegular_eq (fuel : Nat) (raw : Text) :
    readRegular fuel raw = markers >>= fun m => ofOutcome (Tag.parse m raw) >>= fun t =>
      get >>= fun machine => runTag fuel t (machine.registry.tagMaker? t.name) := rfl

/-- A macro tag with its body. This comes in front of looking the macro up. -/
def macroWithBody (raw : Text) : Engine Tag := do
  withBody (← ofOutcome (Tag.parse (← markers) raw)) true

/-- Runs what is registered for a macro tag, which is a parameter like that of `runTag`. -/
def runMacro (fuel : Nat) (fragment : Text → Text → Engine Document) (t : Tag) :
    Option (Provider MacroMaker) → Engine Unit
  | some (.native (.builtin m)) => runBuiltin fuel m t
  | some (.native (.host h)) => runHostMacro fragment h t
  | some (.template d) => appendTemplate d t
  | none => failIfStrict (.unknownMacro t.name)

theorem readMacro_eq (fuel : Nat) (fragment : Text → Text → Engine Document) (raw : Text) :
    readMacro fuel fragment raw = macroWithBody raw >>= fun t =>
      get >>= fun machine => runMacro fuel fragment t (machine.registry.macroMaker? t.name) := by
  rw [readMacro, macroWithBody, bind_assoc]
  congr 1
  funext m
  rw [bind_assoc]
  rfl

/-! ## Reading apart

Reading apart is a change of reader and tree, a run, and the change back. `apart_eq` says so in
terms of machines. -/

/-- What reading apart gives and leaves. The outcome is that of the run on the machine put aside for
it, with the parse under way back in place. -/
theorem apart_eq (read : Engine Unit) (text name : Text) (machine : Machine) :
    apart read text name machine =
      match locating read (machine.apart text name) with
      | .ok _ inside => .ok ⟨inside.parser.roots, inside.parser.text⟩ (inside.back machine)
      | .error stop inside => .error stop (inside.back machine) := by
  show EStateM.bind (attempt (locating read)) _ (machine.apart text name) = _
  rw [EStateM.bind, attempt]
  cases locating read (machine.apart text name) <;> rfl

/-! ## Parsing

A parse is what comes in front of scanning, the scan, and what comes behind it. Facts about a parse
are put together from facts about these three. -/

/-- What a parse does in front of its scanning: it notifies the listeners and puts the template in
front of what is unread. -/
def startParse (template name : Text) : Engine Unit := do
  let _ ← notify .before []
  append template name

/-- What a parse does behind its scanning: it hands over the document, and lets the listeners change
it. -/
def finishParse : Engine Document := do
  let p ← parser
  modifyParser fun p => { p with roots := [], text := [] }
  return ⟨← notify .after p.roots, p.text⟩

theorem readDocument_eq (fuel : Nat) (template name : Text) : readDocument fuel template name =
    startParse template name >>= fun _ => locating (scan fuel []) >>= fun _ => finishParse := by
  rw [readDocument, startParse, bind_assoc]
  rfl

/-- A parse is reading a document, and being at rest behind it whatever came of it. -/
theorem parse_eq (fuel : Nat) (template name : Text) (machine : Machine) :
    parse fuel template name machine =
      match readDocument fuel template name machine with
      | .ok document m => .ok document { m with parser := m.parser.atRest }
      | .error stop m => .error stop { m with parser := m.parser.atRest } := by
  show EStateM.bind (attempt (readDocument fuel template name)) _ machine = _
  rw [EStateM.bind, attempt]
  cases readDocument fuel template name machine <;> rfl

/-- Without listeners nothing happens: no node is changed, and nobody is told. -/
theorem notify_eq {machine : Machine} {phase : Phase} (h : machine.parser.listeners phase = [])
    (nodes : List Node) : notify phase nodes machine = .ok nodes machine := by
  have hset : machine.parser.setListeners phase [] = machine.parser := by
    rw [← h]
    cases phase <;> rfl
  have hnone : notifyEach [] nodes machine = .ok ([], none, nodes) machine := rfl
  rw [notify, bind_of_ok (parser_eq machine), bind_of_ok (modifyParser_eq _ machine), hset, h,
    bind_of_ok hnone]
  dsimp only
  rw [bind_of_ok (modifyParser_eq _ machine), h, List.append_nil, hset]
  rfl

/-- An error of scanning says where it was raised, and is that of the parse. -/
theorem parse_of_start_error {machine start behind : Machine} {fuel : Nat} {template name : Text}
    {e : Error} (hstart : startParse template name machine = .ok () start)
    (hscan : scan fuel [] start = .error (.failure e) behind) :
    parse fuel template name machine = .error (.failure (e.locate behind.parser.reader))
      { behind with parser := behind.parser.atRest } := by
  have hlocating : locating (scan fuel []) start =
      .error (.failure (e.locate behind.parser.reader)) behind := by
    rw [locating, hscan]
  rw [parse_eq, readDocument_eq, bind_of_ok hstart, bind_of_error hlocating]

section

variable {machine behind : Machine} {fuel : Nat} {template name : Text}
  (hbefore : machine.parser.listeners .before = [])

include hbefore

theorem startParse_eq : startParse template name machine =
    .ok () (machine.withReader (machine.parser.reader.append template name)) := by
  rw [startParse, bind_of_ok (notify_eq hbefore [])]
  rfl

/-- A document is what scanning leaves, if nobody listens: the roots and the text. -/
theorem parse_of_scan_ok
    (hscan : scan fuel [] (machine.withReader (machine.parser.reader.append template name)) =
      .ok () behind) (hafter : behind.parser.listeners .after = []) :
    parse fuel template name machine = .ok ⟨behind.parser.roots, behind.parser.text⟩
      { behind with parser := behind.parser.atRest } := by
  have hlocating : locating (scan fuel [])
      (machine.withReader (machine.parser.reader.append template name)) = .ok () behind := by
    rw [locating, hscan]
  have hhandedOver : ({ behind with parser := { behind.parser with roots := [], text := [] } } :
      Machine).parser.listeners .after = [] := hafter
  rw [parse_eq, readDocument_eq, bind_of_ok (startParse_eq hbefore), bind_of_ok hlocating,
    finishParse, bind_of_ok (parser_eq _), bind_of_ok (modifyParser_eq _ _),
    bind_of_ok (notify_eq hhandedOver _)]
  rfl

theorem parse_of_scan_error {e : Error}
    (hscan : scan fuel [] (machine.withReader (machine.parser.reader.append template name)) =
      .error (.failure e) behind) :
    parse fuel template name machine = .error (.failure (e.locate behind.parser.reader))
      { behind with parser := behind.parser.atRest } :=
  parse_of_start_error (startParse_eq hbefore) hscan

end

/-- At rest nothing is unread, so a template is all that there is to read. -/
theorem unread_append_of_atRest {machine : Machine}
    (h : machine.parser.atRest = machine.parser) (template name : Text) :
    (machine.parser.reader.append template name).unread = template := by
  have hempty : machine.parser.reader = .empty := (congrArg Parser.reader h).symm
  rw [Reader.unread_append, hempty]
  exact List.append_nil _

/-- Where nobody listens, a parse from a machine at rest hands over all that scanning changes. -/
theorem parse_of_scan_atRest {machine : Machine} {fuel : Nat} {template name text : Text}
    {r : Reader} {parents roots : List Node} (h : machine.parser.atRest = machine.parser)
    (hlisteners : ∀ phase, machine.parser.listeners phase = [])
    (hscan : scan fuel [] (machine.withReader (machine.parser.reader.append template name)) =
      .ok () { machine with
        parser := { machine.parser with reader := r, parents, roots, text } }) :
    parse fuel template name machine = .ok ⟨roots, text⟩ machine := by
  rw [parse_of_scan_ok (hlisteners .before) hscan (hlisteners .after)]
  show EStateM.Result.ok (⟨roots, text⟩ : Document)
    { machine with parser := machine.parser.atRest } = _
  rw [h]

/-! ## The tags of a run

Some hypotheses are about the tags that a run comes upon, which cannot be told from the template: a
tag may come out of a macro. So the tags are computed along with the run. -/

/-- The macro tag that the text of a tag stands for, with its body, and the machine behind it. There
is none if the tag is another one or cannot be read. -/
def macroAt? (machine : Machine) (raw : Text) : Option (Tag × Machine) :=
  match machine.parser.settings.markers.tagText raw with
  | .macroTag s =>
    match macroWithBody s machine with
    | .ok t behind => some (t, behind)
    | .error _ _ => none
  | _ => none

/-- The text that a tag has read apart, and the machine at which that begins: it is the tag of a
macro of the host that asks for it. -/
def asked? (machine : Machine) (raw : Text) : Option (Text × Machine) :=
  match macroAt? machine raw with
  | some (t, behind) =>
    match behind.registry.macroMaker? t.name with
    | some (.native (.host ⟨none, .fragment⟩)) =>
      match (parentName >>= fun parent => note (.macroRun t parent)) behind with
      | .ok _ asking => some (t.bodyText, asking)
      | .error _ _ => none
    | _ => none
  | none => none

/-- The tags that scanning comes upon, also in what is read apart on the way. Each is given by the
text between its markers and the machine behind that. The recursion is that of `scan`. -/
def tagsAhead : Nat → Text → Machine → List (Machine × Text)
  | 0, _, _ => []
  | fuel + 1, pending, machine =>
    match turn fuel pending machine with
    | .ok .finished _ => []
    | .ok (.text pending) machine => tagsAhead fuel pending machine
    | .ok (.tag raw) machine =>
      let apart := match asked? machine raw with
        | some (text, asking) => tagsAhead fuel [] (asking.apart text "fragment".toList)
        | none => []
      let behind := match readTag fuel (Engine.apart (scan fuel [])) raw machine with
        | .ok _ behind => tagsAhead fuel [] behind
        | .error _ _ => []
      (machine, raw) :: (apart ++ behind)
    | .error _ _ => []

/-- The tags that a parse comes upon, behind the listeners in front of it. -/
def tagsOf (fuel : Nat) (template name : Text) (machine : Machine) : List (Machine × Text) :=
  match startParse template name machine with
  | .ok _ start => tagsAhead fuel [] start
  | .error _ _ => []

section

variable {fuel : Nat} {pending raw : Text} {machine machine' : Machine} {tag : Machine × Text}

theorem tagsAhead_of_text {pending' : Text} (h : turn fuel pending machine =
    .ok (.text pending') machine') :
    tagsAhead (fuel + 1) pending machine = tagsAhead fuel pending' machine' := by
  rw [tagsAhead, h]

variable (h : turn fuel pending machine = .ok (.tag raw) machine')

include h

/-- The tag of the first turn is one of them. -/
theorem mem_tagsAhead_self : (machine', raw) ∈ tagsAhead (fuel + 1) pending machine := by
  rw [tagsAhead, h]
  exact List.mem_cons_self

/-- So are the tags of what that tag has read apart. -/
theorem mem_tagsAhead_of_asked {text : Text} {asking : Machine}
    (hasked : asked? machine' raw = some (text, asking))
    (hmem : tag ∈ tagsAhead fuel [] (asking.apart text "fragment".toList)) :
    tag ∈ tagsAhead (fuel + 1) pending machine := by
  rw [tagsAhead, h]
  refine List.mem_cons_of_mem _ (List.mem_append_left _ ?_)
  rw [hasked]
  exact hmem

/-- And so are the tags that come behind it. -/
theorem mem_tagsAhead_of_readTag {behind : Machine}
    (hread : readTag fuel (apart (scan fuel [])) raw machine' = .ok () behind)
    (hmem : tag ∈ tagsAhead fuel [] behind) : tag ∈ tagsAhead (fuel + 1) pending machine := by
  rw [tagsAhead, h]
  refine List.mem_cons_of_mem _ (List.mem_append_right _ ?_)
  rw [hread]
  exact hmem

end

end Engine

end MarkupTemplate
