import MarkupTemplate.Builtin.Basic
import MarkupTemplate.Engine.Tree
import MarkupTemplate.Tag.Part

/-!
# Reading a template

Reading goes through the unread text from left to right. Placeholders and macros are replaced on
the way: what they stand for is put in front of the rest and read like the template itself, so all
markup may come out of them. Regular tags grow the tree, comments are passed over, and all else is
text.

Where a piece of text ends is decided on the unread text alone; the reader is then moved over as
many characters. So a piece may start in one sequence and end in another. That the text can be looked
at as a whole, though it is spread over a stack of sequences, is what `Reader.run_eq_onText` says: no
command on a reader, and no look ahead, tells the stack from the text that it holds, and moving over
a number of characters leaves the rest of the text behind them.

`scan` is the loop. What it does for one tag is in `readTag`, which takes as a parameter how a host
has other template text read in between.
-/

set_option autoImplicit false

namespace MarkupTemplate

namespace Engine

/-! ## Moving the reader

The scanner never takes the stack of sequences apart. It looks at the unread text as a whole,
decides how far a piece goes, and moves the reader over as many characters. -/

def skip (count : Nat) : Engine Unit :=
  modifyParser fun p => { p with reader := Reader.skip count p.reader }

/-- Reads up to a rest of what is unread. The rest is told by its length, so it has to be an end of
the unread text, which the functions that cut pieces see to. -/
def skipTo (rest : Text) : Engine Unit :=
  modifyParser fun p =>
    { p with reader := Reader.skip (p.reader.available - rest.length) p.reader }

def skipAll : Engine Unit := modifyParser fun p => { p with reader := p.reader.finish }

def unread : Engine Text := return (← parser).reader.unread

def next : Engine (Option Char) := fun m =>
  let (c, reader) := m.parser.reader.next
  .ok c { m with parser := { m.parser with reader := reader } }

/-! ## Pieces of a template

Each of these reads one piece from behind the marker that began it. Where a piece is not closed, the
reader is moved to the end before the error is raised: the place in the error is the place where the
closing marker was missed. -/

/-- Reads a placeholder from behind its opening marker. Placeholders inside it are part of its text
and are not touched. -/
def readPlaceholder : Engine Text := do
  let m ← markers
  match Text.takeNested m.argumentOpening m.argumentClosing 0 (← unread) with
  | (raw, some rest) =>
    skipTo rest
    return raw
  | (raw, none) =>
    skipAll
    fail (.unclosedArgument raw)

/-- Reads to the end in search of the end of a comment, given from its comment marker on. A remark
is looked for character by character and stops at the end of the text; a declaration is read like a
nested marker, which tries to read once more. -/
def failUnclosedComment (text : Text) : Engine Unit := do
  let m ← markers
  if m.isRemark text then skip text.length else skipAll
  fail .unclosedComment

/-- Passes over a comment from its comment marker on. Nothing in a comment is resolved or looked
up. -/
def skipComment : Engine Unit := do
  let settings := (← parser).settings
  let text ← unread
  match settings.markers.afterComment? settings.nestedComments text with
  | some rest => skipTo rest
  | none => failUnclosedComment text

/-- The text of a tag, its placeholders resolved, from its parts. `raw` is the text so far, the last
character first. A placeholder is resolved when it is reached and not before, so its actions are
called only if everything in front of it could be read. -/
def joinParts (fuel : Nat) : Text → List TagPart → Engine Text
  | raw, .char c :: parts => do
    skip 1
    joinParts fuel (c :: raw) parts
  | raw, .placeholder name :: parts => do
    skip (name.length + 2)
    let value ← expand fuel (← placeholder fuel name)
    joinParts fuel (value.reverse ++ raw) parts
  | raw, .comment length :: parts => do
    skip length
    joinParts fuel raw parts
  | raw, .closing :: _ => do
    skip 1
    return raw.reverse
  | _, .unclosedPlaceholder name :: _ => do
    skipAll
    fail (.unclosedArgument name)
  | raw, .unclosedComment text :: _ => do
    skip 1
    failUnclosedComment text
    -- Not reached, as an unclosed comment always fails.
    return raw.reverse
  | raw, .missingClosing :: _ => do
    skipAll
    fail (.unclosedTag (Text.trim raw.reverse))
  | raw, [] => return raw.reverse

/-- Reads a tag from behind its opening marker. The parts are cut on the text as it is written; so a
closing marker that comes out of a placeholder does not end the tag. -/
def readTagText (fuel : Nat) : Engine Text := do
  let settings := (← parser).settings
  joinParts fuel [] (settings.markers.tagParts settings.nestedComments none (← unread))

/-- Reads the body of a tag from behind the tag. The body is kept as it is written, with its
placeholders, comments and tags, and is for the macro to make something of. -/
def readBody (name : Text) (isMacro : Bool) : Engine Text := do
  let pattern : TagPattern := ⟨name, isMacro, ← isStrict⟩
  match pattern.takeBody (← markers) 0 (← unread) with
  | some (body, rest) =>
    skipTo rest
    return body
  | none =>
    skipAll
    fail (if isMacro then .unclosedMacro name else .unclosedTag name)

/-- The tag with its body, if it is one that has a body. A tag that closes itself has none, which is
another thing than an empty one. -/
def withBody (t : Tag) (isMacro : Bool) : Engine Tag := do
  if t.closed then return t
  return { t with body := some (← readBody t.name isMacro) }

/-- Appends what a definition stands for in a tag. It is read under the name of the definition with
the tag marker in front, so a place in an error tells the text of a call from the template around
it. -/
def appendTemplate (d : Definition) (t : Tag) : Engine Unit := do
  let m ← markers
  append (d.expand m t.attributes t.body) (m.tagOpening :: d.name)

/-! ## Tags

A regular tag becomes a node, by what is registered for its name, or is replaced by a definition. A
macro tag gets its body first, then runs. What is registered is looked up when the tag is read, so a
template may define a tag and use it further down. -/

/-- The widget of a host's tag: an element if it is of that kind, and otherwise one that is only
there to be found. -/
def hostWidget (kind : Text) : Widget Node :=
  if kind = "element".toList then .element { kind } else .inert kind none

/-- The node of a tag that something native makes. The host can refuse, and can tell that its tag
takes no children, but cannot give the node any: they come from the template. -/
def makeNode (maker : TagMaker) (t : Tag) : Engine Node := do
  match maker with
  | .element kind container =>
    return { tag := t, widget := some (.element { kind := kind.getD t.name, container }) }
  | .host h =>
    match h.refusal with
    | some message => fail (.custom message)
    | none =>
      let tag := t.withParental (!h.isVoid)
      let widget := h.widget.map hostWidget
      if h.likeElement then
        note (.created (h.widget == some "element".toList))
        return { tag, widget }
      else return { tag, widget, conduct := .host h.failure h.appended }

/-- Takes in a regular tag by what is registered for its name. A tag of an unknown name is an
anomaly, and a node without widget where anomalies are passed over. -/
def readRegular (fuel : Nat) (raw : Text) : Engine Unit := do
  let t ← ofOutcome (Tag.parse (← markers) raw)
  match (← get).registry.tagMaker? t.name with
  | some (.native maker) => openNode fuel (← makeNode maker t)
  | some (.template d) => appendTemplate d (← withBody t false)
  | none =>
    failIfStrict (.unknownTag t.name)
    openNode fuel { tag := t }

/-- Runs a macro of the host. `fragment` is how it has its body read apart from the template. -/
def runHostMacro (fragment : Text → Text → Engine Document) (h : HostMacro) (t : Tag) :
    Engine Unit := do
  match h.refusal with
  | some message => fail (.custom message)
  | none =>
    note (.macroRun t (← parentName))
    match h.effect with
    | .body => append t.bodyText t.name
    | .fragment => note (.fragment (← fragment t.bodyText "fragment".toList))
    | .failure message => failIfStrict (.custom message)
    | .append text title => append text title

/-- Takes in a macro tag. The body is captured before the macro is looked up, so even the body of an
unknown macro is passed over as a whole. -/
def readMacro (fuel : Nat) (fragment : Text → Text → Engine Document) (raw : Text) :
    Engine Unit := do
  let t ← withBody (← ofOutcome (Tag.parse (← markers) raw)) true
  match (← get).registry.macroMaker? t.name with
  | some (.native (.builtin m)) => runBuiltin fuel m t
  | some (.native (.host h)) => runHostMacro fragment h t
  | some (.template d) => appendTemplate d t
  | none => failIfStrict (.unknownMacro t.name)

/-- Takes in a tag, given the text between its markers. Whether it closes, is a macro or is a
regular tag is seen from its first character behind the blanks. -/
def readTag (fuel : Nat) (fragment : Text → Text → Engine Document) (raw : Text) :
    Engine Unit := do
  let m ← markers
  let raw := Text.trim raw
  if raw = [] then fail .emptyTag
  else
    match Text.dropFirst? m.closedMark raw with
    | some name => closeParent (Text.trim name)
    | none =>
      if raw.head? = some m.macroMark then readMacro fuel fragment raw
      else readRegular fuel raw

/-! ## Templates

`scan` is the loop over all of this, and `apart` is a second loop inside it, for hosts that have
template text read in between. -/

/-- The document that a computation reads from a text, with everything that belongs to the parse
under way put aside and back in place behind it. Arguments, registry and listeners are not put
aside: what the text does to them stays. -/
def apart (read : Engine Unit) (text name : Text) : Engine Document := do
  let outside ← parser
  modifyParser fun p =>
    { p with reader := Reader.ofText name text, parents := [], roots := [], text := [] }
  let outcome ← attempt (locating read)
  let inside ← parser
  modifyParser fun p =>
    { p with
      reader := outside.reader, parents := outside.parents, roots := outside.roots,
      text := outside.text }
  match outcome with
  | .ok _ => return ⟨inside.roots, inside.text⟩
  | .error stop => throw stop

/-- Fails if a tag is still open at the end. The innermost one is named, since it is the one whose
closing tag would have come first. -/
def checkClosed : Engine Unit := do
  match ← parentName with
  | some name => fail (.unclosedTag name)
  | none => return

/-- Reads all that is unread. `pending` is the text since the last tag, the last character first. It
is handed to the innermost open tag in one piece, when the next tag comes or at the end, so that
neither comments nor the seams between sequences cut a text in two. -/
def scan : Nat → Text → Engine Unit
  | 0, _ => throw .exhausted
  | fuel + 1, pending => do
    let m ← markers
    match ← next with
    | none =>
      addText pending.reverse
      checkClosed
    | some c =>
      if c = m.argumentOpening then
        let raw ← readPlaceholder
        -- What it stands for is read like the template itself, so it may bring markup.
        append (← placeholder fuel raw) (m.placeholder raw)
        scan fuel pending
      else if c = m.tagOpening then
        if (← unread).head? = some m.commentOpening then
          skipComment
          -- The text on both sides of a comment is one piece.
          scan fuel pending
        else
          addText pending.reverse
          readTag fuel (apart (scan fuel [])) (← readTagText fuel)
          scan fuel []
      else scan fuel (c :: pending)

end Engine

end MarkupTemplate
