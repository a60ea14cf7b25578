import MarkupTemplate.Engine.Shaping

/-!
# The growing tree

While a template is read its open tags form a stack. A tag that closes leaves the stack and becomes
a child of the tag below it, or a root; so a node is complete when it gets its place in the tree.
Text goes to the innermost open tag, or to the text of the document if there is none.
-/

set_option autoImplicit false

namespace MarkupTemplate

namespace Engine

/-! ## Text and children

Text and children come to a node while its tag is open, and it depends on its conduct what it does
with them. What a node does not take is an anomaly: strict reading fails, lenient reading drops the
text and keeps the child. -/

/-- The fault of text in a node that takes none, with the text that is in the way. -/
def unexpectedText (n : Node) (text : Text) : Fault :=
  .unexpectedText (Fault.quoted text ++ " inside <".toList ++ n.tag.name ++ ['>'])

/-- The node with text between its tags, if it takes it. An element takes one text; a second one,
behind a tag inside it, takes the place of the first. -/
def withText? (n : Node) (text : Text) : Option Node :=
  match n.conduct with
  | .element => (n.widget.bind (Widget.setText? text)).map fun w => { n with widget := some w }
  | .host .. => none

/-- Hands text to the innermost open tag; blanks around it do not count. -/
def giveText (parent : Node) (outer : List Node) (text : Text) : Engine Unit := do
  let text := Text.trim text
  if text ≠ [] then
    match withText? parent text with
    | some parent => modifyParser fun p => { p with parents := parent :: outer }
    | none => failIfStrict (unexpectedText parent text)

/-- Takes in a piece of text between two tags. Outside of all tags the blanks around it are kept,
since it is part of the text of the document, and a piece of nothing but blanks is dropped. -/
def addText (text : Text) : Engine Unit := do
  match (← parser).parents with
  | parent :: outer => giveText parent outer text
  | [] =>
    if !Text.isBlankText text then modifyParser fun p => { p with text := p.text ++ text }

/-- Whether a node has a say in whether it takes children, and does not. Nodes of the host take any;
whether their tag can stay open at all is settled before. -/
def refusesChildren (n : Node) : Bool :=
  match n.conduct with
  | .element => n.widget.any fun w => !w.isContainer
  | .host .. => false

/-- Gives a finished node its place: below the innermost open tag, or among the roots. It comes
behind what is there, so the order of nodes is that in which they were finished, level by level. -/
def attach (n : Node) : Engine Unit := do
  match (← parser).parents with
  | parent :: outer =>
    if refusesChildren parent then failIfStrict (.notAParent parent.tag.name)
    modifyParser fun p => { p with parents := parent.addChild n :: outer }
  | [] => modifyParser fun p => { p with roots := p.roots ++ [n] }

/-! ## Opening and closing

A tag is opened at most once and closed at most once. `openNode` puts it on the stack or finishes it
at once, and `closeParent` takes it off again. -/

def parentName : Engine (Option Text) := return (← parser).parents.head?.map fun n => n.tag.name

/-- What a node does when its tag closes. It comes before the node is attached, so a node that fails
here is not part of any document. -/
def finish (n : Node) : Engine Unit := do
  match n.conduct with
  | .element => return
  | .host failure appended =>
    note (.closed n.tag.name n.children.length (← parentName))
    match failure with
    | some message => fail (.custom message)
    | none => append appended n.tag.name

/-- Takes in the node of a tag that was just read: it stays open if it takes children. Its
attributes are applied first, and while that happens it is not part of the tree. -/
def openNode (fuel : Nat) (n : Node) : Engine Unit := do
  let n ← Shaping.shape (Shaping.applyTag fuel) n
  if n.tag.parental then modifyParser fun p => { p with parents := n :: p.parents }
  else
    finish n
    attach n

/-- Whether a closing tag of a name closes an opened one. Lenient reading ignores the case of ASCII
letters, and of no others. -/
def closes (strict : Bool) (opened name : Text) : Bool :=
  if strict then opened == name else Text.eqIgnoringCase opened name

/-- Takes in a closing tag, which has to close the innermost open tag. Another one is an error in
either mode: there is no guessing which tag was meant. -/
def closeParent (name : Text) : Engine Unit := do
  match (← parser).parents with
  | [] => fail (.closingWithoutParent name)
  | parent :: outer =>
    if closes (← isStrict) parent.tag.name name then
      modifyParser fun p => { p with parents := outer }
      finish parent
      attach parent
    else fail (.tagMismatch parent.tag.name name)

end Engine

end MarkupTemplate
