import MarkupTemplate.Engine.Notification
import MarkupTemplate.Engine.Scan

/-!
# Parsing templates

`parse` reads a template into a document, with the listeners notified in front and behind.
Whatever its outcome, nothing of the parse stays in the parser: no text, no open tag and no node.
`fragment` reads a template without disturbing a parse under way, and without notifying anyone.

Both take the fuel with which the template is read.
-/

set_option autoImplicit false

namespace MarkupTemplate

/-- The name of a template that a host gives no name to. -/
def defaultTitle : Text := "template".toList

/-- The parser between two parses: it has nothing unread, no open tag, no root and no text. The
settings, the arguments and the listeners are the host's, and stay. -/
def Parser.atRest (p : Parser) : Parser :=
  { p with reader := .empty, parents := [], roots := [], text := [] }

namespace Engine

/-- Reads a template and notifies the listeners. The template is put in front of what is unread,
which is what the listeners notified in front of it have appended; so that text is read behind the
template. -/
def readDocument (fuel : Nat) (template name : Text) : Engine Document := do
  let _ ← notify .before []
  append template name
  locating (scan fuel [])
  let p ← parser
  -- The listeners behind the parse see a parser that has handed over its nodes.
  modifyParser fun p => { p with roots := [], text := [] }
  return ⟨← notify .after p.roots, p.text⟩

/-- The document of a template. The parser is at rest behind it whatever the outcome is, so an error
in one template leaves nothing that the next one could trip over, listeners apart. -/
def parse (fuel : Nat) (template name : Text) : Engine Document := do
  let outcome ← attempt (readDocument fuel template name)
  modifyParser Parser.atRest
  match outcome with
  | .ok document => return document
  | .error stop => throw stop

/-- The document of a template that is read apart from any parse under way. That parse goes on as if
nothing had been read, and no listener hears of the fragment. -/
def fragment (fuel : Nat) (template name : Text) : Engine Document :=
  apart (scan fuel []) template name

end Engine

end MarkupTemplate
