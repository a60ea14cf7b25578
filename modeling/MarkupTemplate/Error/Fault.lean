import MarkupTemplate.Text.Basic

/-!
# What can go wrong

A fault is the cause of an error, with the texts that describe it; `message` is the one place where
faults are put into words. Where in a template a fault arose is no part of it.
-/

set_option autoImplicit false

namespace MarkupTemplate

/-- A cause of failure. The texts in it are those that the message needs, as they were written or as
they had been resolved by then. -/
inductive Fault where
  /-- A tag without its closing tag, or without its closing marker. -/
  | unclosedTag (name : Text)
  | unclosedMacro (name : Text)
  | unclosedComment
  | unclosedArgument (argument : Text)
  | tagMismatch (expected found : Text)
  | closingWithoutParent (name : Text)
  | emptyTag
  | invalidRange (range : Text)
  | unknownTag (name : Text)
  | unknownMacro (name : Text)
  | unknownAttribute (kind name : Text)
  | unknownAction (name : Text)
  | invalidAttributes (tag reason : Text)
  | mixedAttributes (tag : Text)
  | invalidBoolean (text : Text)
  | invalidNumber (text : Text)
  | importFailed (path reason : Text)
  | unexpectedText (text : Text)
  | notAParent (tag : Text)
  | malformedEquation (equation reason : Text)
  | unsupportedOperands (operator types : Text)
  | unbalancedParenthesis (equation : Text)
  | missingOperand (operator : Text)
  | unreduced (equation : Text)
  | actionFailed (name reason : Text)
  /-- A failure that a host or a template asks for. -/
  | custom (message : Text)
  | internal (reason : Text)
  /-- Text that is no JSON, or JSON that has not the expected form. -/
  | malformedJson
deriving DecidableEq, Inhabited

namespace Fault

def quoted (t : Text) : Text := '"' :: t ++ ['"']

def message : Fault → Text
  | unclosedTag name => quoted name ++ " tag was never closed".toList
  | unclosedMacro name => quoted name ++ " macro tag was not closed".toList
  | unclosedComment => "comment was never closed".toList
  | unclosedArgument argument => "argument ".toList ++ quoted argument ++ " was never closed".toList
  | tagMismatch expected found =>
    "expected closing tag of ".toList ++ quoted expected ++ ", found ".toList ++ quoted found
  | closingWithoutParent name =>
    "closing tag ".toList ++ quoted name ++ " has no matching parent".toList
  | emptyTag => "empty tag".toList
  | invalidRange range => "invalid range: ".toList ++ range
  | unknownTag name => "unknown tag: ".toList ++ quoted name
  | unknownMacro name => "unknown macro: ".toList ++ quoted name
  | unknownAttribute kind name =>
    "unknown attribute ".toList ++ quoted name ++ " for widget kind ".toList ++ quoted kind
  | unknownAction name => "unknown action: ".toList ++ quoted name
  | invalidAttributes tag reason =>
    "invalid attributes for ".toList ++ quoted tag ++ ": ".toList ++ reason
  | mixedAttributes tag => quoted tag ++ " mixes named and positional attributes".toList
  | invalidBoolean text =>
    "expected ".toList ++ quoted "true".toList ++ " or ".toList ++ quoted "false".toList ++
      ", found ".toList ++ quoted text
  | invalidNumber text => "invalid number: ".toList ++ quoted text
  | importFailed path reason => "unable to import ".toList ++ quoted path ++ ": ".toList ++ reason
  | unexpectedText text => quoted text ++ " does not accept plain text".toList
  | notAParent tag => quoted tag ++ " cannot have children".toList
  | malformedEquation equation reason =>
    "invalid equation ".toList ++ quoted equation ++ ": ".toList ++ reason
  | unsupportedOperands operator types =>
    "operator ".toList ++ quoted operator ++ " does not support arguments: ".toList ++ types
  | unbalancedParenthesis equation =>
    "unbalanced parenthesis in equation: ".toList ++ quoted equation
  | missingOperand operator =>
    "operator ".toList ++ quoted operator ++ " is missing an operand".toList
  | unreduced equation => "equation could not be reduced to one value: ".toList ++ quoted equation
  | actionFailed name reason => "action ".toList ++ quoted name ++ " failed: ".toList ++ reason
  | custom message => message
  | internal reason => "internal error: ".toList ++ reason
  | malformedJson => "malformed JSON".toList

end Fault

/-- A monad in which a computation can end with a fault. -/
class Failing (μ : Type → Type) where
  /-- Ends with a fault. -/
  fail {α : Type} : Fault → μ α

export Failing (fail)

instance : Failing (Except Fault) := ⟨Except.error⟩

instance {μ : Type → Type} [Monad μ] : Failing (ExceptT Fault μ) := ⟨throw⟩

/-- A pure outcome in a monad that can fail. What can be decided without the machine is decided by a
function of its own, and comes into a computation by this. -/
def ofOutcome {μ : Type → Type} [Monad μ] [Failing μ] {α : Type} : Except Fault α → μ α
  | .ok a => pure a
  | .error f => fail f

end MarkupTemplate
