import MarkupTemplate.Environment.Source
import MarkupTemplate.Text.LetterCase

/-!
# Environment

What templates can refer to besides tags: arguments, which templates set and read under names
without letter case, lines of text in bundles, preferences, and the templates they import.

Arguments are the only part of it that a template can change.
-/

set_option autoImplicit false

namespace MarkupTemplate

/-- The name of the bundle, and of the preferences, that need not be named. -/
def defaultGroup : Text := "default".toList

/-- What templates can refer to. Each part of it is a table or a function, so two environments that
answer alike are alike. -/
structure Environment where
  /-- The arguments under their names in lower case. -/
  arguments : Dictionary Text := {}
  bundles : Dictionary (Dictionary Text) := {}
  preferences : Dictionary (Dictionary Text) := {}
  /-- What imports read. The default reads files, and finds none. -/
  source : Source := .files (fun _ => .error Source.missingFile) [] []

namespace Environment

def argument? (e : Environment) (name : Text) : Option Text := e.arguments.get? (Text.lower name)

def setArgument (e : Environment) (name value : Text) : Environment :=
  { e with arguments := e.arguments.insert (Text.lower name) value }

def removeArgument (e : Environment) (name : Text) : Environment :=
  { e with arguments := e.arguments.erase (Text.lower name) }

def clearArguments (e : Environment) : Environment := { e with arguments := {} }

def entry? (groups : Dictionary (Dictionary Text)) (group key : Text) : Option Text :=
  (groups.get? group).bind fun d => d.get? key

/-- The entry that a reference means: `group.key` if there is such a group, and else a key of the
default group. So a key with a separator in it can be had from the default group, unless what is in
front of the separator happens to be a group. -/
def refer (groups : Dictionary (Dictionary Text)) (separator : Char) (reference : Text) :
    Option Text :=
  match Text.splitFirst? separator reference with
  | some (group, key) =>
    if groups.contains group then entry? groups group key
    else entry? groups defaultGroup reference
  | none => entry? groups defaultGroup reference

end Environment

end MarkupTemplate
