import MarkupTemplate.Environment.Source
import MarkupTemplate.Host
import MarkupTemplate.Node.Widget

/-!
# Built-in macros

The macros that every template can use, and the names they go by. A macro may go by several names,
and macros that differ in one respect only, such as what they accept or how they make a value, are
one macro with a parameter.
-/

set_option autoImplicit false

namespace MarkupTemplate

/-- Which number of missing values a null check accepts. -/
inductive NullCheck where
  /-- No value is missing. -/
  | noneMissing
  | somePresent
  | someMissing
deriving DecidableEq

/-- How a value is made from what an assignment says. From the first to the last more is read into
the text. -/
inductive Assignment where
  /-- The text as it is written. -/
  | written
  /-- The text with its placeholders resolved. -/
  | resolved
  /-- The result of an equation. -/
  | calculated
  /-- An element of an array. -/
  | chosen
deriving DecidableEq

/-- What a definition adds to the registry. -/
inductive Definable where
  | macroName
  | tagName
  | attributeName
deriving DecidableEq

/-- A macro that is part of the language. The names are not in here: templates can register other
macros under them, and a host may have another table. -/
inductive BuiltinMacro where
  | conditional
  | nullCheck (check : NullCheck)
  | repetition
  | parallelLoop
  | nestedLoop
  | whileLoop
  | assignment (how : Assignment)
  | hooking (event : WidgetEvent)
  | definition (what : Definable)
  | inclusion (origin : Origin)
  | comment
  | exception
  | log (level : LogLevel)
  | evaluation
deriving DecidableEq

/-- The built-in macros under their names, in the case in which they are written for people;
look-ups ignore it. -/
def BuiltinMacro.table : List (String × BuiltinMacro) :=
  [("if", conditional), ("conditional", conditional),
    ("notNull", nullCheck .noneMissing), ("anyNotNull", nullCheck .somePresent),
    ("isNull", nullCheck .someMissing),
    ("loop", repetition), ("forEach", parallelLoop), ("each", parallelLoop),
    ("nestedForEach", nestedLoop), ("while", whileLoop),
    ("assign", assignment .written), ("argument", assignment .resolved),
    ("calculate", assignment .calculated), ("eval", assignment .calculated),
    ("random", assignment .chosen),
    ("onChange", hooking .change), ("onClick", hooking .click), ("onInput", hooking .input),
    ("macro", definition .macroName), ("newTag", definition .tagName),
    ("newAttribute", definition .attributeName),
    ("import", inclusion .application), ("importLocal", inclusion .workingFolder),
    ("importExternal", inclusion .fileSystem), ("importClasspath", inclusion .resources),
    ("comment", comment), ("exception", exception),
    ("logTrace", log .trace), ("logDebug", log .debug), ("logInfo", log .info),
    ("logWarn", log .warn), ("logError", log .error),
    ("evaluate", evaluation)]

end MarkupTemplate
