import MarkupTemplate.Dictionary
import MarkupTemplate.Error.Fault

/-!
# Where templates are imported from

What imports read is up to the host, which supplies a **source**: a function that answers with the
text of a template or with the reason why there is none. Nothing is assumed about a source but that
it answers the same question in the same way throughout, and that its refusals are told as failed
imports.

Two sources come with the language. `memory` is a table of templates, in which all places are one.
`files` reads files, with one folder for the templates of the application and one for its resources;
what is in the files is for the host to say.
-/

set_option autoImplicit false

namespace MarkupTemplate

/-- The place that an import refers to. -/
inductive Origin where
  /-- The folder of the application. -/
  | application
  /-- The working folder. -/
  | workingFolder
  /-- Anywhere, by an absolute path. -/
  | fileSystem
  /-- The folder of the application's resources. -/
  | resources
deriving DecidableEq

/-- What imports read: the template at a path of a place, or the reason why there is none. It is a
function and no computation: reading a template a second time gives the same text. -/
structure Source where
  answer : Origin → Text → Except Text Text

/-! ## Paths

Only as much of paths as decides which file is meant. A path is not cleaned up: going up and down
again is left to the file system. -/

namespace Path

def isAbsolute (path : Text) : Bool := path.head? == some '/'

/-- A path as seen from a folder. An absolute path leads to the same place from everywhere, so no
folder can hold a template in. -/
def below (folder path : Text) : Text :=
  if isAbsolute path || folder.isEmpty then path
  else if folder.getLast? = some '/' then folder ++ path
  else folder ++ '/' :: path

end Path

namespace Source

/-- The text at a path. Where a source has none the import fails, for the reason of the source and
with the path in the message. -/
def read (s : Source) (origin : Origin) (path : Text) : Except Fault Text :=
  (s.answer origin path).mapError (Fault.importFailed path)

/-- Templates in a table. All four places are the same one, so a template cannot tell where it was
imported from. -/
def memory (templates : List (Text × Text)) : Source where
  answer _ path := match Dictionary.lookup path templates with
    | some text => .ok text
    | none => .error "no such template".toList

/-- Files, given what is at each path of the file system. Paths of the application and of its
resources are seen from their folders, and the other ones are taken as they are; one that is meant
to lead anywhere has to be absolute. -/
def files (file : Text → Except Text Text) (applicationFolder resourceFolder : Text) : Source where
  answer origin path := match origin with
    | .application => file (Path.below applicationFolder path)
    | .resources => file (Path.below resourceFolder path)
    | .workingFolder => file path
    | .fileSystem =>
      if Path.isAbsolute path then file path
      else .error "external imports need an absolute path".toList

/-- The answer of a file system to a path at which there is nothing. -/
def missingFile : Text := "No such file or directory (os error 2)".toList

end Source

end MarkupTemplate
