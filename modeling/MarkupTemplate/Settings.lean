import MarkupTemplate.Json.Parser
import MarkupTemplate.Markers

/-!
# Settings

What a parser is set to: whether anomalies are errors, whether comments nest, and which markers its
templates use. Settings are written in JSON.

A template cannot change any of them. So everything that is read in one parse is read with the same
settings.
-/

set_option autoImplicit false

namespace MarkupTemplate

/-- How a parser reads templates. -/
structure Settings where
  /-- Anomalies in templates are errors; otherwise they are passed over. -/
  strict : Bool := true
  /-- A comment inside a comment is part of it; otherwise the first end sign ends both. -/
  nestedComments : Bool := true
  markers : Markers := {}
deriving DecidableEq, Inhabited

namespace Settings

open Json.Field in
def fields : List (Json.Field Settings) :=
  [ofBool "strict" strict fun b s => { s with strict := b },
    ofBool "nested_comments" nestedComments fun b s => { s with nestedComments := b },
    { key := "syntax".toList
      write := fun s => s.markers.toJson
      read := fun j s => (Markers.ofJson? j).map fun m => { s with markers := m } }]

def ofJson? : Json → Option Settings := Json.Field.readRecord fields {}

def toJson : Settings → Json := Json.Field.writeRecord fields

end Settings

end MarkupTemplate
