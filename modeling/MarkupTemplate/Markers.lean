import MarkupTemplate.Json.Record
import MarkupTemplate.Text.LetterCase

/-!
# Markers

The characters that templates give a meaning to. Nothing else in the library names one of them, so
a template for another set of markers only needs another table. From the markers follow the longer
signs: where a comment begins and ends, a placeholder, the tag between the branches of a
conditional.

`substituteM` replaces placeholders in a single pass: what is put in is not looked at again.
-/

set_option autoImplicit false

namespace MarkupTemplate

/-- The characters and words with a meaning in templates. -/
structure Markers where
  tagOpening : Char := '<'
  tagClosing : Char := '>'
  closedMark : Char := '/'
  commentOpening : Char := '!'
  commentClosing : Char := '-'
  macroMark : Char := ':'
  argumentOpening : Char := '{'
  argumentClosing : Char := '}'
  equationMark : Char := '='
  conditionMark : Char := '?'
  ternaryMark : Char := ':'
  arraySeparator : Char := ';'
  rangeOpening : Char := '['
  rangeSeparator : Char := ','
  rangeClosing : Char := ']'
  idSeparator : Char := '.'
  actionMark : Char := '$'
  lineMark : Char := '@'
  preferenceMark : Char := '#'
  attributeSeparator : Char := '='
  /-- The last part of the name of the tag between the branches of a conditional. -/
  elseSuffix : Text := "else".toList
  /-- The last part of the name under which a loop counts its iterations. -/
  indexSuffix : Text := "index".toList
deriving DecidableEq, Inhabited

def nullText : Text := "null".toList

def isQuote (c : Char) : Bool := c == '"' || c == '\''

namespace Markers

/-! ## Markers in JSON

One table for both directions, so that a marker cannot be read under one name and written under
another. -/

open Json.Field in
def fields : List (Json.Field Markers) :=
  [ofChar "tag_opening" tagOpening fun c m => { m with tagOpening := c },
    ofChar "tag_closing" tagClosing fun c m => { m with tagClosing := c },
    ofChar "closed_tag_marker" closedMark fun c m => { m with closedMark := c },
    ofChar "comment_opening" commentOpening fun c m => { m with commentOpening := c },
    ofChar "comment_closing" commentClosing fun c m => { m with commentClosing := c },
    ofChar "macro_marker" macroMark fun c m => { m with macroMark := c },
    ofChar "argument_opening" argumentOpening fun c m => { m with argumentOpening := c },
    ofChar "argument_closing" argumentClosing fun c m => { m with argumentClosing := c },
    ofChar "equation_marker" equationMark fun c m => { m with equationMark := c },
    ofChar "condition_marker" conditionMark fun c m => { m with conditionMark := c },
    ofChar "ternary_marker" ternaryMark fun c m => { m with ternaryMark := c },
    ofChar "array_separator" arraySeparator fun c m => { m with arraySeparator := c },
    ofChar "range_opening" rangeOpening fun c m => { m with rangeOpening := c },
    ofChar "range_separator" rangeSeparator fun c m => { m with rangeSeparator := c },
    ofChar "range_closing" rangeClosing fun c m => { m with rangeClosing := c },
    ofChar "id_separator" idSeparator fun c m => { m with idSeparator := c },
    ofChar "action_marker" actionMark fun c m => { m with actionMark := c },
    ofChar "bundle_line_marker" lineMark fun c m => { m with lineMark := c },
    ofChar "preference_marker" preferenceMark fun c m => { m with preferenceMark := c },
    ofChar "attribute_separator" attributeSeparator fun c m => { m with attributeSeparator := c },
    ofText "else_suffix" elseSuffix fun t m => { m with elseSuffix := t },
    ofText "index_suffix" indexSuffix fun t m => { m with indexSuffix := t }]

def ofJson? : Json → Option Markers := Json.Field.readRecord fields {}

def toJson : Markers → Json := Json.Field.writeRecord fields

/-! ## Longer signs

Signs of several characters are put together from single markers, and follow the table when a marker
changes. -/

/-- The sign in front of a remark. -/
def commentStart (m : Markers) : Text :=
  [m.tagOpening, m.commentOpening, m.commentClosing, m.commentClosing]

def commentEnd (m : Markers) : Text := [m.commentClosing, m.commentClosing, m.tagClosing]

def placeholder (m : Markers) (name : Text) : Text :=
  m.argumentOpening :: name ++ [m.argumentClosing]

/-- The name under which a loop counts its iterations. -/
def indexName (m : Markers) (loop : Text) : Text := loop ++ m.macroMark :: m.indexSuffix

def indexPlaceholder (m : Markers) (loop : Text) : Text := m.placeholder (m.indexName loop)

def elseName (m : Markers) (conditional : Text) : Text :=
  conditional ++ m.macroMark :: m.elseSuffix

/-- The tag between the branches of a conditional, as a template would write it. -/
def elseTag (m : Markers) (conditional : Text) : Text :=
  m.tagOpening :: m.macroMark :: m.elseName conditional ++ [m.closedMark, m.tagClosing]

/-- How the text that a macro produces is called where positions are reported: the name with the
marks in front, as it would stand in a template. -/
def macroTitle (m : Markers) (name : Text) : Text := m.tagOpening :: m.macroMark :: name

/-! ## Substitution

Definitions, loops and inclusions all replace placeholders by this. Only plain names are replaced:
what resolves placeholders in earnest, with what is inside them, is the engine. -/

/-- The name of a placeholder whose opening marker was just read, and the text behind it: the
characters up to the first closing marker, if no opening marker is among them. With one among them
the placeholder has others inside, and is left for later; the ones inside are candidates
themselves. -/
def candidate? (m : Markers) (t : Text) : Option (Text × Text) :=
  match Text.splitFirst? m.argumentClosing t with
  | some (name, rest) => if m.argumentOpening ∈ name then none else some (name, rest)
  | none => none

theorem eq_of_candidate? {m : Markers} {t name rest : Text}
    (h : m.candidate? t = some (name, rest)) :
    t = name ++ m.argumentClosing :: rest ∧ m.argumentOpening ∉ name ∧
      m.argumentClosing ∉ name := by
  unfold candidate? at h
  split at h
  · next n r hs =>
    split at h
    · exact absurd h (by simp)
    · next hm =>
      obtain ⟨rfl, rfl⟩ : n = name ∧ r = rest := by simpa using h
      exact ⟨(Text.eq_of_splitFirst? hs).1, hm, (Text.eq_of_splitFirst? hs).2⟩
  · exact absurd h (by simp)

theorem length_lt_of_candidate? {m : Markers} {t name rest : Text}
    (h : m.candidate? t = some (name, rest)) : rest.length < t.length := by
  rw [(eq_of_candidate? h).1]
  simp only [List.length_append, List.length_cons]
  omega

/-- Replaces every placeholder for which the look-up has an answer by that answer. A placeholder
without an answer is left as it is, and answers are not searched for placeholders. The look-up may
be a computation; it is asked once for each candidate, from left to right. -/
def substituteM {μ : Type → Type} [Monad μ] (m : Markers) (lookup : Text → μ (Option Text)) :
    Text → μ Text
  | [] => pure []
  | c :: t =>
    if c = m.argumentOpening then
      match _h : m.candidate? t with
      | some (name, rest) => do
        match ← lookup name with
        | some value => return value ++ (← substituteM m lookup rest)
        | none => return c :: (← substituteM m lookup t)
      | none => return c :: (← substituteM m lookup t)
    else return c :: (← substituteM m lookup t)
termination_by t => t.length
decreasing_by
  · exact Nat.lt_succ_of_lt (length_lt_of_candidate? _h)
  all_goals exact Nat.lt_succ_self _

/-- The replacement with a look-up that only looks. -/
def substitute (m : Markers) (lookup : Text → Option Text) (t : Text) : Text :=
  Id.run (m.substituteM (fun name => pure (lookup name)) t)

end Markers

end MarkupTemplate
