import MarkupTemplate.Markers
import MarkupTemplate.Text.Blank
import MarkupTemplate.Text.LetterCase

/-!
# Recognising tags of one name

To find where a tag ends that was just opened, the text ahead is searched for tags of the same
name, without reading the rest of it. A pattern recognises their opening and closing tags in the
text behind a tag marker. Both functions return the text behind the recognised tag, which
`isSuffix_of_afterClosing?` and `isSuffix_of_opening?` call a suffix of the one in front.
-/

set_option autoImplicit false

namespace MarkupTemplate

/-- The tags of one name. A pattern is all that is known of a tag while the text ahead is searched
for its end. -/
structure TagPattern where
  name : Text
  /-- Whether the name follows a macro mark. -/
  isMacro : Bool
  /-- Whether letter case counts. -/
  strict : Bool
deriving DecidableEq

namespace TagPattern

/-- Whether two characters count as the same one. Where case does not count it is the lower-case
forms that are compared, of all letters and not just of ASCII ones. -/
def sameLetter (strict : Bool) (c d : Char) : Bool :=
  if strict then c == d else lowerCase c == lowerCase d

/-- The text behind a name. -/
def afterLetters? (strict : Bool) : Text → Text → Option Text
  | [], t => some t
  | _ :: _, [] => none
  | expected :: name, c :: t =>
    if sameLetter strict c expected then afterLetters? strict name t else none

/-- The text behind the name, and its macro mark if it has one. -/
def afterName? (p : TagPattern) (m : Markers) (t : Text) : Option Text :=
  if p.isMacro then (Text.dropFirst? m.macroMark t).bind (afterLetters? p.strict p.name)
  else afterLetters? p.strict p.name t

/-- The text behind a closing tag. Blanks may stand in front of the marker that ends it, and nothing
else. -/
def afterClosing? (p : TagPattern) (m : Markers) (t : Text) : Option Text :=
  match (Text.dropFirst? m.closedMark t).bind (p.afterName? m) with
  | some t => Text.dropFirst? m.tagClosing (Text.trimLeft t)
  | none => none

/-- The text behind the marker that ends a tag, and whether the tag closes itself. `last` is the
last character of the tag so far that is not blank. Only quotes protect a marker here; placeholders
and comments do not. -/
def endOfTag? (m : Markers) : Option Char → Option Char → Text → Option (Bool × Text)
  | _, _, [] => none
  | some q, last, c :: t =>
    endOfTag? m (if c = q then none else some q) (if isBlank c then last else some c) t
  | none, last, c :: t =>
    if isQuote c then endOfTag? m (some c) (some c) t
    else if c = m.tagClosing then some (last == some m.closedMark, t)
    else endOfTag? m none (if isBlank c then last else some c) t

/-- Whether a character ends the name of a tag, so that a longer name is not taken for this one. -/
def endsName (m : Markers) (c : Char) : Bool :=
  isBlank c || c == m.closedMark || c == m.tagClosing

/-- The text behind an opening tag, and whether the tag closes itself. -/
def opening? (p : TagPattern) (m : Markers) (t : Text) : Option (Bool × Text) :=
  match p.afterName? m t with
  | some t => if t.head?.any (endsName m) then endOfTag? m none none t else none
  | none => none

/-! ## What is recognised is a part of the text

No character is made up or skipped backwards. This is what bounds the recursions through these
functions, and lets a reader be moved by a difference of lengths. -/

theorem isSuffix_of_dropFirst? {c : Char} {t rest : Text} (h : Text.dropFirst? c t = some rest) :
    rest <:+ t :=
  Text.dropFirst?_eq_some_iff.1 h ▸ List.suffix_cons c rest

theorem isSuffix_of_afterLetters? {strict : Bool} {name t rest : Text}
    (h : afterLetters? strict name t = some rest) : rest <:+ t := by
  fun_induction afterLetters? strict name t with
  | case1 => exact Option.some.inj h ▸ List.suffix_rfl
  | case2 => simp at h
  | case3 _ _ c t _ ih => exact (ih h).trans (List.suffix_cons c t)
  | case4 => simp at h

theorem isSuffix_of_afterName? {p : TagPattern} {m : Markers} {t rest : Text}
    (h : p.afterName? m t = some rest) : rest <:+ t := by
  unfold afterName? at h
  split at h
  · obtain ⟨u, hu, hr⟩ := Option.bind_eq_some_iff.1 h
    exact (isSuffix_of_afterLetters? hr).trans (isSuffix_of_dropFirst? hu)
  · exact isSuffix_of_afterLetters? h

theorem isSuffix_of_afterClosing? {p : TagPattern} {m : Markers} {t rest : Text}
    (h : p.afterClosing? m t = some rest) : rest <:+ t := by
  unfold afterClosing? at h
  split at h
  · next u hu =>
    obtain ⟨v, hv, hn⟩ := Option.bind_eq_some_iff.1 hu
    exact (isSuffix_of_dropFirst? h).trans ((List.dropWhile_suffix _).trans
      ((isSuffix_of_afterName? hn).trans (isSuffix_of_dropFirst? hv)))
  · simp at h

theorem isSuffix_of_endOfTag? {m : Markers} {quote last : Option Char} {t rest : Text}
    {closed : Bool} (h : endOfTag? m quote last t = some (closed, rest)) : rest <:+ t := by
  fun_induction endOfTag? m quote last t with
  | case1 => simp at h
  | case2 _ _ c t ih => exact (ih h).trans (List.suffix_cons c t)
  | case3 _ c t _ ih => exact (ih h).trans (List.suffix_cons c t)
  | case4 _ t =>
    obtain ⟨_, rfl⟩ := Prod.mk.inj (Option.some.inj h)
    exact List.suffix_cons _ _
  | case5 _ c t _ _ ih => exact (ih h).trans (List.suffix_cons c t)

theorem isSuffix_of_opening? {p : TagPattern} {m : Markers} {t rest : Text} {closed : Bool}
    (h : p.opening? m t = some (closed, rest)) : rest <:+ t := by
  unfold opening? at h
  split at h
  · next u hu =>
    split at h
    · exact (isSuffix_of_endOfTag? h).trans (isSuffix_of_afterName? hu)
    · simp at h
  · simp at h

end TagPattern

end MarkupTemplate
