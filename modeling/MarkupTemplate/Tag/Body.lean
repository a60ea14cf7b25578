import MarkupTemplate.Tag.Pattern

/-!
# Bodies

The body of a macro is the text from its opening tag to the closing tag that belongs to it, taken
as it is. Tags of the same name inside the body have to be closed before it ends, except those that
close themselves; all other markup is just text here.

A conditional cuts its body in two at the tag between its branches. The same count keeps a tag that
belongs to a conditional inside the body from being taken for its own.
-/

set_option autoImplicit false

namespace MarkupTemplate

namespace TagPattern

/-- Whether an opening tag, given from behind its marker, has to be closed later. A text that is no
opening tag of the name has not. -/
def opensBody (p : TagPattern) (m : Markers) (t : Text) : Bool :=
  match p.opening? m t with
  | some (closed, _) => !closed
  | none => false

/-- A body, and the text behind its closing tag. `depth` counts the tags of the name that are open
inside the body. After an opening tag the search goes on inside it, so a tag in one of its values
counts too; nothing in a body has been read yet. -/
def takeBody (p : TagPattern) (m : Markers) : Nat → Text → Option (Text × Text)
  | _, [] => none
  | depth, c :: t =>
    if c = m.tagOpening then
      match p.afterClosing? m t with
      | some rest =>
        match depth with
        | 0 => some ([], rest)
        | depth + 1 => (takeBody p m depth t).map (Prod.map (c :: ·) id)
      | none =>
        (takeBody p m (if p.opensBody m t then depth + 1 else depth) t).map (Prod.map (c :: ·) id)
    else (takeBody p m depth t).map (Prod.map (c :: ·) id)

/-- The parts of a body before and after the tag that `separator` recognises, if such a tag closes
itself and is not inside another tag of the name. -/
def splitBranches? (p separator : TagPattern) (m : Markers) : Nat → Text → Option (Text × Text)
  | _, [] => none
  | depth, c :: t =>
    if c = m.tagOpening then
      if (p.afterClosing? m t).isSome then
        (splitBranches? p separator m (depth - 1) t).map (Prod.map (c :: ·) id)
      else
        match separator.opening? m t with
        | some (true, rest) =>
          if depth = 0 then some ([], rest)
          else (splitBranches? p separator m depth t).map (Prod.map (c :: ·) id)
        | _ =>
          (splitBranches? p separator m (if p.opensBody m t then depth + 1 else depth) t).map
            (Prod.map (c :: ·) id)
    else (splitBranches? p separator m depth t).map (Prod.map (c :: ·) id)

end TagPattern

/-- The branches of the body of a conditional: what it stands for if the condition holds, and if it
does not. Only the first tag between branches cuts; a second one is text of the second branch. -/
def branches (m : Markers) (strict : Bool) (conditional body : Text) : Text × Option Text :=
  let own : TagPattern := ⟨conditional, true, strict⟩
  let separator : TagPattern := ⟨m.elseName conditional, true, strict⟩
  match own.splitBranches? separator m 0 body with
  | some (onTrue, onFalse) => (onTrue, some onFalse)
  | none => (body, none)

end MarkupTemplate
