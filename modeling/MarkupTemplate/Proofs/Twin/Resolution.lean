import MarkupTemplate.Builtin.Basic
import MarkupTemplate.Proofs.Twin.Basic

/-!
# Values on twins

Placeholders, equations, numbers, truth values and arrays are looked up on a twin as on the machine:
no value depends on the reader, and of the strictness only whether an anomaly is passed over. The
proofs follow the functions. Those that take the meaning of inner placeholders as a parameter mirror
each other if their parameters do, and `mirrors_expand` puts this together by induction on the fuel,
of which the twin may have more.
-/

set_option autoImplicit false

namespace MarkupTemplate

namespace Engine

variable {lax : Bool}

/-! ## Equations

Only looking up the values of an equation can touch the machine. What is done with the operands
afterwards is an outcome that is the same on both sides. -/

mutual

/-- The elements of tokens, by recursion on the tokens as the definition goes. `resolve` is the
parameter that may differ, by its fuel. -/
theorem mirrors_element {resolve resolve' : Text → Engine Text} (t : OperatorTable)
    (h : ∀ raw, Mirrors lax (resolve raw) (resolve' raw)) :
    (token : EquationToken) → Mirrors lax (token.element t resolve) (token.element t resolve')
  | .word w => (h w).bind fun _ => mirrors_pure _
  | .quoted _ => mirrors_pure _
  | .operator _ => mirrors_pure _
  | .group _ tokens =>
    (mirrors_elements t h tokens).bind fun _ =>
      (mirrors_ofOutcome _).bind fun _ => mirrors_pure _
  | .fault e => mirrors_fail e

theorem mirrors_elements {resolve resolve' : Text → Engine Text} (t : OperatorTable)
    (h : ∀ raw, Mirrors lax (resolve raw) (resolve' raw)) : (tokens : List EquationToken) →
      Mirrors lax (EquationToken.elements t resolve tokens)
        (EquationToken.elements t resolve' tokens)
  | [] => mirrors_pure _
  | token :: tokens =>
    (mirrors_element t h token).bind fun _ =>
      (mirrors_elements t h tokens).bind fun _ => mirrors_pure _

end

/-- An equation is mirrored if looking up its values is. -/
theorem mirrors_evaluate {resolve resolve' : Text → Engine Text}
    (h : ∀ t, Mirrors lax (resolve t) (resolve' t)) (f : EquationFormat) (equation : Text) :
    Mirrors lax (evaluate f resolve equation) (evaluate f resolve' equation) :=
  (mirrors_elements f.operators h _).bind fun _ => mirrors_ofOutcome _

/-! ## Placeholders

One lemma for each of the functions that say what a placeholder means. The hypothesis `h` is what
the induction in `mirrors_expand` will supply; up to there no fuel is mentioned. -/

/-- An action is called with the same argument and has been called as often, so its answer is the
same. An unknown one is an anomaly. -/
theorem mirrors_invoke (name : Text) (argument : Option Text) :
    Mirrors lax (invoke name argument) (invoke name argument) := by
  refine mirrors_markers.bind fun m => mirrors_get_bind fun machine r _ => ?_
  dsimp only [Machine.twin]
  split
  · exact (mirrors_note _).bind fun _ => (mirrors_modifyRegistry _).bind fun _ =>
      mirrors_ofOutcome _
  · exact (mirrors_failIfStrict _).bind fun _ => mirrors_pure _

/-- Lines are looked up in the environment, which twins share. So are preferences. -/
theorem mirrors_bundleLine (reference : Text) :
    Mirrors lax (referred (fun p => p.environment.bundles) reference)
      (referred (fun p => p.environment.bundles) reference) :=
  mirrors_parser_bind fun _ _ _ => mirrors_pure _

theorem mirrors_preference (reference : Text) :
    Mirrors lax (referred (fun p => p.environment.preferences) reference)
      (referred (fun p => p.environment.preferences) reference) :=
  mirrors_parser_bind fun _ _ _ => mirrors_pure _

section

variable {expanded expanded' : Text → Engine Text}
  (h : ∀ t, Mirrors lax (expanded t) (expanded' t))

include h

/-- A value is what its first character says: the four cases are those of the definition, and only
the last one needs `h`. -/
theorem mirrors_stringBy (raw : Text) :
    Mirrors lax (stringBy expanded raw) (stringBy expanded' raw) := by
  refine mirrors_markers.bind fun m => ?_
  dsimp only
  split
  · exact (mirrors_invoke _ _).bind fun _ => mirrors_pure _
  · exact mirrors_bundleLine _
  · exact mirrors_preference _
  · exact h raw

/-- A value of an equation that is not looked up is the same on both sides by itself. -/
theorem mirrors_operandBy (raw : Text) :
    Mirrors lax (operandBy expanded raw) (operandBy expanded' raw) := by
  refine mirrors_markers.bind fun m => ?_
  split
  · exact mirrors_stringBy h raw
  · exact mirrors_pure _

/-- The operators are part of the parser, and are the same ones. -/
theorem mirrors_equationBy (equation : Text) :
    Mirrors lax (equationBy expanded equation) (equationBy expanded' equation) :=
  mirrors_parser_bind fun _ _ _ => mirrors_evaluate (mirrors_operandBy h) _ _

/-- Both sides choose the same text, since the condition has come to the same operand. -/
theorem mirrors_choiceBy (t : Text) :
    Mirrors lax (choiceBy expanded t) (choiceBy expanded' t) := by
  refine mirrors_markers.bind fun m => ?_
  split
  · exact (mirrors_equationBy h _).bind fun _ => mirrors_pure _
  · exact (mirrors_equationBy h _).bind fun _ => mirrors_pure _

/-- The text that a placeholder stands for, by the mark in front of its name. -/
theorem mirrors_placeholderBy (raw : Text) :
    Mirrors lax (placeholderBy expanded raw) (placeholderBy expanded' raw) := by
  refine mirrors_parser_bind fun p r _ => ?_
  dsimp only [Parser.twin]
  split
  · exact (mirrors_equationBy h _).bind fun _ => mirrors_pure _
  · exact mirrors_choiceBy h _
  · split
    · exact mirrors_stringBy h _
    · exact mirrors_pure _

/-- The pieces of a text one after another. A placeholder takes two steps, its meaning and then what
is in that, and `h` is for the second one. -/
theorem mirrors_piecesBy (pieces : List Piece) :
    Mirrors lax (piecesBy expanded pieces) (piecesBy expanded' pieces) := by
  induction pieces with
  | nil => exact mirrors_pure _
  | cons piece pieces ih =>
    cases piece with
    | plain c => exact ih.bind fun _ => mirrors_pure _
    | placeholder raw =>
      exact (mirrors_placeholderBy h raw).bind fun _ => (h _).bind fun _ =>
        ih.bind fun _ => mirrors_pure _
    | unclosed raw => exact mirrors_fail _

end

section

variable {fuel fuel' : Nat} (hle : fuel ≤ fuel')

include hle

/-- **Resolving a text is mirrored with any larger amount of fuel.** The induction is on the fuel of
the machine; the twin has one unit left wherever the machine has one, and where the machine has none
nothing is asked of the twin. -/
theorem mirrors_expand (t : Text) : Mirrors lax (expand fuel t) (expand fuel' t) := by
  induction fuel generalizing fuel' t with
  | zero => exact mirrors_exhausted
  | succ fuel ih =>
    -- The twin has some fuel as well, and goes into the same recursion with what is left of it.
    obtain ⟨more, rfl⟩ : ∃ more, fuel' = more + 1 := ⟨fuel' - 1, by omega⟩
    refine mirrors_markers.bind fun m => ?_
    split
    · exact mirrors_piecesBy (ih (Nat.le_of_succ_le_succ hle)) _
    · exact mirrors_pure _

/-- The text of a value. From here on the functions are those that macros call, and each is put
together from the ones above. -/
theorem mirrors_string (raw : Text) : Mirrors lax (string fuel raw) (string fuel' raw) :=
  mirrors_stringBy (mirrors_expand hle) raw

theorem mirrors_placeholder (raw : Text) :
    Mirrors lax (placeholder fuel raw) (placeholder fuel' raw) :=
  mirrors_placeholderBy (mirrors_expand hle) raw

/-- A condition holds on both sides or on neither. -/
theorem mirrors_holds (equation : Text) :
    Mirrors lax (holds fuel equation) (holds fuel' equation) :=
  (mirrors_equationBy (mirrors_expand hle) equation).bind fun _ => mirrors_pure _

theorem mirrors_calculate (equation : Text) :
    Mirrors lax (calculate fuel equation) (calculate fuel' equation) :=
  (mirrors_equationBy (mirrors_expand hle) equation).bind fun _ => mirrors_pure _

/-! ## Numbers, truth values and arrays

A value that is read as a number or a truth value fails for its text, which is the same on both
sides. Only a truth value can be an anomaly; a lax twin then takes it for false. -/

theorem mirrors_int (raw : Text) : Mirrors lax (int fuel raw) (int fuel' raw) := by
  refine (mirrors_string hle raw).bind fun t => ?_
  split
  · exact mirrors_pure _
  · exact mirrors_fail _

theorem mirrors_float (raw : Text) : Mirrors lax (float fuel raw) (float fuel' raw) := by
  refine (mirrors_string hle raw).bind fun t => ?_
  split
  · exact mirrors_pure _
  · exact mirrors_fail _

/-- The strictness is looked at where the text is no truth value, by way of `failIfStrict`, so
nothing has to be known about it here. -/
theorem mirrors_boolean (raw : Text) : Mirrors lax (boolean fuel raw) (boolean fuel' raw) := by
  refine (mirrors_string hle raw).bind fun t => ?_
  dsimp only
  split
  · exact mirrors_pure _
  · split
    · exact (mirrors_failIfStrict _).bind fun _ => mirrors_pure _
    · exact mirrors_pure _

theorem mirrors_isMissing (raw : Text) :
    Mirrors lax (isMissing fuel raw) (isMissing fuel' raw) := by
  refine mirrors_markers.bind fun m => ?_
  dsimp only
  split
  · exact (mirrors_invoke _ _).bind fun _ => mirrors_pure _
  · exact (mirrors_string hle _).bind fun _ => mirrors_pure _

/-- The bounds are the same integers on both sides, and so is the number of texts that the array has
already. So either both have room for the range or neither has. -/
theorem mirrors_range (held : Nat) (element inner : Text) :
    Mirrors lax (range fuel held element inner) (range fuel' held element inner) := by
  refine mirrors_markers.bind fun m => ?_
  split
  · exact mirrors_fail _
  · refine ((mirrors_int hle _).failingAs _).bind fun _ =>
      ((mirrors_int hle _).failingAs _).bind fun _ => ?_
    dsimp only
    split
    · exact mirrors_overflow.bind fun _ => mirrors_pure _
    · exact mirrors_pure _

/-- An element is a range, an action or a text on both sides alike, since that hangs on its
characters. -/
theorem mirrors_arrayElement (held : Nat) (element : Text) :
    Mirrors lax (arrayElement fuel held element) (arrayElement fuel' held element) := by
  refine mirrors_markers.bind fun m => ?_
  split
  · exact mirrors_range hle held _ _
  · exact (mirrors_invoke _ _).bind fun _ => mirrors_pure _
  · exact (mirrors_string hle _).bind fun _ => mirrors_pure _

/-- The elements in order, with the number of texts so far handed on: it is the length of a list
that is the same on both sides. -/
theorem mirrors_arrayElements (held : Nat) (parts : List Text) :
    Mirrors lax (arrayElements fuel held parts) (arrayElements fuel' held parts) := by
  induction parts generalizing held with
  | nil => exact mirrors_pure _
  | cons part parts ih =>
    exact (mirrors_arrayElement hle held _).bind fun _ => (ih _).bind fun _ => mirrors_pure _

/-- An array is mirrored as a whole. It is cut by the markers, which twins share. -/
theorem mirrors_array (raw : Text) : Mirrors lax (array fuel raw) (array fuel' raw) := by
  refine mirrors_markers.bind fun m => ?_
  split
  · exact mirrors_pure _
  · exact mirrors_arrayElements hle 0 _

end

end Engine

end MarkupTemplate
