import MarkupTemplate.Builtin.Basic
import MarkupTemplate.Proofs.Audience.Basic

/-!
# Resolving in front of an audience

Placeholders, equations and the values of attributes are looked up in the parser and in the
registry, and the host gets a notice of each action that is called. The audience has no part in
this, so these computations are oblivious. `oblivious_expand` is by induction on the fuel; the
functions in front of it take the meaning of inner placeholders as a parameter, and are oblivious if
that is.
-/

set_option autoImplicit false

namespace MarkupTemplate

namespace Engine

/-! ## Equations

What an equation looks up, it looks up by `resolve`; all the rest is done on elements, without the
machine. -/

section

variable {resolve : Text → Engine Text}

mutual

/-- The elements of tokens, by recursion on the tokens. The fault of a token is raised as any
other. -/
theorem oblivious_element (table : OperatorTable) (h : ∀ t, Oblivious (resolve t)) :
    (token : EquationToken) → Oblivious (token.element table resolve)
  | .word w => (h w).bind fun _ => oblivious_pure _
  | .quoted _ => oblivious_pure _
  | .operator _ => oblivious_pure _
  | .group _ tokens =>
    (oblivious_elements table h tokens).bind fun _ =>
      (oblivious_ofOutcome _).bind fun _ => oblivious_pure _
  | .fault f => oblivious_fail f

theorem oblivious_elements (table : OperatorTable) (h : ∀ t, Oblivious (resolve t)) :
    (tokens : List EquationToken) → Oblivious (EquationToken.elements table resolve tokens)
  | [] => oblivious_pure _
  | token :: tokens =>
    (oblivious_element table h token).bind fun _ =>
      (oblivious_elements table h tokens).bind fun _ => oblivious_pure _

end

/-- An equation is oblivious if looking up its values is. -/
theorem oblivious_evaluate (h : ∀ t, Oblivious (resolve t)) (f : EquationFormat)
    (equation : Text) : Oblivious (evaluate f resolve equation) :=
  (oblivious_elements f.operators h _).bind fun _ => oblivious_ofOutcome _

end

/-! ## Placeholders

The functions that say what a placeholder means, in the order of their definition. `h` is that
resolving inner placeholders is oblivious, which `oblivious_expand` supplies with less fuel. -/

/-- An action is called in front of nobody but the host, who gets a notice. -/
theorem oblivious_invoke (name : Text) (argument : Option Text) :
    Oblivious (invoke name argument) := by
  refine oblivious_markers.bind fun m => oblivious_get_bind (fun _ _ => rfl) fun machine => ?_
  split
  · exact (oblivious_note rfl).bind fun _ => (oblivious_modifyRegistry _).bind fun _ =>
      oblivious_ofOutcome _
  · exact (oblivious_failIfStrict _).bind fun _ => oblivious_pure _

/-- Lines and preferences are looked up in the environment, which is no part of the audience. -/
theorem oblivious_referred (groups : Environment → Dictionary (Dictionary Text))
    (reference : Text) : Oblivious (referred (fun p => groups p.environment) reference) :=
  oblivious_parser_bind (fun _ _ => rfl) fun _ => oblivious_pure _

section

variable {expanded : Text → Engine Text} (h : ∀ t, Oblivious (expanded t))

include h

/-- A value by its first character: an action, a line, a preference, or a text to be resolved. -/
theorem oblivious_stringBy (raw : Text) : Oblivious (stringBy expanded raw) := by
  refine oblivious_markers.bind fun m => ?_
  dsimp only
  split
  · exact (oblivious_invoke _ _).bind fun _ => oblivious_pure _
  · exact oblivious_referred Environment.bundles _
  · exact oblivious_referred Environment.preferences _
  · exact h raw

/-- A value of an equation, which is looked up only if it has a mark or a placeholder in it. -/
theorem oblivious_operandBy (raw : Text) : Oblivious (operandBy expanded raw) := by
  refine oblivious_markers.bind fun m => ?_
  split
  · exact oblivious_stringBy h raw
  · exact oblivious_pure _

theorem oblivious_equationBy (equation : Text) : Oblivious (equationBy expanded equation) :=
  oblivious_parser_bind (fun _ _ => rfl) fun _ => oblivious_evaluate (oblivious_operandBy h) _ _

/-- The condition is evaluated and one of the texts is taken, without anybody being told. -/
theorem oblivious_choiceBy (t : Text) : Oblivious (choiceBy expanded t) := by
  refine oblivious_markers.bind fun m => ?_
  split
  · exact (oblivious_equationBy h _).bind fun _ => oblivious_pure _
  · exact (oblivious_equationBy h _).bind fun _ => oblivious_pure _

/-- A placeholder by the mark in front of it. The name of an argument is looked up, which changes
nothing at all. -/
theorem oblivious_placeholderBy (raw : Text) : Oblivious (placeholderBy expanded raw) := by
  refine oblivious_parser_bind (fun _ _ => rfl) fun p => ?_
  dsimp only
  split
  · exact (oblivious_equationBy h _).bind fun _ => oblivious_pure _
  · exact oblivious_choiceBy h _
  · split
    · exact oblivious_stringBy h _
    · exact oblivious_pure _

/-- The pieces of a text, by induction on the pieces. -/
theorem oblivious_piecesBy (pieces : List Piece) : Oblivious (piecesBy expanded pieces) := by
  induction pieces with
  | nil => exact oblivious_pure _
  | cons piece pieces ih =>
    cases piece with
    | plain c => exact ih.bind fun _ => oblivious_pure _
    | placeholder raw =>
      exact (oblivious_placeholderBy h raw).bind fun _ => (h _).bind fun _ =>
        ih.bind fun _ => oblivious_pure _
    | unclosed raw => exact oblivious_fail _

end

/-- **Resolving a text is oblivious.** The induction is on the fuel, as the definition goes. -/
theorem oblivious_expand (fuel : Nat) (t : Text) : Oblivious (expand fuel t) := by
  induction fuel generalizing t with
  | zero => exact oblivious_throw _
  | succ fuel ih =>
    refine oblivious_markers.bind fun m => ?_
    split
    · exact oblivious_piecesBy ih _
    · exact oblivious_pure _

variable (fuel : Nat)

theorem oblivious_string (raw : Text) : Oblivious (string fuel raw) :=
  oblivious_stringBy (oblivious_expand fuel) raw

theorem oblivious_placeholder (raw : Text) : Oblivious (placeholder fuel raw) :=
  oblivious_placeholderBy (oblivious_expand fuel) raw

theorem oblivious_holds (equation : Text) : Oblivious (holds fuel equation) :=
  (oblivious_equationBy (oblivious_expand fuel) equation).bind fun _ => oblivious_pure _

theorem oblivious_calculate (equation : Text) : Oblivious (calculate fuel equation) :=
  (oblivious_equationBy (oblivious_expand fuel) equation).bind fun _ => oblivious_pure _

/-! ## Values of attributes

Each of these resolves a value and reads the text of it. Only actions get through to the host, by
notices that are none of a listener. -/

theorem oblivious_int (raw : Text) : Oblivious (int fuel raw) := by
  refine (oblivious_string fuel raw).bind fun t => ?_
  split
  · exact oblivious_pure _
  · exact oblivious_fail _

theorem oblivious_float (raw : Text) : Oblivious (float fuel raw) := by
  refine (oblivious_string fuel raw).bind fun t => ?_
  split
  · exact oblivious_pure _
  · exact oblivious_fail _

theorem oblivious_boolean (raw : Text) : Oblivious (boolean fuel raw) := by
  refine (oblivious_string fuel raw).bind fun t => ?_
  dsimp only
  split
  · exact oblivious_pure _
  · split
    · exact (oblivious_failIfStrict _).bind fun _ => oblivious_pure _
    · exact oblivious_pure _

/-- Whether a value is missing may be asked of an action, which is called for that. -/
theorem oblivious_isMissing (raw : Text) : Oblivious (isMissing fuel raw) := by
  refine oblivious_markers.bind fun m => ?_
  dsimp only
  split
  · exact (oblivious_invoke _ _).bind fun _ => oblivious_pure _
  · exact (oblivious_string fuel _).bind fun _ => oblivious_pure _

/-- A range counts texts, or breaks the run off, and both go by the bounds alone. -/
theorem oblivious_range (held : Nat) (element inner : Text) :
    Oblivious (range fuel held element inner) := by
  refine oblivious_markers.bind fun m => ?_
  split
  · exact oblivious_fail _
  · refine ((oblivious_int fuel _).failingAs _).bind fun _ =>
      ((oblivious_int fuel _).failingAs _).bind fun _ => ?_
    dsimp only
    split
    · exact (oblivious_throw .overflow).bind fun _ => oblivious_pure _
    · exact oblivious_pure _

theorem oblivious_arrayElement (held : Nat) (element : Text) :
    Oblivious (arrayElement fuel held element) := by
  refine oblivious_markers.bind fun m => ?_
  split
  · exact oblivious_range fuel held _ _
  · exact (oblivious_invoke _ _).bind fun _ => oblivious_pure _
  · exact (oblivious_string fuel _).bind fun _ => oblivious_pure _

theorem oblivious_arrayElements (held : Nat) (parts : List Text) :
    Oblivious (arrayElements fuel held parts) := by
  induction parts generalizing held with
  | nil => exact oblivious_pure _
  | cons part parts ih =>
    exact (oblivious_arrayElement fuel held _).bind fun _ => (ih _).bind fun _ => oblivious_pure _

/-- An array, element by element. -/
theorem oblivious_array (raw : Text) : Oblivious (array fuel raw) := by
  refine oblivious_markers.bind fun m => ?_
  split
  · exact oblivious_pure _
  · exact oblivious_arrayElements fuel 0 _

end Engine

end MarkupTemplate
