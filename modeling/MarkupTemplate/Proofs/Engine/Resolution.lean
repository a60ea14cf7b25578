import MarkupTemplate.Builtin.Branching
import MarkupTemplate.Proofs.Engine.Keeping

/-!
# Resolving placeholders

Resolving a placeholder may call actions, which tells the host something and can change what the
registry holds, and look lines and preferences up and evaluate equations, which changes nothing. So
it keeps what a `Resolving` invariant says. There is one lemma for each kind of placeholder and of
value; `expand` is by induction on the fuel. The values of attributes are read by resolving too.

It never touches the parser: the reader stands where it stood, and no argument or setting changes
(`SameParser`).
-/

set_option autoImplicit false

namespace MarkupTemplate

namespace Engine

variable {I : Machine → Prop} {G : Stop → Prop}

/-! ## Equations

Of an equation only the looking up of its values touches the machine. What its operators fail with
is a fault of the table, about which an invariant may have something to say. -/

section

variable {table : OperatorTable} {resolve : Text → Engine Text}

/-- An equation may fail with a fault of its operators. -/
theorem keeps_settle [hI : Resolving I G] (htable : table.Mild ∨ ∀ f, G (.failure { fault := f }))
    {es : List EquationElement} (hes : table.Mild → ∀ e ∈ es, e.Mild) (equation : Text) :
    Keeps I G (ofOutcome (EquationElement.settle table equation es) : Engine Operand) := by
  rcases htable with hmild | hany
  · exact keeps_ofOutcome (EquationElement.mild_settle hmild (hes hmild))
  · exact keeps_outcome fun f _ => hany f

mutual

theorem keeps_element [hI : Resolving I G] (htable : table.Mild ∨ ∀ f, G (.failure { fault := f }))
    (h : ∀ raw, Keeps I G (resolve raw)) :
    (token : EquationToken) → (table.Mild → token.Mild) → Keeps I G (token.element table resolve)
  | .word w, _ => (h w).bind fun _ => keeps_pure _
  | .quoted _, _ => keeps_pure _
  | .operator _, _ => keeps_pure _
  | .group _ tokens, htokens => fun m hm =>
    (keeps_elements htable h tokens htokens m hm).bind fun _ m' hes hm' =>
      ((keeps_settle htable (fun ht => mild_of_elements tokens (htokens ht) hes) _).bind
        fun _ => keeps_pure _) m' hm'
  | .fault f, hf => keeps_failure (htable.elim (fun ht => hI.fault (hf ht)) fun hany => hany f)

theorem keeps_elements [hI : Resolving I G] (htable : table.Mild ∨ ∀ f, G (.failure { fault := f }))
    (h : ∀ raw, Keeps I G (resolve raw)) :
    (tokens : List EquationToken) → (table.Mild → EquationToken.MildAll tokens) →
      Keeps I G (EquationToken.elements table resolve tokens)
  | [], _ => keeps_pure _
  | token :: tokens, htokens =>
    (keeps_element htable h token fun ht => (htokens ht).1).bind fun _ =>
      (keeps_elements htable h tokens fun ht => (htokens ht).2).bind fun _ => keeps_pure _

end

/-- **An equation keeps what its values keep**, if its operators leave the errors alone. -/
theorem keeps_evaluate [hI : Resolving I G] {f : EquationFormat}
    (hf : f.operators.Mild ∨ ∀ f, G (.failure { fault := f })) (h : ∀ raw, Keeps I G (resolve raw))
    (equation : Text) : Keeps I G (evaluate f resolve equation) := by
  have htokens : f.operators.Mild →
      EquationToken.MildAll (EquationToken.tokens f equation) := fun hmild =>
    EquationToken.mildAll_tokensAfter hmild _ _ _ _
  exact fun m hm => (keeps_elements hf h _ htokens m hm).bind fun _ m' hes hm' =>
    keeps_settle hf (fun hmild => mild_of_elements _ (htokens hmild) hes) _ m' hm'

end

/-! ## References and actions

What a name refers to. Only actions change something by being looked up. -/

/-- A line or a preference that is not there is no fault. -/
theorem keeps_referred (groups : Parser → Dictionary (Dictionary Text)) (reference : Text) :
    Keeps I G (referred groups reference) :=
  keeps_currentParser.bind fun _ => keeps_pure _

variable [hI : Resolving I G]

theorem keeps_note (n : Notice) : Keeps I G (note n) :=
  fun _ hm => ⟨hI.notices _ hm, fun _ _ h => by cases h⟩

/-- A call of an action is a notice and a new registry, for which the invariant has its field
`call`. -/
theorem keeps_invoke (name : Text) (argument : Option Text) : Keeps I G (invoke name argument) := by
  refine keeps_markers.bind fun m => keeps_get_bind fun machine hmachine => ?_
  split
  · next call hcall =>
    -- The call is noted in front of it, so it is the call of another machine.
    have hnoted : I { machine with notices := .action call.title argument :: machine.notices } :=
      hI.notices _ hmachine
    obtain ⟨hregistry, hreply⟩ := hI.call hnoted hcall
    exact keeps_outcome hreply _ hregistry
  · exact ((keeps_failIfStrict _).bind fun _ => keeps_pure _) machine hmachine

/-! ## Placeholders

The functions that say what a placeholder means, given that resolving inner placeholders keeps the
invariant. -/

section

variable {expanded : Text → Engine Text} (h : ∀ t, Keeps I G (expanded t))

include h

theorem keeps_stringBy (raw : Text) : Keeps I G (stringBy expanded raw) := by
  refine keeps_markers.bind fun m => ?_
  dsimp only
  split
  · exact (keeps_invoke _ _).bind fun _ => keeps_pure _
  · exact keeps_referred _ _
  · exact keeps_referred _ _
  · exact h raw

theorem keeps_operandBy (raw : Text) : Keeps I G (operandBy expanded raw) := by
  refine keeps_markers.bind fun m => ?_
  split
  · exact keeps_stringBy h raw
  · exact keeps_pure _

theorem keeps_equationBy (equation : Text) : Keeps I G (equationBy expanded equation) :=
  keeps_get_bind fun m hm => keeps_evaluate (hI.operators hm) (keeps_operandBy h) equation m hm

theorem keeps_choiceBy (t : Text) : Keeps I G (choiceBy expanded t) := by
  refine keeps_markers.bind fun m => ?_
  split
  · exact (keeps_equationBy h _).bind fun _ => keeps_pure _
  · exact (keeps_equationBy h _).bind fun _ => keeps_pure _

theorem keeps_placeholderBy (raw : Text) : Keeps I G (placeholderBy expanded raw) := by
  refine keeps_currentParser.bind fun p => ?_
  dsimp only
  split
  · exact (keeps_equationBy h _).bind fun _ => keeps_pure _
  · exact keeps_choiceBy h _
  · split
    · exact keeps_stringBy h _
    · exact keeps_pure _

/-- The pieces of a text, by induction on the pieces. An unclosed one is an error in either mode. -/
theorem keeps_piecesBy (pieces : List Piece) : Keeps I G (piecesBy expanded pieces) := by
  induction pieces with
  | nil => exact keeps_pure _
  | cons piece pieces ih =>
    cases piece with
    | plain c => exact ih.bind fun _ => keeps_pure _
    | placeholder raw =>
      exact (keeps_placeholderBy h raw).bind fun _ => (h _).bind fun _ =>
        ih.bind fun _ => keeps_pure _
    | unclosed raw => exact keeps_fail rfl

end

theorem keeps_expand (fuel : Nat) (t : Text) : Keeps I G (expand fuel t) := by
  induction fuel generalizing t with
  | zero => exact keeps_throw hI.exhausted
  | succ fuel ih =>
    refine keeps_markers.bind fun m => ?_
    split
    · exact keeps_piecesBy ih _
    · exact keeps_pure _

/-- **Resolving a placeholder keeps what a resolving invariant says.** -/
theorem keeps_placeholder (fuel : Nat) (raw : Text) :
    Keeps I G (placeholder fuel raw) := keeps_placeholderBy (keeps_expand fuel) raw

variable {fuel : Nat}

theorem keeps_string (raw : Text) : Keeps I G (string fuel raw) :=
  keeps_stringBy (keeps_expand fuel) raw

theorem keeps_holds (equation : Text) : Keeps I G (holds fuel equation) :=
  (keeps_equationBy (keeps_expand fuel) equation).bind fun _ => keeps_pure _

theorem keeps_calculate (equation : Text) : Keeps I G (calculate fuel equation) :=
  (keeps_equationBy (keeps_expand fuel) equation).bind fun _ => keeps_pure _

/-! ## Values of attributes

Numbers and arrays fail in either mode if they cannot be read; a truth value is an anomaly. -/

theorem keeps_int (raw : Text) : Keeps I G (int fuel raw) := by
  refine (keeps_string raw).bind fun t => ?_
  split
  · exact keeps_pure _
  · exact keeps_fail rfl

theorem keeps_float (raw : Text) : Keeps I G (float fuel raw) := by
  refine (keeps_string raw).bind fun t => ?_
  split
  · exact keeps_pure _
  · exact keeps_fail rfl

theorem keeps_boolean (raw : Text) : Keeps I G (boolean fuel raw) := by
  refine (keeps_string raw).bind fun t => ?_
  dsimp only
  split
  · exact keeps_pure _
  · split
    · exact (keeps_failIfStrict _).bind fun _ => keeps_pure _
    · exact keeps_pure _

theorem keeps_isMissing (raw : Text) : Keeps I G (isMissing fuel raw) := by
  refine keeps_markers.bind fun m => ?_
  dsimp only
  split
  · exact (keeps_invoke _ _).bind fun _ => keeps_pure _
  · exact (keeps_string _).bind fun _ => keeps_pure _

theorem keeps_countMissing (values : List Text) : Keeps I G (countMissing fuel values) := by
  induction values with
  | nil => exact keeps_pure _
  | cons value values ih =>
    exact (keeps_isMissing value).bind fun _ => ih.bind fun _ => keeps_pure _

/-! ## Arrays -/

section

variable {I : Machine → Prop} [hI : Reading I G]

theorem keeps_range (held : Nat) (element inner : Text) :
    Keeps I G (range fuel held element inner) := by
  refine keeps_markers.bind fun m => ?_
  split
  · exact keeps_fail rfl
  · refine ((keeps_int _).failingAs rfl).bind fun _ => ((keeps_int _).failingAs rfl).bind fun _ => ?_
    dsimp only
    split
    · exact (keeps_throw hI.overflow).bind fun _ => keeps_pure _
    · exact keeps_pure _

theorem keeps_arrayElement (held : Nat) (element : Text) :
    Keeps I G (arrayElement fuel held element) := by
  refine keeps_markers.bind fun m => ?_
  split
  · exact keeps_range held _ _
  · exact (keeps_invoke _ _).bind fun _ => keeps_pure _
  · exact (keeps_string _).bind fun _ => keeps_pure _

theorem keeps_arrayElements (held : Nat) (parts : List Text) :
    Keeps I G (arrayElements fuel held parts) := by
  induction parts generalizing held with
  | nil => exact keeps_pure _
  | cons part parts ih =>
    exact (keeps_arrayElement held _).bind fun _ => (ih _).bind fun _ => keeps_pure _

theorem keeps_array (raw : Text) : Keeps I G (array fuel raw) := by
  refine keeps_markers.bind fun m => ?_
  split
  · exact keeps_pure _
  · exact keeps_arrayElements 0 _

end

/-! ## Frames

What resolving leaves alone, for any frame that allows for notices and a new registry. -/

section

variable {R : Machine → Machine → Prop} [hR : ResolvingFrame R]

theorem within_note (n : Notice) : Within R (note n) := fun m => hR.notices m _

theorem within_expand (fuel : Nat) (t : Text) : Within R (expand fuel t) :=
  Keeps.within fun _ => keeps_expand fuel t

theorem within_placeholder (fuel : Nat) (raw : Text) : Within R (placeholder fuel raw) :=
  Keeps.within fun _ => keeps_placeholder fuel raw

theorem within_holds (equation : Text) : Within R (holds fuel equation) :=
  Keeps.within fun _ => keeps_holds equation

theorem within_countMissing (values : List Text) : Within R (countMissing fuel values) :=
  Keeps.within fun _ => keeps_countMissing values

end

end Engine

/-- Whether two machines have the same parser. -/
abbrev SameParser (m m' : Machine) : Prop := m'.parser = m.parser

instance : ResolvingFrame SameParser where
  refl _ := rfl
  trans h h' := h'.trans h
  notices _ _ := rfl
  registry _ _ := rfl

end MarkupTemplate
