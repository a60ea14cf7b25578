import MarkupTemplate.Definition
import MarkupTemplate.Proofs.Control.Substitution

/-!
# What a definition stands for in a call

The text of a definition has placeholders for its parameters, and a call gives each of them a value:
the attribute of its name or its place, the body of the call for the last one, and else the word for
a missing value (`Definition.Gives`). To fill in the text is to put the values for the placeholders,
all at once: `Markers.Fills` takes the text apart from left to right and leaves what was put in
alone, so a value that looks like another placeholder stays as it is.

Only a name without argument markers makes a placeholder. The markers around any other name belong
to other placeholders, or to none, and a parameter of such a name is never replaced.

`fills_iff` says that the expansion of a definition is the one text that this describes. It leaves
out definitions with two parameters of the same name. Those can be expanded too, but which of the
values counts is then a matter of the order in which they are looked through.
-/

set_option autoImplicit false

namespace MarkupTemplate

/-! ## The value of a parameter -/

/-- Whether a call gives the parameter of some name a value. Names are compared without the case of
ASCII letters. -/
def Definition.Gives (d : Definition) (attributes : Attributes) (body : Option Text)
    (name value : Text) : Prop :=
  ∃ i parameter, d.parameters[i]? = some parameter ∧ Text.eqIgnoringCase parameter name = true ∧
    value = (attributes.getOr? parameter i).getD
      (if i + 1 = d.parameters.length then body.getD nullText else nullText)

/-- Whether no two parameters have the same name, whatever its case. -/
def Definition.Distinct (d : Definition) : Prop :=
  d.parameters.Pairwise fun p q => Text.eqIgnoringCase p q = false

namespace Definition

variable {attributes : Attributes} {body : Option Text} {name value : Text}

/-- Names that mean a third one mean each other. -/
theorem eqIgnoringCase_of_common {s t u : Text} (hs : Text.eqIgnoringCase s u = true)
    (ht : Text.eqIgnoringCase t u = true) : Text.eqIgnoringCase s t = true := by
  rw [Text.eqIgnoringCase_iff] at *
  exact hs.trans ht.symm

/-- The values of the parameters from a given index on. -/
theorem find?_valuesFrom_eq_some_iff {parameters : List Text}
    (hdistinct : parameters.Pairwise fun p q => Text.eqIgnoringCase p q = false) (index : Nat) :
    Attributes.find? name (valuesFrom attributes body index parameters) = some value ↔
      ∃ i parameter, parameters[i]? = some parameter ∧
        Text.eqIgnoringCase parameter name = true ∧
        value = (attributes.getOr? parameter (index + i)).getD
          (if i + 1 = parameters.length then body.getD nullText else nullText) := by
  induction parameters generalizing index with
  | nil => simp [valuesFrom, Attributes.find?]
  | cons first rest ih =>
    obtain ⟨hfirst, hrest⟩ := List.pairwise_cons.mp hdistinct
    rw [valuesFrom, Attributes.find?]
    by_cases hname : Text.eqIgnoringCase first name = true
    · -- The name means the first parameter, and then none of the others.
      rw [if_pos hname]
      constructor
      · intro h
        refine ⟨0, first, rfl, hname, ?_⟩
        rw [← Option.some.inj h]
        cases rest <;> cases attributes.getOr? first index <;> simp
      · rintro ⟨i, parameter, hi, hparameter, rfl⟩
        cases i with
        | zero =>
          obtain rfl := Option.some.inj hi
          cases rest <;> cases attributes.getOr? first index <;> simp
        | succ i =>
          have hne := hfirst parameter (List.mem_of_getElem? hi)
          rw [eqIgnoringCase_of_common hname hparameter] at hne
          cases hne
    · rw [if_neg hname, ih hrest]
      constructor
      · rintro ⟨i, parameter, hi, hparameter, rfl⟩
        exact ⟨i + 1, parameter, hi, hparameter, by simp [Nat.add_assoc, Nat.add_comm 1 i]⟩
      · rintro ⟨i, parameter, hi, hparameter, rfl⟩
        cases i with
        | zero =>
          obtain rfl := Option.some.inj hi
          exact absurd hparameter hname
        | succ i =>
          exact ⟨i, parameter, hi, hparameter, by simp [Nat.add_assoc, Nat.add_comm 1 i]⟩

end Definition

/-! ## Filling in

A relation between the two texts, without a look-up that goes from left to right and without a place
where it stands. That the result is the only one has to be proved and is not built in. -/

namespace Markers

/-- Whether one text comes from another one by putting values for placeholders, all at once, given
which values there are for which names. A character is only left as it is where no placeholder with
a value begins. -/
inductive Fills (m : Markers) (gives : Text → Text → Prop) : Text → Text → Prop
  | nil : Fills m gives [] []
  | placeholder {name value t s : Text} (hopening : m.argumentOpening ∉ name)
      (hclosing : m.argumentClosing ∉ name) (hvalue : gives name value) (h : Fills m gives t s) :
      Fills m gives (m.placeholder name ++ t) (value ++ s)
  | char {c : Char} {t s : Text}
      (hplain : ∀ name value rest, m.argumentOpening ∉ name → m.argumentClosing ∉ name →
        gives name value → c :: t ≠ m.placeholder name ++ rest) (h : Fills m gives t s) :
      Fills m gives (c :: t) (c :: s)

variable {m : Markers} {lookup : Text → Option Text} {name value t rest : Text}

/-! The steps of a substitution. -/

theorem substitute_of_candidate? (h : m.candidate? t = some (name, rest))
    (hvalue : lookup name = some value) :
    m.substitute lookup (m.argumentOpening :: t) = value ++ m.substitute lookup rest := by
  rw [substitute, substituteM, if_pos rfl]
  split
  · next name' rest' h' =>
    obtain ⟨rfl, rfl⟩ := Prod.mk.inj (Option.some.inj (h.symm.trans h'))
    simp only [hvalue]
    rfl
  · next h' => cases h.symm.trans h'

/-- An opening marker is left as it is, if it does not begin a placeholder with a value. -/
theorem substitute_opening
    (h : ∀ name rest, m.candidate? t = some (name, rest) → lookup name = none) :
    m.substitute lookup (m.argumentOpening :: t) =
      m.argumentOpening :: m.substitute lookup t := by
  rw [substitute, substituteM, if_pos rfl]
  split
  · next name rest h' =>
    simp only [h name rest h']
    rfl
  · rfl

variable {gives : Text → Text → Prop} (hgives : ∀ name value, gives name value ↔
  lookup name = some value)

include hgives

theorem fills_substitute (t : Text) : m.Fills gives t (m.substitute lookup t) := by
  -- On the length, as a placeholder takes more than one character of the text.
  induction hn : t.length using Nat.strongRecOn generalizing t with
  | ind n ih =>
    cases t with
    | nil =>
      rw [substitute_nil]
      exact .nil
    | cons c t =>
      have hshorter : ∀ t' : Text, t'.length < (c :: t).length →
          m.Fills gives t' (m.substitute lookup t') := fun t' hlt => ih _ (hn ▸ hlt) t' rfl
      have htail := hshorter t (Nat.lt_succ_self _)
      by_cases hc : c = m.argumentOpening
      · subst hc
        by_cases hvalue : ∃ name rest value, m.candidate? t = some (name, rest) ∧
            lookup name = some value
        · obtain ⟨name, rest, value, hcandidate, hvalue⟩ := hvalue
          have hlt := Nat.lt_succ_of_lt (length_lt_of_candidate? hcandidate)
          obtain ⟨rfl, hopening, hclosing⟩ := eq_of_candidate? hcandidate
          rw [substitute_of_candidate? hcandidate hvalue, ← placeholder_append]
          exact .placeholder hopening hclosing ((hgives _ _).mpr hvalue) (hshorter rest hlt)
        · rw [substitute_opening]
          · refine .char (fun name value rest ho hc hg heq => hvalue ?_) htail
            rw [placeholder_append] at heq
            obtain rfl := (List.cons.inj heq).2
            exact ⟨name, rest, value, candidate?_append ho hc rest, (hgives _ _).mp hg⟩
          · intro name rest hcandidate
            rw [Option.eq_none_iff_forall_ne_some]
            exact fun value hlookup => hvalue ⟨name, rest, value, hcandidate, hlookup⟩
      · rw [substitute_cons hc]
        refine .char (fun name value rest _ _ _ heq => hc ?_) htail
        rw [placeholder_append] at heq
        exact (List.cons.inj heq).1

theorem Fills.eq_substitute {s : Text} (h : m.Fills gives t s) : s = m.substitute lookup t := by
  induction h with
  | nil => exact substitute_nil.symm
  | placeholder hopening hclosing hvalue _ ih =>
    rw [placeholder_append, substitute_of_candidate? (candidate?_append hopening hclosing _)
      ((hgives _ _).mp hvalue), ← ih]
  | @char c t s hplain _ ih =>
    -- An opening marker is plain if there is no candidate at it that is given a value.
    by_cases hc : c = m.argumentOpening
    · subst hc
      rw [substitute_opening, ← ih]
      intro name rest hcandidate
      rw [Option.eq_none_iff_forall_ne_some]
      intro value hvalue
      obtain ⟨rfl, hopening, hclosing⟩ := eq_of_candidate? hcandidate
      refine hplain name value rest hopening hclosing ((hgives _ _).mpr hvalue) ?_
      rw [placeholder_append]
    · rw [substitute_cons hc, ← ih]

end Markers

/-- **The expansion of a definition is its text with the values of a call filled in**, and there is
no other such text. -/
theorem Definition.fills_iff {d : Definition} (hdistinct : d.Distinct) (m : Markers)
    (attributes : Attributes) (body : Option Text) (s : Text) :
    m.Fills (d.Gives attributes body) d.template s ↔ s = d.expand m attributes body := by
  -- What a parameter is given is what a look-up in the list of all values finds, as names are
  -- distinct.
  have hgives : ∀ name value, d.Gives attributes body name value ↔
      Attributes.find? name (valuesFrom attributes body 0 d.parameters) = some value := by
    intro name value
    rw [find?_valuesFrom_eq_some_iff hdistinct 0]
    simp only [Definition.Gives, Nat.zero_add]
  constructor
  · intro h
    exact h.eq_substitute hgives
  · rintro rfl
    exact Markers.fills_substitute hgives d.template

end MarkupTemplate
