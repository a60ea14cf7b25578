import MarkupTemplate.Builtin.Repetition
import MarkupTemplate.Proofs.Control.Shape
import MarkupTemplate.Proofs.Markers.Candidates

/-!
# Values in control templates

A loop puts the values of one iteration into its body as it is written, and the loops inside of it
do so again with what they get. On the template of a control term this is what it should be:
`substitute_write` says that replacing placeholders gives the template of the same term under more
values. It needs that the look-up has no answer for the variables of loops inside, which is where
the rules on names are used, and that no value brings a placeholder.

Writing a term under some values and replacing placeholders are two ways to the same text, and this
is the lemma that lets the induction on terms go through a loop: what a loop appends is not a text
to be looked at character by character, but the template of its body again.
-/

set_option autoImplicit false

namespace MarkupTemplate

namespace Markers

variable {m : Markers} {lookup : Text → Option Text}

/-! ## Substituting

The steps of a replacement, which leaves text alone and asks for each placeholder once. -/

theorem substitute_nil : m.substitute lookup [] = [] := by
  rw [substitute, substituteM]
  rfl

theorem substitute_append {s : Text} (hs : m.argumentOpening ∉ s) (t : Text) :
    m.substitute lookup (s ++ t) = s ++ m.substitute lookup t :=
  substituteM_append (μ := Id) hs t

/-- A character that begins no placeholder stays as it is. -/
theorem substitute_cons {c : Char} (hc : c ≠ m.argumentOpening) (t : Text) :
    m.substitute lookup (c :: t) = c :: m.substitute lookup t :=
  substitute_append (s := [c]) (by simpa using Ne.symm hc) t

/-- A placeholder is replaced if there is an answer, and otherwise stays as it is. -/
theorem substitute_placeholder (lookup : Text → Option Text)
    (hm : m.argumentOpening ≠ m.argumentClosing) {name : Text} (ho : m.argumentOpening ∉ name)
    (hc : m.argumentClosing ∉ name) (t : Text) :
    m.substitute lookup (m.placeholder name ++ t) =
      (lookup name).getD (m.placeholder name) ++ m.substitute lookup t :=
  substituteM_placeholder (μ := Id) hm ho hc t

end Markers

namespace Control

variable {given : Values} {vars counts : List Text} {t : Term} {lookup : Text → Option Text}

/-- A name that differs from all of some names differs from all but one of them. -/
theorem IsFresh.of_cons {names : List Text} {other name : Text}
    (h : IsFresh (other :: names) name) : IsFresh names name :=
  (List.forall_mem_cons.mp h).2

theorem IsFresh.ne {names : List Text} {other name : Text} (h : IsFresh (other :: names) name) :
    Text.eqIgnoringCase other name = false :=
  h other List.mem_cons_self

/-! ## Terms -/

/-- In a macro only the body changes: there are no placeholders in its tags. -/
theorem substitute_macroTag {name setting key value body body' : Text} (hn : name ∈ names)
    (h : IsSetting setting key value)
    (hbody : ∀ rest, ({} : Markers).substitute lookup (body ++ rest) =
      body' ++ ({} : Markers).substitute lookup rest) (rest : Text) :
    ({} : Markers).substitute lookup (macroTag name setting body ++ rest) =
      macroTag name setting body' ++ ({} : Markers).substitute lookup rest := by
  have hname : '{' ∉ name := (isWord_of_mem_names hn).notMem (by decide)
  have hopening : '{' ∉ '<' :: (macroText name setting ++ ['>']) := by
    simp [macroText, hname, h.notMem.2]
  have hclosing : '{' ∉ '<' :: closingText name := by simp [closingText, hname]
  rw [macroTag_eq, macroTag_eq, List.append_assoc, List.append_assoc,
    Markers.substitute_append hopening, hbody, Markers.substitute_append hclosing]
  simp only [List.append_assoc]

/-- **Replacing placeholders in a template gives the template under more values.** -/
theorem substitute_write (given' : Values) (lookup : Text → Option Text) (hg : given.AreWords)
    (hkeys : ∀ x ∈ vars, isKey x = true) (h : t.Scoped vars) (ha : t.AvoidsCounts counts)
    (hvars : ∀ x ∈ vars, given' x = (given x).or (lookup x))
    (hfresh : ∀ x, IsFresh vars x → IsFresh counts x → given' x = (given x).or (lookup x))
    (rest : Text) : ({} : Markers).substitute lookup (t.write given ++ rest) =
      t.write given' ++ ({} : Markers).substitute lookup rest := by
  -- The rest is arbitrary, so that texts in a row can be dealt with one after another.
  induction t generalizing vars counts rest with
  | empty => rfl
  | text s => exact Markers.substitute_append h.2.2 rest
  | use x =>
    rw [Term.write, Term.write, hvars x h]
    cases hvalue : given x with
    | some value => exact Markers.substitute_append ((hg x value hvalue).notMem (by decide)) rest
    | none =>
      have hname := isKeyCharacter_of_isKey (hkeys x h)
      exact Markers.substitute_placeholder lookup (by decide)
        (fun hm => absurd (hname _ hm) (by decide)) (fun hm => absurd (hname _ hm) (by decide)) rest
  | append first second ihf ihs =>
    rw [Term.write, List.append_assoc, ihf hkeys h.1 ha.1 hvars hfresh,
      ihs hkeys h.2 ha.2 hvars hfresh, Term.write, List.append_assoc]
  | conditional holds body ih =>
    exact substitute_macroTag (by decide) (isSetting_test holds) (ih hkeys h ha hvars hfresh) rest
  | choice holds onTrue onFalse iht ihf =>
    refine substitute_macroTag (by decide) (isSetting_test holds) (fun rest => ?_) rest
    have helse : '{' ∉ elseTag := by decide
    rw [List.append_assoc, List.append_assoc, iht hkeys h.1 ha.1 hvars hfresh,
      Markers.substitute_append helse, ihf hkeys h.2 ha.2 hvars hfresh]
    simp only [List.append_assoc]
  | repeated times body ih =>
    refine substitute_macroTag (by decide) (isSetting_times times) (ih hkeys h.2 ha hvars ?_) rest
    exact fun x hx hc => hfresh x hx hc.of_cons
  | forEach x values body ih =>
    obtain ⟨hk, hx, hv, hbody⟩ := h
    refine substitute_macroTag (by decide) (isSetting_values hk hv) (ih ?_ hbody ha.2 ?_ ?_) rest
    · exact List.forall_mem_cons.mpr ⟨hk, hkeys⟩
    -- The variable of a loop inside is new to everything around it, so no look-up knows it.
    · exact List.forall_mem_cons.mpr ⟨hfresh x hx ha.1.of_cons, hvars⟩
    · exact fun y hy hc => hfresh y hy.of_cons hc.of_cons

/-! ## Iterations

What a loop is given around it fits: its variables have values that are words. An iteration gives a
value to one variable more, or to none, and the result fits again. -/

/-- Whether the variables around a term have been given values, and nothing else has. -/
structure Values.Fit (given : Values) (vars counts : List Text) : Prop where
  words : given.AreWords
  keys : ∀ x ∈ vars, isKey x = true
  isSome : ∀ x ∈ vars, (given x).isSome = true
  fresh : ∀ x, IsFresh vars x → IsFresh counts x → given x = none

theorem fit_none : Values.Fit (fun _ => none) [] [] :=
  ⟨by simp [Values.AreWords], by simp, by simp, fun _ _ _ => rfl⟩

/-- A count has no value, whatever loop it is of. -/
theorem Values.Fit.count (h : given.Fit vars counts) (count : Text) :
    given.Fit vars (count :: counts) :=
  ⟨h.words, h.keys, h.isSome, fun x hx hc => h.fresh x hx hc.of_cons⟩

theorem Values.Fit.give (h : given.Fit vars counts) {name value : Text} (hk : isKey name = true)
    (hv : value.IsWord) : (given.give name value).Fit (name :: vars) counts := by
  refine ⟨fun x v hx => ?_, List.forall_mem_cons.mpr ⟨hk, h.keys⟩, fun x hx => ?_,
    fun x hx hc => ?_⟩
  · rw [Values.give] at hx
    split at hx
    · obtain rfl := Option.some.inj hx
      exact hv
    · exact h.words x v hx
  · rw [Values.give]
    split
    · rfl
    · next hne => exact h.isSome x (List.mem_of_ne_of_mem hne hx)
  · have hne : x ≠ name := by
      rintro rfl
      exact absurd hx.ne (by simp)
    rw [Values.give, if_neg hne]
    exact h.fresh x hx.of_cons hc

variable {loop : Tag} {body : Term}

/-- What a loop puts for a placeholder in an iteration. -/
def replacement (loop : Tag) (bindings : Repetition.Bindings) (count : Nat) : Text → Option Text :=
  fun name =>
    if Text.eqIgnoringCase name (({} : Markers).indexName loop.name) then some (writeNat count)
    else Attributes.find? name bindings

theorem iteration_eq (bindings : Repetition.Bindings) (count : Nat) :
    Repetition.iteration {} loop bindings count =
      ({} : Markers).substitute (replacement loop bindings count) loop.bodyText := rfl

/-- A name that is not that of the count stands for what the iteration gives it. -/
theorem replacement_of_isFresh {name : Text} (hc : IsFresh (countName loop.name :: counts) name)
    (bindings : Repetition.Bindings) (count : Nat) :
    replacement loop bindings count name = Attributes.find? name bindings := by
  refine if_neg ?_
  rw [Text.eqIgnoringCase_comm]
  exact Bool.eq_false_iff.mp hc.ne

/-- An iteration of a loop without variables is its body. -/
theorem iteration_repeated (h : given.Fit vars counts) (hs : body.Scoped vars)
    (ha : body.AvoidsCounts (countName loop.name :: counts))
    (hbody : loop.bodyText = body.write given) (count : Nat) :
    Repetition.iteration {} loop [] count = body.write given := by
  have hsubst := substitute_write given (replacement loop [] count)
    h.words h.keys hs ha ?_ ?_ []
  · rw [iteration_eq, hbody]
    simpa only [Markers.substitute_nil, List.append_nil] using hsubst
  · intro x hx
    obtain ⟨value, hvalue⟩ := Option.isSome_iff_exists.mp (h.isSome x hx)
    rw [hvalue]
    rfl
  · intro x hx hc
    rw [h.fresh x hx hc.of_cons, replacement_of_isFresh hc]
    rfl

/-- An iteration of a loop over values is its body under one of them. -/
theorem iteration_forEach {name value : Text} (h : given.Fit vars counts) (hk : isKey name = true)
    (hx : IsFresh vars name) (hc : IsFresh (countName loop.name :: counts) name)
    (hs : body.Scoped (name :: vars)) (ha : body.AvoidsCounts (countName loop.name :: counts))
    (hbody : loop.bodyText = body.write given) (count : Nat) :
    Repetition.iteration {} loop [(name, value)] count = body.write (given.give name value) := by
  -- Three kinds of names: that of the loop, those given around it, and those left alone.
  have hsubst := substitute_write (given.give name value) (replacement loop [(name, value)] count)
    h.words (List.forall_mem_cons.mpr ⟨hk, h.keys⟩) hs ha ?_ ?_ []
  · rw [iteration_eq, hbody]
    simpa only [Markers.substitute_nil, List.append_nil] using hsubst
  · refine List.forall_mem_cons.mpr ⟨?_, fun y hy => ?_⟩
    · rw [Values.give, if_pos rfl, h.fresh name hx hc.of_cons, replacement_of_isFresh hc,
        Attributes.find?, if_pos (Text.eqIgnoringCase_self name)]
      rfl
    · obtain ⟨value', hvalue⟩ := Option.isSome_iff_exists.mp (h.isSome y hy)
      have hne : y ≠ name := by
        rintro rfl
        exact absurd (hx y hy) (by simp)
      rw [Values.give, if_neg hne, hvalue]
      rfl
  · intro y hy hyc
    have hne : y ≠ name := by
      rintro rfl
      exact absurd hy.ne (by simp)
    rw [Values.give, if_neg hne, h.fresh y hy.of_cons hyc.of_cons, replacement_of_isFresh hyc,
      Attributes.find?, if_neg (Bool.eq_false_iff.mp hy.ne)]
    rfl

/-- The iterations of a loop in which the count is not used. -/
theorem unrolled_map {α : Type} {l : List α} {g : α → Repetition.Bindings} {f : α → Text}
    (h : ∀ a ∈ l, ∀ count, Repetition.iteration {} loop (g a) count = f a) :
    Repetition.unrolled {} loop (l.map g) = l.flatMap f := by
  have hrun : ∀ start, ((l.map g).zipIdx start).flatMap
      (fun i => Repetition.iteration {} loop i.1 i.2) = l.flatMap f := by
    induction l with
    | nil => intro start; rfl
    | cons a l ih =>
      intro start
      obtain ⟨hfirst, hrest⟩ := List.forall_mem_cons.mp h
      rw [List.map_cons, List.zipIdx_cons, List.flatMap_cons, List.flatMap_cons, hfirst, ih hrest]
  exact hrun 0

end Control

end MarkupTemplate
