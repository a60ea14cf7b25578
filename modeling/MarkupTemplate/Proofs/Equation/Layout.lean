import Mathlib.Logic.Relation
import MarkupTemplate.Proofs.Equation.Printed
import MarkupTemplate.Proofs.Tag.Content
import MarkupTemplate.Proofs.Text.Nested

/-!
# The layout of an equation

Blanks beside operators and parentheses mean nothing. They are dropped where no value has begun,
taken off where one ends, and copied into the text of a group that they stand in, which is cut up in
the same way. So a blank more or less at such a place leaves an equation with the value it had, or
with none (`evaluatePlain_respaced`).

Where these places are is a matter of reading. Quotes and placeholders hold none, but the search for
the end of a group knows only quotes (`takeGroup`). A placeholder that holds a parenthesis or a
quote of its own ends a group too early or hides its end, and then what stands behind it in the
group is read as something else. That is why `Beside` counts the parentheses a place is in and can
ask something of the placeholders in front of it: that they close what they open, if they stand in
parentheses. Without this a blank may get into a value (`not_evaluatePlain_respaced`).

The texts of the two equations differ, and faults show them, so the equations are compared up to
their faults (`SameValue`). The induction is `Beside.indifferent`. It goes along the text up to the
place, and where it enters a group it needs the place twice: inside of the group, if the group ends
behind it, and behind the group, if the group ends before it.
-/

set_option autoImplicit false

namespace MarkupTemplate

open EquationToken

/-! ## Values up to their faults

Two computations that fail are the same here, whatever they fail with. The relation is an
equivalence and is kept by what is done with a value. -/

/-- Whether two computations come to the same value or both to none. -/
def SameValue {α : Type} (x y : Except Fault α) : Prop := ∀ a, x = .ok a ↔ y = .ok a

namespace SameValue

variable {α β : Type} {x y z : Except Fault α}

theorem refl (x : Except Fault α) : SameValue x x := fun _ => Iff.rfl

theorem symm (h : SameValue x y) : SameValue y x := fun a => (h a).symm

theorem trans (h : SameValue x y) (h' : SameValue y z) : SameValue x z :=
  fun a => (h a).trans (h' a)

/-- What is done with the value does not tell them apart. -/
theorem bind {g k : α → Except Fault β} (h : SameValue x y) (hg : ∀ a, SameValue (g a) (k a)) :
    SameValue (x.bind g) (y.bind k) := by
  intro b
  rw [EquationElement.exceptBind_eq_ok_iff, EquationElement.exceptBind_eq_ok_iff]
  exact exists_congr fun a => and_congr (h a) (hg a b)

/-- A function of the value does not tell them apart. -/
theorem map (h : SameValue x y) (g : α → β) : SameValue (x.map g) (y.map g) :=
  h.bind fun a => refl (.ok (g a))

end SameValue

namespace EquationElement

variable {equation equation' : Text}

/-- The text of the equation has no part in the forms of its operators. -/
theorem sameValue_classify (operandLeft : Bool) (es : List EquationElement) :
    SameValue (classify equation operandLeft es) (classify equation' operandLeft es) :=
  fun _ => classify_eq_ok_iff.trans classify_eq_ok_iff.symm

theorem reduce_eq_ok {es : List EquationElement} {v : Operand} (h : reduce equation es = .ok v) :
    reduce equation' es = .ok v := by
  -- Only two of the cases end well: an operand that is alone, and one more step.
  fun_induction reduce equation es with
  | case2 o => rwa [reduce]
  | case7 es hnil hoperand hoperator p hp es' hcontract ih =>
    have hlen : 1 < es.length := by
      rcases es with - | ⟨e, - | ⟨e', es⟩⟩
      · exact absurd rfl hnil
      · cases e with
        | operand o => exact absurd rfl (hoperand o)
        | operator op single => exact absurd rfl (hoperator op single)
      · exact Nat.succ_lt_succ (Nat.succ_pos _)
    rw [reduce_of_contract hlen hp hcontract]
    exact ih h
  | _ => exact absurd h (by simp)

/-- The text of an equation is only there to be shown. -/
theorem sameValue_settle (t : OperatorTable) (es : List EquationElement) :
    SameValue (settle t equation es) (settle t equation' es) :=
  (sameValue_classify false _).bind fun _ _ => ⟨reduce_eq_ok, reduce_eq_ok⟩

end EquationElement

/-! ## Cutting up to the same elements

Tokens hold the text of a group beside its tokens, so equations that mean the same need not have the
same tokens. They have the same elements. -/

namespace EquationToken

variable {f : EquationFormat} {equation equation' value : Text} {hasQuotes : Bool}

/-- Whether two lists of tokens stand for the same elements or both for none. -/
def SameElements (f : EquationFormat) (ts ts' : List EquationToken) : Prop :=
  SameValue (elements f.operators Except.ok ts) (elements f.operators Except.ok ts')

/-- The elements of a list of tokens, one by one. -/
theorem elements_cons (table : OperatorTable) (token : EquationToken) (ts : List EquationToken) :
    elements table (Except.ok : Text → Except Fault Text) (token :: ts) =
      (element table Except.ok token).bind fun e =>
        (elements table Except.ok ts).map (e :: ·) := by
  rw [elements]
  rfl

variable {token token' : EquationToken} {ts ts' : List EquationToken}

/-- Lists that agree go on agreeing behind tokens that do. -/
theorem SameElements.cons
    (h : SameValue (element f.operators (Except.ok : Text → Except Fault Text) token)
      (element f.operators Except.ok token'))
    (hs : SameElements f ts ts') : SameElements f (token :: ts) (token' :: ts') := by
  unfold SameElements
  rw [elements_cons, elements_cons]
  exact h.bind fun e => hs.map (e :: ·)

theorem SameElements.append (h : SameElements f ts ts') (before : List EquationToken) :
    SameElements f (before ++ ts) (before ++ ts') := by
  induction before with
  | nil => exact h
  | cons token before ih => exact ih.cons (.refl _)

/-- What ends with a fault stands for no elements. -/
theorem elements_fault (table : OperatorTable) (before : List EquationToken) (e : Fault)
    (es : List EquationElement) :
    elements table (Except.ok : Text → Except Fault Text) (before ++ [fault e]) ≠ .ok es := by
  -- All tokens in front are read first, and the fault stops the reading when it is reached.
  induction before generalizing es with
  | nil =>
    intro h
    rw [List.nil_append, elements_singleton, element] at h
    exact absurd h (by rintro ⟨⟩)
  | cons token before ih =>
    intro h
    rw [List.cons_append, elements_cons, EquationElement.exceptBind_eq_ok_iff] at h
    obtain ⟨_, -, h⟩ := h
    obtain ⟨es', h, -⟩ := EquationElement.exceptMap_eq_ok_iff.mp h
    exact ih es' h

/-- Two lists that end with a fault both stand for nothing. -/
theorem sameElements_fault (before before' : List EquationToken) (e e' : Fault) :
    SameElements f (before ++ [fault e]) (before' ++ [fault e']) :=
  fun es => iff_of_false (elements_fault _ before e es) (elements_fault _ before' e' es)

theorem SameElements.evaluatePlain {e e' : Text} (h : SameElements f (tokens f e) (tokens f e')) :
    SameValue (evaluatePlain f e) (evaluatePlain f e') := by
  rw [EquationTree.evaluatePlain_eq, EquationTree.evaluatePlain_eq]
  exact h.bind fun es => EquationElement.sameValue_settle f.operators es

/-! ### One step -/

/-- A closing parenthesis that closes nothing is a fault. -/
theorem tokensAfter_close (rest : Text) :
    tokensAfter f equation value hasQuotes (')' :: rest) =
      [fault (.unbalancedParenthesis equation)] := by
  rw [tokensAfter, if_neg (by decide), if_neg (by decide), if_pos rfl]

/-- So is an opening one that is not closed. -/
theorem tokensAfter_unclosed {t : Text} (h : takeGroup 0 none t = none) :
    tokensAfter f equation value hasQuotes ('(' :: t) =
      ofValue value hasQuotes ++ [fault (.unbalancedParenthesis equation)] := by
  rw [tokensAfter, if_neg (by decide), if_pos rfl, h]

/-- A group is a token of its own, and ends the value in front of it. -/
theorem tokensAfter_group {t inner rest : Text} (h : takeGroup 0 none t = some (inner, rest)) :
    tokensAfter f equation value hasQuotes ('(' :: t) =
      ofValue value hasQuotes ++ group inner (tokens f inner) ::
        tokensAfter f equation [] false rest := by
  rw [tokensAfter, if_neg (by decide), if_pos rfl, h]
  rfl

theorem tokensAfter_quoted {q : Char} {inner : Text} (hq : isQuote q = true) (h : q ∉ inner)
    (rest : Text) : tokensAfter f equation value hasQuotes (q :: (inner ++ q :: rest)) =
      tokensAfter f equation (value ++ inner) true rest := by
  rw [tokensAfter, if_pos hq, Text.splitFirst?_append h]

/-- An operator ends the value in front of it. -/
theorem tokensAfter_operator {c : Char} (hc : f.IsSign c) {op : Operator}
    (hop : f.operators.ofChar? c = some op) (rest : Text) :
    tokensAfter f equation value hasQuotes (c :: rest) =
      ofValue value hasQuotes ++ operator op :: tokensAfter f equation [] false rest := by
  obtain ⟨op', hop', htokens⟩ := tokensAfter_sign hc equation value hasQuotes rest
  obtain rfl := Option.some.inj (hop.symm.trans hop')
  exact htokens

/-- A plain character joins the value, unless it is a blank that does not count. -/
theorem tokensAfter_cons {c : Char} (hc : f.IsPlain c) (rest : Text) :
    tokensAfter f equation value hasQuotes (c :: rest) =
      tokensAfter f equation
        (if !isBlank c || (!value.isEmpty && !hasQuotes) then value ++ [c] else value)
        hasQuotes rest := by
  have hquote := hc.quote
  rw [tokensAfter, if_neg (by simp [hquote]), if_neg hc.opening, if_neg hc.closing,
    if_neg hc.placeholder, hc.operator]

/-- Two groups with the same elements, and the same behind them. -/
theorem sameElements_group {t t' inner inner' rest rest' : Text}
    (h : takeGroup 0 none t = some (inner, rest)) (h' : takeGroup 0 none t' = some (inner', rest'))
    (hinner : SameElements f (tokens f inner) (tokens f inner'))
    (hrest : SameElements f (tokensAfter f equation [] false rest)
      (tokensAfter f equation' [] false rest')) :
    SameElements f (tokensAfter f equation value hasQuotes ('(' :: t))
      (tokensAfter f equation' value hasQuotes ('(' :: t')) := by
  rw [tokensAfter_group h, tokensAfter_group h']
  refine SameElements.append (hrest.cons ?_) _
  rw [EquationTree.element_group, EquationTree.element_group]
  exact hinner.evaluatePlain.map _

/-- The text of the whole equation is only kept for faults. -/
theorem sameElements_equation (t : Text) :
    SameElements f (tokensAfter f equation value hasQuotes t)
      (tokensAfter f equation' value hasQuotes t) := by
  -- Both sides take the same steps: the equation is only copied into faults.
  fun_induction tokensAfter f equation value hasQuotes t with
  | case1 => rw [tokensAfter]; exact .refl _
  | case2 equation value hasQuotes c t hq inner rest h ih =>
    rw [tokensAfter, if_pos hq, h]
    exact ih
  | case3 equation value hasQuotes c t hq h =>
    rw [tokensAfter, if_pos hq, h]
    exact sameElements_fault [] [] _ _
  | case4 equation value hasQuotes t inner rest h hq _ ih =>
    rw [tokensAfter_group h]
    exact SameElements.append (ih.cons (.refl _)) _
  | case5 equation value hasQuotes t h =>
    rw [tokensAfter_unclosed h]
    exact sameElements_fault _ _ _ _
  | case6 =>
    rw [tokensAfter_close]
    exact sameElements_fault [] [] _ _
  | case7 equation value hasQuotes t inner rest h hq ho hc ih =>
    rw [tokensAfter, if_neg hq, if_neg ho, if_neg hc, if_pos rfl, h]
    exact ih
  | case8 equation value hasQuotes c t hq ho hc hplaceholder op h ih =>
    rw [tokensAfter, if_neg hq, if_neg ho, if_neg hc, if_neg hplaceholder, h]
    exact SameElements.append (ih.cons (.refl _)) _
  | case9 equation value hasQuotes c t hq ho hc hplaceholder h kept ih =>
    rw [tokensAfter, if_neg hq, if_neg ho, if_neg hc, if_neg hplaceholder, h]
    exact ih

/-! ### Blanks -/

/-- Blanks only get into a value that has begun without quotes. -/
theorem tokensAfter_blanks {blanks : Text} (hb : ∀ c ∈ blanks, f.IsPlain c ∧ isBlank c = true)
    (value rest : Text) : tokensAfter f equation value hasQuotes (blanks ++ rest) =
      tokensAfter f equation (if value.isEmpty || hasQuotes then value else value ++ blanks)
        hasQuotes rest := by
  induction blanks generalizing value with
  | nil => simp
  | cons c blanks ih =>
    obtain ⟨⟨hplain, hblank⟩, hb⟩ := List.forall_mem_cons.mp hb
    rw [List.cons_append, tokensAfter_cons hplain, ih hb, hblank]
    cases value <;> cases hasQuotes <;> simp

/-- Blanks at the end of a value are taken off. -/
theorem ofValue_blanks {blanks : Text} (hb : ∀ c ∈ blanks, isBlank c = true) (value : Text)
    (hasQuotes : Bool) :
    ofValue (if value.isEmpty || hasQuotes then value else value ++ blanks) hasQuotes =
      ofValue value hasQuotes := by
  split
  · rfl
  · next hgrown =>
    have hquotes : hasQuotes = false := by
      cases hasQuotes with
      | false => rfl
      | true => exact absurd (Bool.or_true _) hgrown
    simp [ofValue, hquotes, Text.trim_append_blanks value hb]

end EquationToken

/-! ## Places for blanks

A place is described by the text in front of it and the text behind it. The description follows the
text from its start, the way a reader would go through it by hand. -/

namespace EquationFormat

/-- Whether a character is an operator or a parenthesis, wherever it stands outside of quotes and
placeholders. -/
def IsMark (f : EquationFormat) (c : Char) : Prop := c = '(' ∨ c = ')' ∨ f.IsSign c

/-- Whether a text is a placeholder, with its markers. -/
def IsPlaceholder (f : EquationFormat) (p : Text) : Prop :=
  ∃ inner, p = f.argumentOpening :: (inner ++ [f.argumentClosing]) ∧
    Text.takeNested f.argumentOpening f.argumentClosing 0 (inner ++ [f.argumentClosing]) =
      (inner, some [])

/-- Whether the place between two texts is outside of quotes and placeholders, and in front of an
operator or a parenthesis or behind one. `depth` counts the parentheses that are open in front of
both texts, and each placeholder on the way has to be allowed at its depth. -/
inductive Beside (f : EquationFormat) (Allowed : Nat → Text → Prop) : Nat → Text → Text → Prop
  | before {depth : Nat} {c : Char} {after : Text} (hc : f.IsMark c) :
      Beside f Allowed depth [] (c :: after)
  | behind {depth : Nat} {c : Char} {after : Text} (hc : f.IsMark c) :
      Beside f Allowed depth [c] after
  | opening {depth : Nat} {before after : Text} (h : Beside f Allowed (depth + 1) before after) :
      Beside f Allowed depth ('(' :: before) after
  | closing {depth : Nat} {before after : Text} (h : Beside f Allowed (depth - 1) before after) :
      Beside f Allowed depth (')' :: before) after
  | quoted {depth : Nat} {q : Char} {inner before after : Text} (hq : isQuote q = true)
      (hinner : q ∉ inner) (h : Beside f Allowed depth before after) :
      Beside f Allowed depth (q :: (inner ++ q :: before)) after
  | placeholder {depth : Nat} {p before after : Text} (hp : f.IsPlaceholder p)
      (hallowed : Allowed depth p) (h : Beside f Allowed depth before after) :
      Beside f Allowed depth (p ++ before) after
  | other {depth : Nat} {c : Char} {before after : Text} (hquote : isQuote c = false)
      (hopening : c ≠ '(') (hclosing : c ≠ ')') (hplaceholder : c ≠ f.argumentOpening)
      (h : Beside f Allowed depth before after) : Beside f Allowed depth (c :: before) after

/-- Whether a placeholder that stands in parentheses closes the quotes and parentheses that it
opens. -/
def ClosedInGroup (depth : Nat) (p : Text) : Prop := 0 < depth → Passed p

/-- Whether the second equation is the first one with blanks put in at such a place. -/
def AddsBlanks (f : EquationFormat) (Allowed : Nat → Text → Prop) (e e' : Text) : Prop :=
  ∃ before blanks after, f.Beside Allowed 0 before after ∧ (∀ c ∈ blanks, isBlank c = true) ∧
    e = before ++ after ∧ e' = before ++ (blanks ++ after)

/-- Whether one equation becomes the other by putting blanks in and taking them out beside operators
and parentheses. -/
def Respaced (f : EquationFormat) (Allowed : Nat → Text → Prop) : Text → Text → Prop :=
  Relation.EqvGen (f.AddsBlanks Allowed)

/-- Whether blanks and the marker of placeholders are nothing else. -/
structure IsRegular (f : EquationFormat) : Prop where
  blank : ∀ c, isBlank c = true → f.IsPlain c
  quote : isQuote f.argumentOpening = false
  opening : f.argumentOpening ≠ '('
  closing : f.argumentOpening ≠ ')'

variable {f : EquationFormat} {depth : Nat} {before after blanks : Text}

/-- The search for the end of a group passes over blanks. -/
theorem IsRegular.passed_blanks (hf : f.IsRegular) (hb : ∀ c ∈ blanks, isBlank c = true) :
    Passed blanks :=
  passed_of_forall fun c hc =>
    have hplain := hf.blank c (hb c hc)
    passed_of_plain hplain.quote hplain.opening hplain.closing

theorem IsPlaceholder.tokensAfter (hf : f.IsRegular) {p : Text} (hp : f.IsPlaceholder p)
    (equation value : Text) (hasQuotes : Bool) (rest : Text) :
    EquationToken.tokensAfter f equation value hasQuotes (p ++ rest) =
      EquationToken.tokensAfter f equation (value ++ p) hasQuotes rest := by
  obtain ⟨inner, rfl, hinner⟩ := hp
  have htake : takePlaceholder f.argumentOpening f.argumentClosing
      (inner ++ [f.argumentClosing] ++ rest) = (inner ++ [f.argumentClosing], rest) := by
    unfold takePlaceholder
    rw [Text.takeNested_append_of_some hinner rest]
    rfl
  rw [List.cons_append, EquationToken.tokensAfter, if_neg (by simp [hf.quote]), if_neg hf.opening,
    if_neg hf.closing, if_pos rfl, htake]

end EquationFormat

/-! ### The groups around a place -/

namespace EquationToken

/-- Whether the search for the end of a group reads over a text, or ends in it and leaves what
satisfies the condition. -/
def ReadsOver (Left : Text → Prop) (depth : Nat) (s : Text) : Prop :=
  (∃ depth', ∀ t, takeGroup depth none (s ++ t) = inFront s (takeGroup depth' none t)) ∨
  ∃ inner left, Left left ∧ ∀ t, takeGroup depth none (s ++ t) = some (inner, left ++ t)

variable {Left : Text → Prop} {depth depth' : Nat} {s s' : Text}

/-- What is read over in two parts is read over. -/
theorem ReadsOver.append (h : ReadsOver Left depth' s')
    (hs : ∀ t, takeGroup depth none (s ++ t) = inFront s (takeGroup depth' none t)) :
    ReadsOver Left depth (s ++ s') := by
  rcases h with ⟨behind, h⟩ | ⟨inner, left, hleft, h⟩
  · refine .inl ⟨behind, fun t => ?_⟩
    rw [List.append_assoc, hs, h, inFront_append]
  · refine .inr ⟨s ++ inner, left, hleft, fun t => ?_⟩
    rw [List.append_assoc, hs, h]
    rfl

/-- What is read over behind a character is read over with it. -/
theorem ReadsOver.cons {c : Char} (h : ReadsOver Left depth' s)
    (hc : ∀ t, takeGroup depth none (c :: t) = inFront [c] (takeGroup depth' none t)) :
    ReadsOver Left depth (c :: s) :=
  ReadsOver.append (s := [c]) h hc

end EquationToken

namespace EquationFormat

variable {f : EquationFormat} {depth : Nat} {before after blanks : Text}

/-- What is left of the way to a place behind the end of a group leads to that place too. -/
theorem Beside.readsOver (h : f.Beside ClosedInGroup depth before after) {k : Nat}
    (hk : k < depth) :
    ReadsOver (fun left => left = [] ∨ f.Beside ClosedInGroup (depth - k - 1) left after) k
      before := by
  -- `k` counts the parentheses opened since the group, so some are open wherever the search goes on,
  -- and the placeholders there are closed ones.
  induction h generalizing k with
  | before => exact .inl ⟨k, fun t => (inFront_nil _).symm⟩
  | behind hc =>
    rcases hc with rfl | rfl | hc
    · exact .inl ⟨k + 1, takeGroup_open k⟩
    · cases k with
      | zero => exact .inr ⟨[], [], .inl rfl, takeGroup_end⟩
      | succ k => exact .inl ⟨k, takeGroup_close k⟩
    · exact .inl ⟨k, takeGroup_plain hc.quote hc.opening hc.closing k⟩
  | @opening depth _ _ _ ih =>
    have hleft := ih (Nat.succ_lt_succ hk)
    rw [Nat.add_sub_add_right] at hleft
    exact hleft.cons (takeGroup_open k)
  | @closing depth before after h ih =>
    cases k with
    | zero => exact .inr ⟨[], before, .inr h, fun t => takeGroup_end _⟩
    | succ k =>
      have hleft := ih (k := k) (by omega)
      rw [Nat.sub_sub depth 1 k, Nat.add_comm 1 k] at hleft
      exact hleft.cons (takeGroup_close k)
  | @quoted _ q inner before _ hq hinner _ ih =>
    have htext : q :: (inner ++ q :: before) = q :: (inner ++ [q]) ++ before := by simp
    rw [htext]
    exact (ih hk).append (passed_quoted hq hinner k)
  | placeholder _ hallowed _ ih => exact (ih hk).append (hallowed (Nat.zero_lt_of_lt hk) k)
  | other hquote hopening hclosing _ _ ih =>
    exact (ih hk).cons (takeGroup_plain hquote hopening hclosing k)

/-! ### Equations with more blanks -/

/-- At a mark it only counts what the value in front of it comes to. -/
theorem IsMark.tokensAfter_eq {c : Char} (hc : f.IsMark c) (equation t : Text)
    {value value' : Text} {hasQuotes : Bool}
    (hvalue : ofValue value hasQuotes = ofValue value' hasQuotes) :
    tokensAfter f equation value hasQuotes (c :: t) =
      tokensAfter f equation value' hasQuotes (c :: t) := by
  rcases hc with rfl | rfl | hc
  · cases htake : takeGroup 0 none t with
    | none => rw [tokensAfter_unclosed htake, tokensAfter_unclosed htake, hvalue]
    | some p => rw [tokensAfter_group htake, tokensAfter_group htake, hvalue]
  · rw [tokensAfter_close, tokensAfter_close]
  · obtain ⟨op, hop⟩ := Option.isSome_iff_exists.mp hc.operator
    rw [tokensAfter_operator hc hop, tokensAfter_operator hc hop, hvalue]

/-- Whether blanks between two texts do not change what an equation stands for behind a value under
way. This also holds of an equation that ends somewhere in the second text. -/
def Indifferent (f : EquationFormat) (value : Text) (hasQuotes : Bool)
    (blanks before after : Text) : Prop :=
  ∀ t, t <+: after → ∀ equation equation',
    SameElements f (tokensAfter f equation value hasQuotes (before ++ (blanks ++ t)))
      (tokensAfter f equation' value hasQuotes (before ++ t))

variable {value : Text} {hasQuotes : Bool} {c : Char}

/-- In front of a closing parenthesis that closes nothing, nothing counts. -/
theorem indifferent_closing : f.Indifferent value hasQuotes blanks (')' :: before) after := by
  intro t _ equation equation'
  rw [List.cons_append, List.cons_append, tokensAfter_close, tokensAfter_close]
  exact sameElements_fault [] [] _ _

/-- An operator ends the value in front of it. -/
theorem Indifferent.sign (hc : f.IsSign c) (h : f.Indifferent [] false blanks before after) :
    f.Indifferent value hasQuotes blanks (c :: before) after := by
  intro t ht equation equation'
  obtain ⟨op, hop⟩ := Option.isSome_iff_exists.mp hc.operator
  rw [List.cons_append, List.cons_append, tokensAfter_operator hc hop, tokensAfter_operator hc hop]
  exact ((h t ht _ _).cons (.refl _)).append _

/-- A character that only belongs to a value goes into it, in both equations. -/
theorem Indifferent.plain (hc : f.IsPlain c)
    (h : ∀ value, f.Indifferent value hasQuotes blanks before after) :
    f.Indifferent value hasQuotes blanks (c :: before) after := by
  intro t ht equation equation'
  rw [List.cons_append, List.cons_append, tokensAfter_cons hc, tokensAfter_cons hc]
  exact h _ t ht _ _

theorem Indifferent.quoted {q : Char} {inner : Text} (hq : isQuote q = true) (hinner : q ∉ inner)
    (h : ∀ value, f.Indifferent value true blanks before after) :
    f.Indifferent value hasQuotes blanks (q :: (inner ++ q :: before)) after := by
  intro t ht equation equation'
  have htext : ∀ t, q :: (inner ++ q :: before) ++ t = q :: (inner ++ q :: (before ++ t)) := by
    intro t
    simp
  rw [htext, htext, tokensAfter_quoted hq hinner, tokensAfter_quoted hq hinner]
  exact h _ t ht _ _

section

variable (hf : f.IsRegular)

include hf

theorem Indifferent.placeholder {p : Text} (hp : f.IsPlaceholder p)
    (h : ∀ value, f.Indifferent value hasQuotes blanks before after) :
    f.Indifferent value hasQuotes blanks (p ++ before) after := by
  intro t ht equation equation'
  rw [List.append_assoc, List.append_assoc, hp.tokensAfter hf, hp.tokensAfter hf]
  exact h _ t ht _ _

variable (hb : ∀ c ∈ blanks, isBlank c = true)

include hb

theorem indifferent_start : f.Indifferent [] false blanks [] after := by
  intro t _ equation equation'
  rw [List.nil_append, tokensAfter_blanks fun c hc => ⟨hf.blank c (hb c hc), hb c hc⟩]
  exact sameElements_equation t

/-- Blanks in front of an operator or a parenthesis. -/
theorem indifferent_end (hc : f.IsMark c) :
    f.Indifferent value hasQuotes blanks [] (c :: after) := by
  intro t ht equation equation'
  have hvalue := ofValue_blanks hb value hasQuotes
  rw [List.nil_append, tokensAfter_blanks fun c hc => ⟨hf.blank c (hb c hc), hb c hc⟩]
  cases t with
  | nil =>
    rw [tokensAfter, List.nil_append, tokensAfter, hvalue]
    exact .refl _
  | cons d t =>
    obtain ⟨rfl, -⟩ := List.cons_prefix_cons.mp ht
    rw [hc.tokensAfter_eq equation t hvalue]
    exact sameElements_equation _

theorem Indifferent.opening (hinner : f.Indifferent [] false blanks before after)
    (hread : ReadsOver (f.Indifferent [] false blanks · after) 0 before) :
    f.Indifferent value hasQuotes blanks ('(' :: before) after := by
  intro t ht equation equation'
  rw [List.cons_append, List.cons_append]
  rcases hread with ⟨depth', hread⟩ | ⟨inner, left, hleft, hread⟩
  · have hwith : takeGroup 0 none (before ++ (blanks ++ t)) =
        inFront (before ++ blanks) (takeGroup depth' none t) := by
      rw [hread, hf.passed_blanks hb, inFront_append]
    have hwithout : takeGroup 0 none (before ++ t) =
        inFront before (takeGroup depth' none t) := hread t
    -- The blanks end up in the group, or the group is not closed with them or without.
    cases htake : takeGroup depth' none t with
    | none =>
      rw [htake] at hwith hwithout
      rw [tokensAfter_unclosed hwith, tokensAfter_unclosed hwithout]
      exact sameElements_fault _ _ _ _
    | some p =>
      obtain ⟨inner, rest⟩ := p
      rw [htake] at hwith hwithout
      refine sameElements_group hwith hwithout ?_ (sameElements_equation rest)
      have hinit : inner <+: t := ⟨')' :: rest, (eq_of_takeGroup htake).symm⟩
      rw [List.append_assoc]
      exact hinner inner (hinit.trans ht) _ _
  · exact sameElements_group (hread _) (hread _) (.refl _) (hleft t ht _ _)

/-- **Blanks beside operators and parentheses do not change what an equation stands for.** -/
theorem Beside.indifferent (h : f.Beside ClosedInGroup depth before after) (value : Text)
    (hasQuotes : Bool) : f.Indifferent value hasQuotes blanks before after := by
  -- What is left behind a group is shorter, but no part of the derivation.
  induction hlength : before.length using Nat.strongRecOn
    generalizing depth before value hasQuotes with
  | ind length ih =>
  subst hlength
  cases h with
  | before hc => exact indifferent_end hf hb hc
  | behind hc =>
    have hstart : f.Indifferent [] false blanks [] after := indifferent_start hf hb
    rcases hc with rfl | rfl | hc
    · exact hstart.opening hf hb (.inl ⟨0, fun t => (inFront_nil _).symm⟩)
    · exact indifferent_closing
    · exact hstart.sign hc
  | @opening _ before _ h =>
    refine (ih _ (Nat.lt_succ_self _) h _ _ rfl).opening hf hb ?_
    rcases h.readsOver (Nat.succ_pos _) with hover | ⟨inner, left, hleft, hread⟩
    · exact .inl hover
    · refine .inr ⟨inner, left, ?_, hread⟩
      rcases hleft with rfl | hleft
      · exact indifferent_start hf hb
      · have htext := congrArg List.length (eq_of_takeGroup (hread []))
        simp only [List.length_append, List.length_cons, List.length_nil] at htext
        refine ih _ ?_ hleft _ _ rfl
        rw [List.length_cons]
        omega
  | closing h => exact indifferent_closing
  | quoted hq hinner h =>
    refine Indifferent.quoted hq hinner fun value => ih _ ?_ h _ _ rfl
    simp only [List.length_cons, List.length_append]
    omega
  | placeholder hp _ h =>
    refine Indifferent.placeholder hf hp fun value => ih _ ?_ h _ _ rfl
    obtain ⟨inner, rfl, -⟩ := hp
    simp only [List.length_cons, List.length_append]
    omega
  | @other _ c before _ hquote hopening hclosing hplaceholder h =>
    have hbefore : before.length < (c :: before).length := Nat.lt_succ_self _
    cases hop : f.operators.ofChar? c with
    | some op =>
      have hsign : f.IsSign c := ⟨hquote, hopening, hclosing, hplaceholder, by rw [hop]; rfl⟩
      exact Indifferent.sign hsign (ih _ hbefore h _ _ rfl)
    | none =>
      have hplain : f.IsPlain c := ⟨hquote, hopening, hclosing, hplaceholder, hop⟩
      exact Indifferent.plain hplain fun value => ih _ hbefore h _ _ rfl

end

/-- Putting blanks in and taking them out keeps what one step keeps. -/
theorem Respaced.sameValue (hf : f.IsRegular) {e e' : Text} (h : f.Respaced ClosedInGroup e e') :
    SameValue (evaluatePlain f e) (evaluatePlain f e') := by
  induction h with
  | rel e e' h =>
    obtain ⟨before, blanks, after, hbeside, hb, rfl, rfl⟩ := h
    have hsame := hbeside.indifferent hf hb [] false after List.prefix_rfl
    exact (SameElements.evaluatePlain (hsame _ _)).symm
  | refl => exact .refl _
  | symm _ _ _ ih => exact ih.symm
  | trans _ _ _ _ _ ih ih' => exact ih.trans ih'

end EquationFormat

theorem EquationFormat.isRegular_standard : IsRegular { operators := .standard } where
  blank c hc :=
    { quote := isQuote_of_isBlank hc
      opening := by rintro rfl; exact absurd hc (by decide)
      closing := by rintro rfl; exact absurd hc (by decide)
      placeholder := by rintro rfl; exact absurd hc (by decide)
      operator := OperatorTable.ofChar?_eq_none (p := isBlank) (by decide) hc }
  quote := by decide
  opening := by decide
  closing := by decide

/-- **The layout of an equation is insignificant**: blanks may be put in and taken out on either
side of operators and parentheses outside of quotes and placeholders, as long as no placeholder in
parentheses leaves quotes or parentheses open. -/
theorem evaluatePlain_respaced {e e' : Text}
    (h : EquationFormat.Respaced { operators := .standard } EquationFormat.ClosedInGroup e e')
    (v : Operand) :
    evaluatePlain { operators := .standard } e = .ok v ↔
      evaluatePlain { operators := .standard } e' = .ok v :=
  h.sameValue EquationFormat.isRegular_standard v

theorem EquationFormat.isSign_plus : IsSign { operators := .standard } '+' :=
  ⟨by decide, by decide, by decide, by decide, by decide⟩

/-- A blank in parentheses, behind a placeholder with a parenthesis in quotes. The placeholder
closes what it opens, as the quotes hide the parenthesis. -/
theorem evaluatePlain_respaced_quoted :
    EquationFormat.Respaced { operators := .standard } EquationFormat.ClosedInGroup
      "(\x7b'('\x7d+y)".toList "(\x7b'('\x7d +y)".toList ∧
    evaluatePlain { operators := .standard } "(\x7b'('\x7d +y)".toList =
      .ok (.text "\x7b'('\x7dy".toList) := by
  have hquoted : Passed ('\'' :: (['('] ++ ['\''])) := passed_quoted rfl (by decide)
  -- The quotes inside the placeholder keep its parenthesis from closing the group.
  have hclosed : Passed "\x7b'('\x7d".toList :=
    (passed_of_plain (by decide) (by decide) (by decide)).append
      (hquoted.append (passed_of_plain (by decide) (by decide) (by decide)))
  have hplace : EquationFormat.Beside { operators := .standard } EquationFormat.ClosedInGroup 0
      "(\x7b'('\x7d".toList "+y)".toList :=
    .opening (.placeholder (p := "\x7b'('\x7d".toList) ⟨"'('".toList, rfl, by decide⟩
      (fun _ => hclosed) (.before (.inr (.inr EquationFormat.isSign_plus))))
  have hrespaced : EquationFormat.Respaced { operators := .standard } EquationFormat.ClosedInGroup
      "(\x7b'('\x7d+y)".toList "(\x7b'('\x7d +y)".toList :=
    .rel _ _ ⟨_, [' '], _, hplace, List.forall_mem_singleton.mpr rfl, rfl, rfl⟩
  exact ⟨hrespaced, (evaluatePlain_respaced hrespaced _).mp (eq_of_textOf? (by decide +kernel))⟩

/-- A parenthesis and quotes in placeholders put the operator between these into quotes. Then the
blanks beside it are part of a value. -/
theorem not_evaluatePlain_respaced :
    ¬∀ e e' : Text, EquationFormat.Respaced { operators := .standard } (fun _ _ => True) e e' →
      ∀ v, evaluatePlain { operators := .standard } e = .ok v ↔
        evaluatePlain { operators := .standard } e' = .ok v := by
  intro h
  -- The group ends inside of the first placeholder, and its quote opens what is behind it.
  have hplace : EquationFormat.Beside { operators := .standard } (fun _ _ => True) 0
      "(\x7b)+'\x7d".toList "+\x7b'+(\x7d)".toList :=
    .opening (.placeholder (p := "\x7b)+'\x7d".toList) ⟨")+'".toList, rfl, by decide⟩ trivial
      (.before (.inr (.inr EquationFormat.isSign_plus))))
  have hrespaced : EquationFormat.Respaced { operators := .standard } (fun _ _ => True)
      "(\x7b)+'\x7d+\x7b'+(\x7d)".toList "(\x7b)+'\x7d +\x7b'+(\x7d)".toList :=
    .rel _ _ ⟨_, [' '], _, hplace, List.forall_mem_singleton.mpr rfl, rfl, rfl⟩
  have hclose : evaluatePlain { operators := .standard } "(\x7b)+'\x7d+\x7b'+(\x7d)".toList =
      .ok (.text "\x7b\x7d+\x7b\x7d".toList) := eq_of_textOf? (by decide +kernel)
  have hspaced : textOf? (evaluatePlain { operators := .standard }
      "(\x7b)+'\x7d +\x7b'+(\x7d)".toList) = some "\x7b\x7d +\x7b\x7d".toList := by
    decide +kernel
  rw [(h _ _ hrespaced _).mp hclose] at hspaced
  exact absurd hspaced (by decide)

end MarkupTemplate
