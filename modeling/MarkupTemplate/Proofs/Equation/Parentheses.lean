import MarkupTemplate.Equation.Standard
import MarkupTemplate.Proofs.Equation.Value

/-!
# Equations in parentheses

The parenthesis that closes a group is looked for on the text alone, before the group is cut into
tokens. `Passed` is that this search passes over a text: what is opened in it, quotes or
parentheses, is closed in it. The text of a group is passed over, and so is an equation that can be
cut up, as long as its placeholders are. Then parentheses around it change nothing, since the group
between them is the equation itself (`evaluate_parenthesised`).

The search does not know placeholders. One that holds a single parenthesis is a value where it
stands alone, and cuts a group in two where it stands in one (`not_evaluate_parenthesised`).

So the condition is on the placeholders and on nothing else. Everything outside of them was cut up
without a fault, and that is enough to know that it closes what it opens (`passed_of_tokensAfter`).
-/

set_option autoImplicit false

namespace MarkupTemplate

namespace EquationToken

/-! ## What the search for the end of a group passes over

The search as a function of a text in two parts. `inFront` says how the first part comes back in
front of what was found behind it. -/

/-- Puts a text in front of what a search has found. -/
def inFront (t : Text) : Option (Text × Text) → Option (Text × Text) :=
  Option.map fun p => (t ++ p.1, p.2)

@[simp] theorem inFront_nil (found : Option (Text × Text)) : inFront [] found = found := by
  cases found <;> rfl

theorem inFront_append (s t : Text) (found : Option (Text × Text)) :
    inFront (s ++ t) found = inFront s (inFront t found) := by
  cases found <;> simp [inFront]

theorem inFront_cons (c : Char) (t : Text) (found : Option (Text × Text)) :
    inFront (c :: t) found = inFront [c] (inFront t found) := inFront_append [c] t found

/-- A character that is no quote and no parenthesis is passed over. -/
theorem takeGroup_plain {c : Char} (hquote : isQuote c = false) (hopen : c ≠ '(')
    (hclose : c ≠ ')') (depth : Nat) (rest : Text) :
    takeGroup depth none (c :: rest) = inFront [c] (takeGroup depth none rest) := by
  cases depth <;> simp [takeGroup, inFront, hquote, hopen, hclose]

theorem takeGroup_quote {q : Char} (hq : isQuote q = true) (depth : Nat) (rest : Text) :
    takeGroup depth none (q :: rest) = inFront [q] (takeGroup depth (some q) rest) := by
  cases depth <;> simp [takeGroup, inFront, hq]

theorem takeGroup_open (depth : Nat) (rest : Text) :
    takeGroup depth none ('(' :: rest) = inFront ['('] (takeGroup (depth + 1) none rest) := by
  cases depth <;> rfl

theorem takeGroup_close (depth : Nat) (rest : Text) :
    takeGroup (depth + 1) none (')' :: rest) = inFront [')'] (takeGroup depth none rest) := rfl

/-- At the closing parenthesis of the group itself the search ends. -/
theorem takeGroup_end (rest : Text) : takeGroup 0 none (')' :: rest) = some ([], rest) := rfl

theorem takeGroup_quoted {q : Char} {inner : Text} (h : q ∉ inner) (depth : Nat) (rest : Text) :
    takeGroup depth (some q) (inner ++ q :: rest) =
      inFront (inner ++ [q]) (takeGroup depth none rest) := by
  induction inner with
  | nil => simp [takeGroup, inFront]
  | cons c inner ih =>
    obtain ⟨hc, hinner⟩ := not_or.mp (mt List.mem_cons.mpr h)
    have hstep : takeGroup depth (some q) (c :: (inner ++ q :: rest)) =
        inFront [c] (takeGroup depth (some q) (inner ++ q :: rest)) := by
      simp [takeGroup, inFront, Ne.symm hc]
    rw [List.cons_append, hstep, ih hinner, ← inFront_cons, List.cons_append]

/-- Whether the search for the end of a group goes on behind a text as it came to it. -/
def Passed (t : Text) : Prop :=
  ∀ depth rest, takeGroup depth none (t ++ rest) = inFront t (takeGroup depth none rest)

theorem passed_nil : Passed [] := by
  intro depth rest
  simp

/-- Two texts that are passed over are passed over together. -/
theorem Passed.append {s t : Text} (hs : Passed s) (ht : Passed t) : Passed (s ++ t) := by
  intro depth rest
  rw [List.append_assoc, hs, ht, inFront_append]

/-- A character that is no quote and no parenthesis. -/
theorem passed_of_plain {c : Char} (hquote : isQuote c = false) (hopen : c ≠ '(')
    (hclose : c ≠ ')') : Passed [c] :=
  takeGroup_plain hquote hopen hclose

/-- A text is passed over if every character of it is. -/
theorem passed_of_forall {t : Text} (h : ∀ c ∈ t, Passed [c]) : Passed t := by
  induction t with
  | nil => exact passed_nil
  | cons c t ih =>
    obtain ⟨hc, ht⟩ := List.forall_mem_cons.mp h
    exact hc.append (ih ht)

theorem passed_quoted {q : Char} {inner : Text} (hq : isQuote q = true) (h : q ∉ inner) :
    Passed (q :: (inner ++ [q])) := by
  intro depth rest
  rw [List.cons_append, List.append_assoc, List.singleton_append, takeGroup_quote hq,
    takeGroup_quoted h, ← inFront_cons]

/-- A text in parentheses, if what is between them is passed over. -/
theorem Passed.group {t : Text} (h : Passed t) : Passed ('(' :: (t ++ [')'])) := by
  intro depth rest
  rw [List.cons_append, List.append_assoc, List.singleton_append, takeGroup_open, h,
    takeGroup_close, inFront_cons '(' (t ++ [')']), inFront_append]

/-- The search ends at the parenthesis behind a text that it passes over. -/
theorem Passed.takeGroup_eq {t : Text} (h : Passed t) (rest : Text) :
    takeGroup 0 none (t ++ ')' :: rest) = some (t, rest) := by
  rw [h, takeGroup_end]
  simp [inFront]

/-- What is in front of the end of a group takes the search out of everything that was open. -/
theorem takeGroup_inner {depth : Nat} {quote : Option Char} {t inner rest : Text}
    (h : takeGroup depth quote t = some (inner, rest)) (outer : Nat) (rest' : Text) :
    takeGroup (depth + outer) quote (inner ++ rest') =
      inFront inner (takeGroup outer none rest') := by
  -- What is inside of a group is walked over in the same states, only deeper.
  fun_induction takeGroup depth quote t generalizing inner with
  | case1 => simp at h
  | case2 depth q c t ih =>
    obtain ⟨p, hp, heq⟩ := Option.map_eq_some_iff.mp h
    obtain ⟨rfl, rfl⟩ := Prod.mk.inj heq
    rw [inFront_cons, ← ih hp]
    rfl
  | case3 depth c t hq ih =>
    obtain ⟨p, hp, heq⟩ := Option.map_eq_some_iff.mp h
    obtain ⟨rfl, rfl⟩ := Prod.mk.inj heq
    rw [inFront_cons, ← ih hp, List.cons_append, takeGroup_quote hq]
  | case4 depth t hq ih =>
    obtain ⟨p, hp, heq⟩ := Option.map_eq_some_iff.mp h
    obtain ⟨rfl, rfl⟩ := Prod.mk.inj heq
    have hdepth : depth + outer + 1 = depth + 1 + outer := by omega
    rw [inFront_cons, ← ih hp, List.cons_append, takeGroup_open, hdepth]
  | case5 t hq hc =>
    obtain ⟨rfl, rfl⟩ := Prod.mk.inj (Option.some.inj h)
    simp
  | case6 t depth hq hc ih =>
    obtain ⟨p, hp, heq⟩ := Option.map_eq_some_iff.mp h
    obtain ⟨rfl, rfl⟩ := Prod.mk.inj heq
    have hdepth : depth + 1 + outer = depth + outer + 1 := by omega
    rw [inFront_cons, ← ih hp, List.cons_append, hdepth, takeGroup_close]
  | case7 depth c t hq ho hc ih =>
    obtain ⟨p, hp, heq⟩ := Option.map_eq_some_iff.mp h
    obtain ⟨rfl, rfl⟩ := Prod.mk.inj heq
    rw [inFront_cons, ← ih hp, List.cons_append, takeGroup_plain (by simpa using hq) ho hc]

theorem passed_of_takeGroup {t inner rest : Text} (h : takeGroup 0 none t = some (inner, rest)) :
    Passed inner := by
  intro depth rest'
  have hinner := takeGroup_inner h depth rest'
  rwa [Nat.zero_add] at hinner

/-! ## What an equation that can be cut up passes over

Cutting follows the text as the search does, but for placeholders: these it takes as a whole. -/

/-- The placeholders of an equation outside of quotes and groups, with their markers. -/
def placeholders (f : EquationFormat) : Text → List Text
  | [] => []
  | c :: t =>
    if isQuote c then
      match _h : Text.splitFirst? c t with
      | some (_, rest) => placeholders f rest
      | none => []
    else if c = '(' then
      match _h : takeGroup 0 none t with
      | some (_, rest) => placeholders f rest
      | none => []
    else if c = f.argumentOpening then
      match _h : takePlaceholder f.argumentOpening f.argumentClosing t with
      | (inner, rest) => (c :: inner) :: placeholders f rest
    else placeholders f t
termination_by t => t.length
decreasing_by
  all_goals simp only [List.length_cons]
  · have := congrArg List.length (Text.eq_of_splitFirst? _h).1
    simp only [List.length_append, List.length_cons] at this
    omega
  · have := congrArg List.length (eq_of_takeGroup _h)
    simp only [List.length_append, List.length_cons] at this
    omega
  · have := congrArg List.length (takePlaceholder_append f.argumentOpening f.argumentClosing t)
    rw [_h] at this
    simp only [List.length_append] at this
    omega
  all_goals omega

/-- An equation without a fault leaves no quotes and no parenthesis open outside of its
placeholders. -/
theorem passed_of_tokensAfter {f : EquationFormat} {equation value t : Text} {hasQuotes : Bool}
    (hcut : ∀ e, EquationToken.fault e ∉ tokensAfter f equation value hasQuotes t)
    (hp : ∀ p ∈ placeholders f t, Passed p) : Passed t := by
  -- One case for each way in which a text is cut. The faults are excluded, and only the case of a
  -- placeholder asks for something.
  fun_induction tokensAfter f equation value hasQuotes t with
  | case1 => exact passed_nil
  | case2 equation value hasQuotes c t hq inner rest h ih =>
    have hrest : placeholders f (c :: t) = placeholders f rest := by
      rw [placeholders, if_pos hq, h]
    obtain ⟨rfl, hinner⟩ := Text.eq_of_splitFirst? h
    have happend := (passed_quoted hq hinner).append (ih hcut (hrest ▸ hp))
    simpa using happend
  | case3 => exact absurd List.mem_cons_self (hcut _)
  | case4 equation value hasQuotes t inner rest h hq _ ih =>
    have hrest : placeholders f ('(' :: t) = placeholders f rest := by
      rw [placeholders, if_neg hq, if_pos rfl, h]
    have hbehind : ∀ fault, EquationToken.fault fault ∉ tokensAfter f equation [] false rest := by
      intro fault hmem
      exact hcut fault (List.mem_append_right _ (List.mem_cons_of_mem _ hmem))
    have happend := (passed_of_takeGroup h).group.append (ih hbehind (hrest ▸ hp))
    rw [eq_of_takeGroup h]
    simpa using happend
  | case5 => exact absurd (List.mem_append_right _ List.mem_cons_self) (hcut _)
  | case6 => exact absurd List.mem_cons_self (hcut _)
  | case7 equation value hasQuotes t inner rest h hq ho hc ih =>
    have hrest : placeholders f (f.argumentOpening :: t) =
        (f.argumentOpening :: inner) :: placeholders f rest := by
      rw [placeholders, if_neg hq, if_neg ho, if_pos rfl, h]
    rw [hrest] at hp
    obtain ⟨hinner, hp⟩ := List.forall_mem_cons.mp hp
    have htext := takePlaceholder_append f.argumentOpening f.argumentClosing t
    rw [h] at htext
    rw [← htext]
    exact hinner.append (ih hcut hp)
  | case8 equation value hasQuotes c t hq ho hc hplaceholder op h ih =>
    have hrest : placeholders f (c :: t) = placeholders f t := by
      rw [placeholders, if_neg hq, if_neg ho, if_neg hplaceholder]
    have hbehind : ∀ fault, EquationToken.fault fault ∉ tokensAfter f equation [] false t := by
      intro fault hmem
      exact hcut fault (List.mem_append_right _ (List.mem_cons_of_mem _ hmem))
    exact (passed_of_plain (by simpa using hq) ho hc).append (ih hbehind (hrest ▸ hp))
  | case9 equation value hasQuotes c t hq ho hc hplaceholder h kept ih =>
    have hrest : placeholders f (c :: t) = placeholders f t := by
      rw [placeholders, if_neg hq, if_neg ho, if_neg hplaceholder]
    exact (passed_of_plain (by simpa using hq) ho hc).append (ih hcut (hrest ▸ hp))

/-- A text in parentheses is a group, whatever follows it. -/
theorem Passed.tokensAfter_group {e : Text} (h : Passed e) (f : EquationFormat)
    (equation rest : Text) :
    tokensAfter f equation [] false ('(' :: (e ++ ')' :: rest)) =
      EquationToken.group e (tokens f e) :: tokensAfter f equation [] false rest := by
  rw [tokensAfter, if_neg (by decide), if_pos rfl, h.takeGroup_eq rest]
  rfl

/-- A text in parentheses and nothing else is one group. -/
theorem Passed.tokens_group {e : Text} (h : Passed e) (f : EquationFormat) :
    tokens f ('(' :: (e ++ [')'])) = [EquationToken.group e (tokens f e)] := by
  have hnone : tokensAfter f ('(' :: (e ++ [')'])) [] false [] = [] := by
    rw [tokensAfter]
    rfl
  rw [tokens, h.tokensAfter_group f, hnone]

end EquationToken

/-! ## Evaluation

The evaluation is one for every way of looking values up. What is looked up on the way, and in which
order, is not changed by parentheses, and a state that counts shows that. -/

section

variable {μ : Type → Type} [Monad μ] [LawfulMonad μ] [Failing μ]

/-- A group alone is what the equation in it is. -/
theorem evaluate_group {e : Text} (h : EquationToken.Passed e) (f : EquationFormat)
    (resolve : Text → μ Text) :
    evaluate f resolve ('(' :: (e ++ [')'])) = evaluate f resolve e := by
  unfold evaluate
  rw [h.tokens_group f]
  simp only [EquationToken.elements, EquationToken.element, bind_assoc, pure_bind,
    EquationElement.settle_operand]
  have hpure : ∀ o : Operand, (ofOutcome (.ok o) : μ Operand) = pure o := fun _ => rfl
  simp only [hpure, bind_pure]

end

section

variable {σ : Type} {f : EquationFormat} {resolve : Text → ExceptT Fault (StateM σ) Text} {s s' : σ}

/-- What a sequence of two computations with values that may change a state has gone through. -/
theorem exists_of_bind {α β : Type} {x : ExceptT Fault (StateM σ) α}
    {g : α → ExceptT Fault (StateM σ) β} {b : β} (h : (x >>= g).run s = (.ok b, s')) :
    ∃ a between, x.run s = (.ok a, between) ∧ (g a).run between = (.ok b, s') := by
  have hstep : (x >>= g).run s = ExceptT.bindCont g (x.run s).1 (x.run s).2 := rfl
  rw [hstep] at h
  cases hx : x.run s with
  | mk outcome between =>
    rw [hx] at h
    cases outcome with
    | error fault => exact absurd h (by rintro ⟨⟩)
    | ok a => exact ⟨a, between, rfl, h⟩

/-- An equation that comes down to a value has been cut up to its end. -/
theorem EquationToken.fault_notMem {t : OperatorTable} {tokens : List EquationToken}
    {elements : List EquationElement}
    (h : (EquationToken.elements t resolve tokens).run s = (.ok elements, s')) (fault : Fault) :
    EquationToken.fault fault ∉ tokens := by
  induction tokens generalizing s s' elements with
  | nil => exact List.not_mem_nil
  | cons token tokens ih =>
    rw [EquationToken.elements] at h
    obtain ⟨element, between, htoken, hrest⟩ := exists_of_bind h
    obtain ⟨others, between', hothers, _⟩ := exists_of_bind hrest
    intro hmem
    rcases List.mem_cons.mp hmem with heq | hmem
    · rw [← heq, EquationToken.element] at htoken
      exact absurd htoken (by rintro ⟨⟩)
    · exact ih hothers hmem

/-- **Parentheses around a whole equation do not change it**, as long as no placeholder leaves
quotes or parentheses open: it comes down to the same value and looks up the same values on the
way. -/
theorem evaluate_parenthesised {e : Text} {v : Operand}
    (h : (evaluate f resolve e).run s = (.ok v, s'))
    (hp : ∀ p ∈ EquationToken.placeholders f e, EquationToken.Passed p) :
    (evaluate f resolve ('(' :: (e ++ [')']))).run s = (.ok v, s') := by
  have hcut : ∀ fault, EquationToken.fault fault ∉ EquationToken.tokens f e := by
    intro fault
    obtain ⟨elements, between, helements, _⟩ := exists_of_bind h
    exact EquationToken.fault_notMem helements fault
  rw [evaluate_group (EquationToken.passed_of_tokensAfter hcut hp) f resolve]
  exact h

end

/-- Looks a value up as itself, and counts how often that is done. -/
def lookCounting (t : Text) : ExceptT Fault (StateM Nat) Text := do
  modify (· + 1)
  return t

/-- The text that an evaluation comes down to. -/
def textOf? : Except Fault Operand → Option Text
  | .ok (.text t) => some t
  | _ => none

/-- An evaluation that comes down to a text has that outcome. -/
theorem eq_of_textOf? {outcome : Except Fault Operand} {t : Text} (h : textOf? outcome = some t) :
    outcome = .ok (.text t) := by
  unfold textOf? at h
  split at h
  · rw [Option.some.inj h]
  · cases h

/-- A parenthesis in quotes, a pair of them in a placeholder, and a group. -/
def guardedEquation : Text := "'(' + \x7bf(x)\x7d + (y)".toList

/-- The equation comes to the same value, with the same three look-ups, with parentheses and
without. -/
theorem evaluate_guardedEquation :
    (evaluate { operators := .standard } lookCounting ('(' :: (guardedEquation ++ [')']))).run 0 =
      (.ok (.text "(\x7bf(x)\x7dy".toList), 2) := by
  have hplaceholders : EquationToken.placeholders { operators := .standard } guardedEquation =
      ["\x7bf(x)\x7d".toList] := by decide +kernel
  have hplain : ∀ {c : Char}, c ∈ ['\x7b', 'f', 'x', '\x7d'] → EquationToken.Passed [c] := by
    intro c hc
    have hcs : ∀ c ∈ ['\x7b', 'f', 'x', '\x7d'], isQuote c = false ∧ c ≠ '(' ∧ c ≠ ')' := by
      simp [isQuote]
    exact EquationToken.passed_of_plain (hcs c hc).1 (hcs c hc).2.1 (hcs c hc).2.2
  have hvalue : (evaluate { operators := .standard } lookCounting guardedEquation).run 0 =
      (.ok (.text "(\x7bf(x)\x7dy".toList), 2) :=
    Prod.ext (eq_of_textOf? (by decide +kernel)) (by decide +kernel)
  refine evaluate_parenthesised hvalue ?_
  intro p hp
  rw [hplaceholders, List.mem_singleton] at hp
  rw [hp]
  have hgroup : EquationToken.Passed "(x)".toList := (hplain (by decide)).group
  exact (hplain (by decide)).append
    ((hplain (by decide)).append (hgroup.append (hplain (by decide))))

/-- A parenthesis in a placeholder closes the group around it. -/
theorem not_evaluate_parenthesised :
    ¬∀ (f : EquationFormat) (e : Text) (v : Operand), evaluatePlain f e = .ok v →
      evaluatePlain f ('(' :: (e ++ [')'])) = .ok v := by
  intro h
  have hplain : evaluatePlain { operators := .standard } "\x7b)\x7d".toList =
      .ok (.text "\x7b)\x7d".toList) := eq_of_textOf? (by decide +kernel)
  have hgroup : textOf? (evaluatePlain { operators := .standard } "(\x7b)\x7d)".toList) = none := by
    decide +kernel
  have hsame : evaluatePlain { operators := .standard } "(\x7b)\x7d)".toList =
      .ok (.text "\x7b)\x7d".toList) := h _ _ _ hplain
  rw [hsame] at hgroup
  cases hgroup

end MarkupTemplate
