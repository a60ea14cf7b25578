import MarkupTemplate.Proofs.Control.Term
import MarkupTemplate.Proofs.Equation.Value
import MarkupTemplate.Proofs.Resolution.Arrays

/-!
# The settings of control macros

What the settings of control macros are read as: a truth value as the outcome of an equation, a
number, and an array of words. None of them has a placeholder in it, so reading them needs no fuel
to speak of and leaves the machine as it is.

They are written out by `writeBool`, `writeNat` and `joinWith`, so each statement is that a value is
read back from how it is written.
-/

set_option autoImplicit false

namespace MarkupTemplate

/-- Whether a machine reads templates by the usual markers, macros and operators, and no tag is
open. -/
structure Machine.Standard (machine : Machine) : Prop where
  markers : machine.parser.settings.markers = {}
  registry : machine.registry = .standard
  operators : machine.parser.operators = .standard
  parents : machine.parser.parents = []

/-- No letter of a word leads into quotes or a placeholder. -/
theorem isLevel_of_isWord {name : Text} (h : name.IsWord) :
    ∀ c ∈ name, ({} : Markers).isLevel c = true := by
  intro c hc
  have halnum := h.2 c hc
  have hopening : c ≠ '{' := ne_of_isAlphanumeric halnum (by decide)
  have hclosing : c ≠ '}' := ne_of_isAlphanumeric halnum (by decide)
  simp [Markers.isLevel, isQuote_of_isAlphanumeric halnum, hopening, hclosing]

namespace Engine

variable {machine : Machine} {t : Text}

/-! ## Texts and numbers -/

theorem expand_of_notMem (hm : machine.parser.settings.markers = {}) (ht : '{' ∉ t) (fuel : Nat) :
    expand (fuel + 1) t machine = .ok t machine :=
  expand_of_argumentOpening_notMem (by rwa [hm]) fuel

/-- A word is a plain element, as none of the markers is a letter. -/
theorem isPlainElement_of_isWord (ht : t.IsWord) : ({} : Markers).IsPlainElement t where
  ne_nil := ht.1
  trim_eq := ht.trim_eq
  level := isLevel_of_isWord ht
  separator := ht.notMem (by decide)
  closing hlast := ht.notMem (by decide) (List.mem_of_getLast? hlast)
  unmarked := by
    cases t with
    | nil => rfl
    | cons c t =>
      have hne : ∀ d, isAlphanumeric d = false → c ≠ d := fun d hd =>
        ne_of_isAlphanumeric (ht.2 c List.mem_cons_self) hd
      simp [isMarked, hne '$' (by decide), hne '@' (by decide), hne '#' (by decide)]

theorem string_of_isWord (hm : machine.parser.settings.markers = {}) (ht : t.IsWord) (fuel : Nat) :
    string (fuel + 1) t machine = .ok t machine := by
  rw [string_of_unmarked ht.trim_eq (by rw [hm]; exact (isPlainElement_of_isWord ht).unmarked)]
  exact expand_of_notMem hm (ht.notMem (by decide)) fuel

/-- A number that fits is read back from its digits. -/
theorem readInt64?_writeNat {n : Nat} (hn : n < 2 ^ 63) :
    ∃ i, readInt64? (writeNat n) = some i ∧ i.toInt = n := by
  have hvalue : (Int64.ofInt n).toInt = n := Int64.toInt_ofInt_of_le (by omega) (by omega)
  have hread : readInteger? (writeNat n) = some (n : Int) := readInteger?_writeInteger (.ofNat n)
  refine ⟨Int64.ofInt n, ?_, hvalue⟩
  rw [readInt64?, hread, Option.bind_some, int64?_eq_some_iff.mpr hvalue]

/-- So it is where a setting is read as a number. -/
theorem int_writeNat (hm : machine.parser.settings.markers = {}) {n : Nat} (hn : n < 2 ^ 63)
    (fuel : Nat) : ∃ i, int (fuel + 1) (writeNat n) machine = .ok i machine ∧ i.toInt = n := by
  obtain ⟨i, hread, hi⟩ := readInt64?_writeNat hn
  refine ⟨i, ?_, hi⟩
  rw [int, bind_of_ok (string_of_isWord hm (isWord_writeNat n) fuel), (isWord_writeNat n).trim_eq,
    hread]
  rfl

/-! ## Equations -/

/-- An equation of one word is the value of the word. -/
theorem evaluate_of_tokens {f : EquationFormat} {resolve : Text → Engine Text} {value : Text}
    (htokens : EquationToken.tokens f t = [.word t])
    (hresolve : resolve t machine = .ok value machine) :
    (evaluate f resolve t : Engine Operand) machine = .ok (.text value) machine := by
  have hword : (EquationToken.element f.operators resolve (.word t) :
      Engine EquationElement) machine = .ok (.operand (.text value)) machine := by
    rw [EquationToken.element, bind_of_ok hresolve]
    rfl
  have helements : (EquationToken.elements f.operators resolve [.word t] :
      Engine (List EquationElement)) machine = .ok [.operand (.text value)] machine := by
    rw [EquationToken.elements, bind_of_ok hword, EquationToken.elements]
    rfl
  rw [evaluate, htokens, bind_of_ok helements, EquationElement.settle_operand]
  rfl

/-- The words for truth values are conditions that come down to them. -/
theorem holds_writeBool (hm : machine.parser.settings.markers = {})
    (hoperators : machine.parser.operators = .standard) (b : Bool) (fuel : Nat) :
    holds fuel (writeBool b) machine = .ok b machine := by
  have htokens : EquationToken.tokens ⟨.standard, '{', '}'⟩ (writeBool b) =
      [.word (writeBool b)] := by
    refine EquationToken.tokens_of_isValue
      (EquationFormat.isValue_of_isWord (by decide) ?_ (isWord_writeBool b))
    have hall : (writeBool b).all (fun c => (OperatorTable.standard.ofChar? c).isNone) = true := by
      cases b <;> decide
    intro c hc
    exact Option.isNone_iff_eq_none.mp (List.all_eq_true.mp hall c hc)
  -- A truth value has no mark in front and no placeholder in it.
  have hoperand : operandBy (expand fuel) (writeBool b) machine = .ok (writeBool b) machine := by
    have hstep : operandBy (expand fuel) (writeBool b) machine =
        (if isMarked machine.parser.settings.markers (writeBool b) ||
            machine.parser.settings.markers.argumentOpening ∈ writeBool b then
          stringBy (expand fuel) (writeBool b)
        else return writeBool b : Engine Text) machine := rfl
    rw [hstep, hm]
    cases b <;> rfl
  have hstep : holds fuel (writeBool b) machine =
      ((evaluate ⟨machine.parser.operators, machine.parser.settings.markers.argumentOpening,
          machine.parser.settings.markers.argumentClosing⟩ (operandBy (expand fuel))
          (writeBool b) : Engine Operand) >>= fun o => return o.isTruthy) machine := rfl
  have htruthy : (Operand.text (writeBool b)).isTruthy = b := by cases b <;> decide
  rw [hstep, hm, hoperators, bind_of_ok (evaluate_of_tokens htokens hoperand), htruthy]
  rfl

/-! ## Arrays -/

/-- **An array of words is read as them.** -/
theorem array_joinWith (hm : machine.parser.settings.markers = {}) {values : List Text}
    (hv : ∀ value ∈ values, Text.IsWord value) (fuel : Nat) :
    array (fuel + 1) (Text.joinWith [';'] values) machine = .ok values machine := by
  have hread : array (fuel + 1) (Text.joinWith [machine.parser.settings.markers.arraySeparator]
      values) machine = .ok values machine :=
    array_joinWith_separator (by rw [hm]; decide)
      (fun value hvalue => by rw [hm]; exact isPlainElement_of_isWord (hv value hvalue)) fuel
  rwa [hm] at hread

end Engine

end MarkupTemplate
