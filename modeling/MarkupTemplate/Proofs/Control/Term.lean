import Mathlib.Algebra.Group.Nat.Defs
import MarkupTemplate.Proofs.Text.Words
import MarkupTemplate.Tag.Attributes

/-!
# Templates of control macros

A control term is what a template of conditionals and loops means to say: text, branches of which
one is chosen, bodies that are repeated, and bodies that stand once for each value of a variable.
`write` is the template of a term, and `denote` the text it stands for.

Both take the values that variables have been given so far, so that they have a meaning for the
inside of a loop too: a variable with a value is written as that value, one without as a
placeholder.

The names of variables are those that attributes can have. A loop also replaces the placeholder of
its own count, `each:index` or `loop:index`, and does so before it replaces its variables, so a
variable of such a name would be lost. `AvoidsCounts` is that no variable has the name of a count
around it.

Terms may be nested in any way and to any depth. What is left out is said by `Scoped`: there are no
other macros and no tags in the text, and text that is blank would be dropped by the scanner.
-/

set_option autoImplicit false

namespace MarkupTemplate

namespace Control

/-- Texts and control macros, nested in each other. -/
inductive Term where
  | empty
  | text (t : Text)
  /-- The placeholder of a variable. -/
  | use (name : Text)
  | append (first second : Term)
  /-- A conditional without a second branch. -/
  | conditional (holds : Bool) (body : Term)
  | choice (holds : Bool) (onTrue onFalse : Term)
  | repeated (times : Nat) (body : Term)
  | forEach (name : Text) (values : List Text) (body : Term)

/-- The values that variables have been given. -/
abbrev Values := Text → Option Text

/-- The values with one more. -/
def Values.give (given : Values) (name value : Text) : Values :=
  fun other => if other = name then some value else given other

/-! ## Templates -/

/-- A macro tag with its body and its closing tag. -/
def macroTag (name setting body : Text) : Text :=
  '<' :: (':' :: name ++ ' ' :: setting ++ ['>']) ++ body ++ '<' :: ('/' :: ':' :: name ++ ['>'])

/-- The tag between the branches of a conditional. -/
def elseTag : Text := "<:if:else/>".toList

/-- The attribute of a conditional. -/
def testSetting (holds : Bool) : Text := "test=".toList ++ writeBool holds

/-- The attribute of a loop that runs a number of times. -/
def timesSetting (times : Nat) : Text := "times=".toList ++ writeNat times

/-- The attribute of a loop over the values of a variable. -/
def valuesSetting (name : Text) (values : List Text) : Text :=
  name ++ "=\"".toList ++ Text.joinWith [';'] values ++ "\"".toList

/-- The template of a term. -/
def Term.write (given : Values) : Term → Text
  | empty => []
  | text t => t
  | use name => (given name).getD (({} : Markers).placeholder name)
  | append first second => first.write given ++ second.write given
  | conditional holds body => macroTag "if".toList (testSetting holds) (body.write given)
  | choice holds onTrue onFalse =>
    macroTag "if".toList (testSetting holds)
      (onTrue.write given ++ elseTag ++ onFalse.write given)
  | repeated times body => macroTag "loop".toList (timesSetting times) (body.write given)
  | forEach name values body =>
    macroTag "each".toList (valuesSetting name values) (body.write given)

/-- The text that a term stands for. -/
def Term.denote (given : Values) : Term → Text
  | empty => []
  | text t => t
  | use name => (given name).getD []
  | append first second => first.denote given ++ second.denote given
  | conditional holds body => if holds then body.denote given else []
  | choice holds onTrue onFalse => if holds then onTrue.denote given else onFalse.denote given
  | repeated times body => (List.replicate times (body.denote given)).flatten
  | forEach name values body => values.flatMap fun value => body.denote (given.give name value)

/-- The template of a whole term. -/
def Term.template (t : Term) : Text := t.write fun _ => none

/-- The text of a whole term. -/
def Term.meaning (t : Term) : Text := t.denote fun _ => none

/-! ## Terms that make sense -/

/-- Whether a name differs from others by more than letter case. -/
def IsFresh (names : List Text) (name : Text) : Prop :=
  ∀ other ∈ names, Text.eqIgnoringCase other name = false

/-- Whether texts, numbers, names and values are such as a template can have, and all variables are
those of loops around their use. `names` are the variables of the loops around the term. A name is
new if no loop around it has it, in whatever letter case: an inner loop of the same name would
otherwise be given values of the outer one. -/
def Term.Scoped (names : List Text) : Term → Prop
  | empty => True
  | text t => Text.isBlankText t = false ∧ '<' ∉ t ∧ '{' ∉ t
  | use name => name ∈ names
  | append first second => first.Scoped names ∧ second.Scoped names
  | conditional _ body => body.Scoped names
  | choice _ onTrue onFalse => onTrue.Scoped names ∧ onFalse.Scoped names
  | repeated times body => times < 2 ^ 63 ∧ body.Scoped names
  | forEach name values body =>
    isKey name = true ∧ IsFresh names name ∧ (∀ value ∈ values, Text.IsWord value) ∧
      body.Scoped (name :: names)

/-- The name of the count of a loop. -/
def countName (loop : Text) : Text := ({} : Markers).indexName loop

/-- Whether no variable has the name of a count. `counts` are those of the loops around the term. -/
def Term.AvoidsCounts (counts : List Text) : Term → Prop
  | append first second => first.AvoidsCounts counts ∧ second.AvoidsCounts counts
  | conditional _ body => body.AvoidsCounts counts
  | choice _ onTrue onFalse => onTrue.AvoidsCounts counts ∧ onFalse.AvoidsCounts counts
  | repeated _ body => body.AvoidsCounts (countName "loop".toList :: counts)
  | forEach name _ body =>
    IsFresh (countName "each".toList :: counts) name ∧
      body.AvoidsCounts (countName "each".toList :: counts)
  | _ => True

/-! ## Deciding

Both conditions are decided by going through the term, so that a term that is written out can be
checked by evaluation. -/

instance (names : List Text) (name : Text) : Decidable (IsFresh names name) :=
  inferInstanceAs (Decidable (∀ other ∈ names, Text.eqIgnoringCase other name = false))

instance Term.decidableScoped : (names : List Text) → (t : Term) → Decidable (t.Scoped names)
  | _, empty => isTrue trivial
  | _, text t => inferInstanceAs (Decidable (Text.isBlankText t = false ∧ '<' ∉ t ∧ '{' ∉ t))
  | names, use name => inferInstanceAs (Decidable (name ∈ names))
  | names, append first second =>
    @instDecidableAnd _ _ (decidableScoped names first) (decidableScoped names second)
  | names, conditional _ body => decidableScoped names body
  | names, choice _ onTrue onFalse =>
    @instDecidableAnd _ _ (decidableScoped names onTrue) (decidableScoped names onFalse)
  | names, repeated times body =>
    @instDecidableAnd (times < 2 ^ 63) _ inferInstance (decidableScoped names body)
  | names, forEach name values body =>
    have := decidableScoped (name :: names) body
    inferInstanceAs (Decidable (isKey name = true ∧ IsFresh names name ∧
      (∀ value ∈ values, Text.IsWord value) ∧ body.Scoped (name :: names)))

instance Term.decidableAvoidsCounts :
    (counts : List Text) → (t : Term) → Decidable (t.AvoidsCounts counts)
  | _, empty | _, text _ | _, use _ => isTrue trivial
  | counts, append first second =>
    @instDecidableAnd _ _ (decidableAvoidsCounts counts first) (decidableAvoidsCounts counts second)
  | counts, conditional _ body => decidableAvoidsCounts counts body
  | counts, choice _ onTrue onFalse =>
    @instDecidableAnd _ _ (decidableAvoidsCounts counts onTrue)
      (decidableAvoidsCounts counts onFalse)
  | counts, repeated _ body => decidableAvoidsCounts (countName "loop".toList :: counts) body
  | counts, forEach name _ body =>
    @instDecidableAnd (IsFresh (countName "each".toList :: counts) name) _ inferInstance
      (decidableAvoidsCounts (countName "each".toList :: counts) body)

end Control

end MarkupTemplate
