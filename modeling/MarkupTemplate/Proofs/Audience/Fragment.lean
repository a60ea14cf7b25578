import MarkupTemplate.Proofs.Audience.Scan
import MarkupTemplate.Proofs.Engine.Failure

/-!
# Fragments

A fragment is read in the midst of a parse, by the parser that is in it. It is read as a new parser
would read it which shares the registry, the settings and the data, and has nothing open, nothing
unread and nobody listening: `Machine.fresh`. For up to the audience that is what the parser is
while it reads apart (`apart_eq_facing`), and scanning is oblivious.

Behind a fragment the parse under way has everything that it had (`fragment_fresh`). What it finds
changed is what the fragment told parser and registry for good, and that hooks may have come to
those that wait for the end of the parse. A fragment in a fragment is no other case, since what
scanning has read in between is `fragment` again.
-/

set_option autoImplicit false

namespace MarkupTemplate

namespace Machine

/-- The audience of a machine as it is: all the listeners it has, and what its host has been
told. -/
def audience (m : Machine) : Audience := ⟨m.parser.before, m.parser.after, m.notices⟩

/-- A new parser that shares the registry, the settings and the data, in front of a text. -/
def fresh (machine : Machine) (text name : Text) : Machine where
  registry := machine.registry
  parser.settings := machine.parser.settings
  parser.operators := machine.parser.operators
  parser.environment := machine.parser.environment
  parser.reader := Reader.ofText name text
  draws := machine.draws

/-- The machine once it knows what a new parser has registered, set and noted, and with the hooks
behind its own listeners that the new parser has waiting. What it had open, read and found is its
own still, and it goes on drawing where the new parser has left off. -/
def having (machine inside : Machine) : Machine where
  registry := inside.registry
  parser := { machine.parser with
    environment := inside.parser.environment, after := machine.parser.after ++ inside.parser.after }
  notices := inside.notices ++ machine.notices
  draws := inside.draws

variable (machine : Machine) (text name : Text)

/-- The parser that reads apart is a new parser in front of the audience of the old one. This is by
`rfl`, which is to say that nothing else is put aside or kept. -/
theorem apart_eq_facing : machine.apart text name =
    (machine.fresh text name).facing machine.audience := by
  simp only [apart, facing, Parser.facing, fresh, audience, List.append_nil, List.nil_append]

/-- What reading leaves of the setup of a new parser is the setup of the old one. So putting the
tree and the reader back in place makes the old parser of it, with what it has been told
meanwhile. -/
theorem back_facing {inside : Machine} (h : SameSetup (machine.fresh text name) inside) :
    (inside.facing machine.audience).back machine = machine.having inside := by
  have hbefore : machine.audience.before ++ inside.parser.before = machine.parser.before := by
    rw [h.before]
    exact List.append_nil _
  unfold back facing Parser.facing having
  rw [hbefore, h.settings, h.operators]
  rfl

end Machine

namespace Engine

/-- What a fragment gives and leaves, if that is how a new parser reads it. An error gets its place
from the new parser's reader. -/
def ofFresh (machine : Machine) :
    EStateM.Result Stop Machine Unit → EStateM.Result Stop Machine Document
  | .ok _ inside => .ok ⟨inside.parser.roots, inside.parser.text⟩ (machine.having inside)
  | .error (.failure e) inside =>
    .error (.failure (e.locate inside.parser.reader)) (machine.having inside)
  | .error .exhausted inside => .error .exhausted (machine.having inside)
  | .error .overflow inside => .error .overflow (machine.having inside)

/-- **A fragment is read as a new parser reads it**, with the same nodes and the same text or the
same error, and no listener is notified. The parse under way does not notice. The new parser starts
with the random numbers of the old one, so both draw the same; this holds for every stream of them,
and nothing is said about two runs that draw differently. -/
theorem fragment_fresh (fuel : Nat) (template name : Text) (machine : Machine) :
    fragment fuel template name machine =
        ofFresh machine (scan fuel [] (machine.fresh template name)) ∧
      (behind (fragment fuel template name machine)).parser = { machine.parser with
        environment := (behind (scan fuel [] (machine.fresh template name))).parser.environment
        after := machine.parser.after ++
          (behind (scan fuel [] (machine.fresh template name))).parser.after } ∧
      (∀ n ∈ (behind (scan fuel [] (machine.fresh template name))).notices,
        n.isListener = false) ∧
      ∀ l ∈ (behind (scan fuel [] (machine.fresh template name))).parser.after,
        l.isAttach = true := by
  have hsetup : SameSetup (machine.fresh template name)
      (behind (scan fuel [] (machine.fresh template name))) := within_scan fuel [] _
  -- Scanning does not see the audience, and telling the place of an error does not either.
  have hlocating : locating (scan fuel []) (machine.apart template name) =
      outcomeFacing machine.audience (locating (scan fuel []) (machine.fresh template name)) := by
    rw [machine.apart_eq_facing]
    exact (oblivious_scan fuel []).locating.facing machine.audience _
  have hfragment : fragment fuel template name machine =
      ofFresh machine (scan fuel [] (machine.fresh template name)) := by
    rw [fragment, apart_eq, hlocating, locating]
    -- What is left is to put things back in place, whatever the outcome was.
    generalize hscan : scan fuel [] (machine.fresh template name) = outcome at hsetup
    cases outcome with
    | ok v inside =>
      exact congrArg (EStateM.Result.ok _) (machine.back_facing template name hsetup)
    | error stop inside =>
      cases stop with
      | failure _ | exhausted | overflow =>
        exact congrArg (EStateM.Result.error _) (machine.back_facing _ _ hsetup)
  refine ⟨hfragment, ?_, ?_, ?_⟩
  · rw [hfragment]
    cases scan fuel [] (machine.fresh template name) with
    | ok v inside => rfl
    | error stop inside => cases stop <;> rfl
  · have hquiet : (machine.fresh template name).Quiet := fun n hn => absurd hn List.not_mem_nil
    exact (oblivious_scan fuel []).quiet hquiet
  · obtain ⟨hooks, hattach, hafter⟩ := hsetup.after
    rw [hafter]
    exact hattach

end Engine

end MarkupTemplate
