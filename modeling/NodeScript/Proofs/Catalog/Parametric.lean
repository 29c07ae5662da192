import NodeScript.Proofs.Catalog.Made
import NodeScript.Proofs.Run.Follows

/-!
Nodes of the catalog do with the parts of a run what can be done with any. Main statement:
`Registry.builtin_parametric`: where the inputs and the chains of a node follow other ones, so does
the node.
-/

set_option autoImplicit false
set_option relaxedAutoImplicit false

namespace NodeScript

open Run

/-- A node sees the same, but for inputs and chains that follow other ones. It may repeat things
less often only where a run that is too short is excused. -/
structure Scope.Follows (excused : Stop → Prop) (scope scope' : Scope) : Prop where
  node : scope.node = scope'.node
  config : scope.config = scope'.config
  slots : scope.slots = scope'.slots
  fuel : scope.fuel = scope'.fuel ∨ excused .outOfFuel ∧ scope.fuel ≤ scope'.fuel
  input : ∀ slot, Run.Follows excused (scope.input slot) (scope'.input slot)
  fire : ∀ slot, Run.Follows excused (scope.fire slot) (scope'.fire slot)

/-- What a node does follows what it does with other inputs and chains, if those do. -/
def Scope.Parametric {α : Type} (run : Scope → Run α) : Prop :=
  ∀ (excused : Stop → Prop), (∀ node input, ¬excused (.fault (.missingValue node input))) →
    ∀ scope scope', Scope.Follows excused scope scope' →
      Run.Follows excused (run scope) (run scope')

theorem Scope.Made.parametric {acts draws : Prop} {α : Type} {run : Scope → Run α}
    (made : Scope.Made acts draws run) : Scope.Parametric run := by
  intro excused caught scope scope' follows
  induction made with
  | pure a => exact .refl _
  | refuse why =>
    beta_reduce
    rw [follows.node]
    exact .refl _
  | config run each ih =>
    beta_reduce
    rw [follows.config]
    exact ih _
  | bind first rest ihFirst ihRest => exact ihFirst.bind ihRest
  | input slot => exact follows.input slot
  | slotKey index =>
    beta_reduce
    rw [Scope.slotKey, Scope.slotKey, Scope.fault, Scope.fault, follows.node, follows.slots]
    exact .refl _
  | fetch? key => exact .refl _
  | trigger => exact .refl _
  | random drawing low high above =>
    beta_reduce
    rw [Scope.random, Scope.random, follows.node]
    exact .refl _
  | orMissing acting tried ih => exact ih.orMissing caught
  | store acting key value => exact .refl _
  | send acting recipient text => exact .refl _
  | fire acting slot => exact follows.fire slot
  | repeatWhile acting check each ihCheck ihEach =>
    rcases follows.fuel with same | ⟨short, less⟩
    · beta_reduce
      rw [same]
      exact ihCheck.repeatWhile ihEach _
    · exact ihCheck.repeatWhile_of_le ihEach short less
  | forM acting items each ih => exact .forM ih

/-- A type of nodes does with inputs and chains what can be done with any. -/
structure Behavior.Parametric (behavior : Behavior) : Prop where
  evaluate : ∀ slot, Scope.Parametric fun scope => behavior.evaluate scope slot
  execute : ∀ slot, Scope.Parametric fun scope => behavior.execute scope slot

/-- The types of a registry do with inputs and chains what can be done with any. -/
def Registry.Parametric (registry : Registry) : Prop :=
  ∀ id behavior, registry.behavior? id = some behavior → behavior.Parametric

theorem Registry.builtin_parametric : builtin.Parametric := by
  intro id behavior found
  have made := builtin_made id behavior found
  exact ⟨fun slot => (made.evaluate slot).parametric, fun slot => (made.execute slot).parametric⟩

end NodeScript
