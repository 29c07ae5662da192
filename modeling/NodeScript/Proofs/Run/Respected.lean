import NodeScript.Catalog.Builtin
import NodeScript.Proofs.Run.Follows

/-!
Runs that cannot tell contexts apart. `Run.Respects` says that a run gives the same from any two
contexts that are related, and leaves related ones. Main statement: `Catalog.respects_evaluate`.
-/

set_option autoImplicit false
set_option relaxedAutoImplicit false

namespace NodeScript

namespace Run

variable {α β : Type} {related : Context → Context → Prop} {run : Run α}

/-- A run gives the same from related contexts, and leaves related ones. -/
def Respects (related : Context → Context → Prop) (run : Run α) : Prop :=
  ∀ ctx ctx', related ctx ctx' →
    (run.runAt ctx').1 = (run.runAt ctx).1 ∧ related (run.runAt ctx).2 (run.runAt ctx').2

namespace Respects

theorem pure (a : α) : Respects related (Pure.pure a : Run α) := by
  intro _ _ same
  exact ⟨rfl, same⟩

theorem throw (stop : Stop) : Respects related (throw stop : Run α) := by
  intro _ _ same
  exact ⟨rfl, same⟩

theorem fail (error : RunError) : Respects related (Run.fail error : Run α) := by
  intro _ _ same
  exact ⟨rfl, same⟩

theorem bind {next : α → Run β} (first : Respects related run)
    (rest : ∀ a, Respects related (next a)) : Respects related (run >>= next) := by
  intro ctx ctx' same
  obtain ⟨result, left⟩ := first ctx ctx' same
  rw [runAt_bind, runAt_bind]
  generalize run.runAt ctx = before at result left ⊢
  generalize run.runAt ctx' = before' at result left ⊢
  obtain ⟨outcome, after⟩ := before
  obtain ⟨outcome', after'⟩ := before'
  obtain rfl : outcome = outcome' := result.symm
  cases outcome with
  | ok a => exact rest a after after' left
  | error stop => exact ⟨rfl, left⟩

/-- Nothing comes behind a fault. -/
theorem stopped (error : RunError) (next : α → Run β) :
    Respects related (Run.fail error >>= next) := by
  intro _ _ same
  exact ⟨rfl, same⟩

/-- A part that looks at what is the same before it goes on. -/
theorem looking {next : Context → Run α}
    (same : ∀ ctx ctx', related ctx ctx' → next ctx' = next ctx)
    (rest : ∀ ctx, Respects related (next ctx)) :
    Respects related ((get : Run Context) >>= next) := by
  intro ctx ctx' alike
  rw [runAt_bind, runAt_bind, runAt_get, runAt_get]
  dsimp only
  rw [same ctx ctx' alike]
  exact rest ctx ctx ctx' alike

/-- A change that is made alike. -/
theorem changing {change : Context → Context}
    (kept : ∀ ctx ctx', related ctx ctx' → related (change ctx) (change ctx')) :
    Respects related (modify change : Run Unit) := by
  intro ctx ctx' same
  exact ⟨rfl, kept ctx ctx' same⟩

theorem mapM {ι : Type} {items : List ι} {make : ι → Run α}
    (each : ∀ a, Respects related (make a)) : Respects related (items.mapM make) := by
  induction items with
  | nil => exact pure []
  | cons a items ih =>
    rw [List.mapM_cons]
    exact (each a).bind fun _ => ih.bind fun _ => pure _

theorem trigger (same : ∀ ctx ctx', related ctx ctx' → ctx'.trigger = ctx.trigger) :
    Respects related Scope.trigger := by
  exact looking (fun ctx ctx' alike => by rw [same ctx ctx' alike]) fun _ => pure _

theorem fetch? (same : ∀ ctx ctx', related ctx ctx' → ctx'.top.vars = ctx.top.vars) (key : VarKey) :
    Respects related (Scope.fetch? key) := by
  exact looking (fun ctx ctx' alike => by rw [same ctx ctx' alike]) fun _ => pure _

end Respects

end Run

namespace Catalog

def variableTypes : List String := [getVariable.id, setVariable.id, forEach.id]

section

variable {related : Context → Context → Prop} {scope : Scope}
  (inputs : ∀ slot, Run.Respects related (scope.input slot))
include inputs

private theorem respects_number (slot : Nat) : Run.Respects related (scope.number slot) := by
  refine (inputs slot).bind fun v => ?_
  cases v <;> first | exact .pure _ | exact .fail _

private theorem respects_boolean (slot : Nat) : Run.Respects related (scope.boolean slot) := by
  refine (inputs slot).bind fun v => ?_
  cases v <;> first | exact .pure _ | exact .fail _

private theorem respects_text (slot : Nat) : Run.Respects related (scope.text slot) := by
  refine (inputs slot).bind fun v => ?_
  cases v <;> first | exact .pure _ | exact .fail _

private theorem respects_list (slot : Nat) : Run.Respects related (scope.list slot) := by
  refine (inputs slot).bind fun v => ?_
  cases v <;> first | exact .pure _ | exact .fail _

omit inputs in
private theorem respects_pure {ports : Ports} {compute : Scope → Run Value}
    (computes : Run.Respects related (compute scope)) (slot : Nat) :
    Run.Respects related ((Behavior.pure ports compute).evaluate scope slot) := by
  show Run.Respects related (if slot = 0 then compute scope else _)
  split
  · exact computes
  · exact .fail _

private theorem respects_arithmetic (name description : String) (a b : Double)
    {compute : Scope → Double → Double → Run Double}
    (computes : ∀ a b, Run.Respects related (compute scope a b)) (slot : Nat) :
    Run.Respects related
      ((arithmetic name description a b compute).behavior.evaluate scope slot) := by
  refine respects_pure ?_ slot
  refine (respects_number inputs 0).bind fun a => ?_
  refine (respects_number inputs 1).bind fun b => ?_
  exact (computes a b).bind fun _ => .pure _

omit inputs in
private theorem respects_carried {β : Type} (carried : Option β) (make : β → Value)
    (what : String) : Run.Respects related (match carried with
      | some value => return make value
      | none => .fail (.missingTriggerData what) : Run Value) := by
  cases carried with
  | none => exact .fail _
  | some value => exact .pure _

omit inputs in
private theorem respects_onEvent
    (triggers : ∀ ctx ctx', related ctx ctx' → ctx'.trigger = ctx.trigger) (slot : Nat) :
    Run.Respects related (onEvent.behavior.evaluate scope slot) := by
  refine (Run.Respects.trigger triggers).bind fun given => ?_
  match slot with
  | 1 => exact respects_carried given.player .player "player"
  | 2 => exact respects_carried given.text .text "text"
  | 3 => exact respects_carried given.number .number "number"
  | 0 | n + 4 => exact .fail _

omit inputs in
private theorem respects_readVariable
    (fetches : ∀ key, Run.Respects related (Scope.fetch? key)) :
    Run.Respects related (readVariable scope) := by
  refine (fetches _).bind fun value? => ?_
  cases value?
  · exact .fail _
  · exact .pure _

omit inputs in
private theorem respects_forEach (fetches : ∀ key, Run.Respects related (Scope.fetch? key))
    (slot : Nat) : Run.Respects related (forEach.behavior.evaluate scope slot) := by
  have slotKey (index : Nat) : Run.Respects related (scope.slotKey index) := by
    unfold Scope.slotKey
    split
    · exact .pure _
    · exact .fail _
  -- All outputs read a variable in the same way, and differ in how its place is found.
  rcases slot with _ | _ | _ | slot <;>
    refine Run.Respects.bind ?_ fun key => (fetches key).bind fun value? => by
      cases value? <;> first | exact .pure _ | exact .fail _
  · exact .fail _
  · exact slotKey 0
  · exact slotKey 1
  · exact .fail _

/-- What a node of the catalog gives hangs on its inputs and on the trigger, and where it gives out
variables on those of the frame. -/
theorem respects_evaluate {type : NodeType} (mem : type ∈ all) (undrawn : type.id ≠ random.id)
    (triggers : ∀ ctx ctx', related ctx ctx' → ctx'.trigger = ctx.trigger)
    (fetches : type.id ∈ variableTypes → ∀ key, Run.Respects related (Scope.fetch? key))
    (slot : Nat) : Run.Respects related (type.behavior.evaluate scope slot) := by
  simp only [all, List.mem_cons, List.not_mem_nil, or_false] at mem
  rcases mem with rfl | rfl | rfl | rfl | rfl | rfl | rfl | rfl | rfl | rfl | rfl | rfl | rfl |
    rfl | rfl | rfl | rfl | rfl | rfl | rfl | rfl | rfl | rfl | rfl | rfl
  · exact respects_onEvent triggers slot
  · exact .fail _
  · exact .fail _
  · exact respects_forEach (fetches (by decide)) slot
  · exact .fail _
  · exact .fail _
  · exact .fail _
  · dsimp only [constant]
    cases literal scope.config with
    | ok value => exact .pure _
    | error why => exact .fail _
  · exact respects_readVariable (fetches (by decide))
  · exact respects_readVariable (fetches (by decide))
  · exact respects_arithmetic inputs _ _ _ _ (fun _ _ => .pure _) slot
  · exact respects_arithmetic inputs _ _ _ _ (fun _ _ => .pure _) slot
  · exact respects_arithmetic inputs _ _ _ _ (fun _ _ => .pure _) slot
  · refine respects_arithmetic inputs _ _ _ _ (fun a b => ?_) slot
    split
    · exact .fail _
    · exact .pure _
  · exact absurd rfl undrawn
  · refine (respects_number inputs 0).bind fun a => (respects_number inputs 1).bind fun b => ?_
    dsimp only
    cases comparison? (operator.value scope.config) <;> first | exact .pure _ | exact .fail _
  · refine respects_pure ((respects_boolean inputs 0).bind fun a => ?_) slot
    cases a
    · exact .pure _
    · exact (respects_boolean inputs 1).bind fun _ => .pure _
  · refine respects_pure ((respects_boolean inputs 0).bind fun a => ?_) slot
    cases a
    · exact (respects_boolean inputs 1).bind fun _ => .pure _
    · exact .pure _
  · exact respects_pure ((respects_boolean inputs 0).bind fun _ => .pure _) slot
  · exact respects_pure ((respects_text inputs 0).bind fun _ => (respects_text inputs 1).bind
      fun _ => .pure _) slot
  · exact (inputs 0).bind fun _ => .pure _
  · exact (respects_list inputs 0).bind fun _ => .pure _
  · refine (respects_list inputs 0).bind fun items => ?_
    refine (respects_number inputs 1).bind fun index => ?_
    split
    · exact .pure _
    · exact .fail _
  · exact (respects_list inputs 0).bind fun _ => (inputs 1).bind fun _ => .pure _
  · refine (inputs 0).bind fun value => ?_
    cases value.field? (fieldName.value scope.config) <;> first | exact .pure _ | exact .fail _

end

end Catalog

end NodeScript
