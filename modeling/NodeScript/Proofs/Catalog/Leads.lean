import NodeScript.Proofs.Catalog.Typed

/-!
Control leaves nodes through signals. Whatever the inputs of a node give, control goes on at one of
its signal outputs, and it runs no chains but those behind such outputs. Main statement:
`Registry.builtin_leads`.
-/

set_option autoImplicit false
set_option relaxedAutoImplicit false

namespace NodeScript

open Run

namespace Run

variable {α β : Type}

def Yields (post : α → Prop) (run : Run α) : Prop :=
  ∀ ctx a, (run.runAt ctx).1 = .ok a → post a

namespace Yields

variable {post : α → Prop}

theorem pure {a : α} (holds : post a) : Yields post (Pure.pure a) := by
  intro _ _ done
  obtain rfl := Except.ok.inj done
  exact holds

theorem fail (error : RunError) : Yields post (fail error) := by
  intro _ _ done
  simp at done

theorem bind {post : β → Prop} {run : Run α} {next : α → Run β}
    (rest : ∀ a, Yields post (next a)) : Yields post (run >>= next) := by
  intro ctx b done
  rw [runAt_bind] at done
  generalize run.runAt ctx = outcome at done
  obtain ⟨result, after⟩ := outcome
  cases result with
  | ok a => exact rest a after b done
  | error stop => simp at done

end Yields

end Run

/-- Control goes on at signals of a node, and only the chains behind signals of it matter. -/
structure Behavior.Leads (behavior : Behavior) : Prop where
  next : ∀ {known ports} {scope : Scope}, behavior.ports scope.config known = .ok ports →
    ∀ slot, Yields ports.Leads (behavior.execute scope slot)
  chains : ∀ {known ports} {scope : Scope}, behavior.ports scope.config known = .ok ports →
    ∀ chains : Nat → Run Unit, (∀ slot port, ports.outputs[slot]? = some port →
      port.isSignal = true → chains slot = scope.fire slot) →
    ∀ slot, behavior.execute { scope with fire := chains } slot = behavior.execute scope slot

private theorem leads_never {behavior : Behavior}
    (never : ∀ scope slot, behavior.execute scope slot = .fail (.notASignalInput scope.node slot)) :
    behavior.Leads where
  next _ slot := by
    rw [never _ slot]
    exact .fail _
  chains _ _ _ slot := by rw [never, never]

private theorem leads_next {behavior : Behavior}
    (next : ∀ {known ports} {scope : Scope}, behavior.ports scope.config known = .ok ports →
      ∀ slot, Yields ports.Leads (behavior.execute scope slot))
    (chains : ∀ (scope : Scope) (chains : Nat → Run Unit) slot,
      behavior.execute { scope with fire := chains } slot = behavior.execute scope slot) :
    behavior.Leads :=
  ⟨next, fun _ _ _ _ => chains _ _ _⟩

namespace Catalog

private theorem leads_branch : branch.behavior.Leads := by
  refine leads_next (fun given slot => .bind fun holds => ?_) fun _ _ _ => rfl
  obtain rfl := Except.ok.inj given
  cases holds with
  | true => exact .pure (leads rfl rfl)
  | false => exact .pure (leads rfl rfl)

private theorem leads_repeatWhile : repeatWhile.behavior.Leads where
  next given _ := .bind fun _ => by
    obtain rfl := Except.ok.inj given
    exact .pure (leads rfl rfl)
  chains := by
    intro known _ scope given chains same slot
    obtain rfl := Except.ok.inj given
    show Run.repeatWhile (scope.boolean 1) (chains 0) scope.fuel >>= _ = _
    rw [same 0 (.signal "body") rfl rfl]
    rfl

private theorem leads_forEach : forEach.behavior.Leads where
  next given _ := by
    obtain ⟨type, -, rfl⟩ := ports_of_setting given
    exact .bind fun _ => .bind fun _ => .bind fun _ => .bind fun _ => .pure (leads rfl rfl)
  chains := by
    intro known ports scope given chains same slot
    have body : chains 0 = scope.fire 0 := by
      obtain ⟨type, -, rfl⟩ := ports_of_setting given
      exact same 0 (.signal "body") rfl rfl
    show (scope.list 1 >>= fun items => scope.slotKey 0 >>= fun element =>
      scope.slotKey 1 >>= fun index => (items.zipIdx.forM fun item => do
        Scope.store element item.1
        Scope.store index (.number (Double.ofInt item.2))
        chains 0) >>= fun _ => (return Flow.next 3)) = _
    rw [body]
    rfl

private theorem leads_sequence : sequence.behavior.Leads where
  next given _ := .bind fun _ => .pure (leads_done _)
  chains := by
    intro known _ scope given chains same slot
    obtain rfl := Except.ok.inj given
    have each : ∀ i ∈ List.range (sequenceLength scope.config), chains i = scope.fire i := by
      intro i mem
      have within := List.mem_range.1 mem
      exact same i (.signal s!"then_{i}") (by simp [List.getElem?_range within]) rfl
    have all : (List.range (sequenceLength scope.config)).forM chains =
        (List.range (sequenceLength scope.config)).forM scope.fire := by
      generalize List.range (sequenceLength scope.config) = items at each
      induction items with
      | nil => rfl
      | cons i items ih =>
        rw [List.forall_mem_cons] at each
        show (chains i >>= fun _ => items.forM chains) =
          scope.fire i >>= fun _ => items.forM scope.fire
        rw [each.1, ih each.2]
    show (List.range (sequenceLength scope.config)).forM chains >>= _ = _
    rw [all]
    rfl

private theorem leads_log : log.behavior.Leads :=
  leads_next (fun given _ => .bind fun _ => by
    obtain rfl := Except.ok.inj given
    exact .pure (leads rfl rfl)) fun _ _ _ => rfl

private theorem leads_message : message.behavior.Leads := by
  refine leads_next (fun given _ => .bind fun _ => .bind fun value? => ?_) fun _ _ _ => rfl
  obtain rfl := Except.ok.inj given
  rcases value? with _ | _ | _ | _ | player | _ | _
  · exact .bind fun _ => .bind fun _ => .pure (leads rfl rfl)
  all_goals exact .bind fun _ => .pure (leads rfl rfl)

private theorem leads_setVariable : setVariable.behavior.Leads := by
  refine leads_next (fun given _ => .bind fun _ => .bind fun _ => ?_) fun _ _ _ => rfl
  obtain ⟨type, -, rfl⟩ := ports_of_setting given
  exact .pure (leads rfl rfl)

theorem all_leads {type : NodeType} (h : type ∈ all) : type.behavior.Leads := by
  simp only [all, List.mem_cons, List.not_mem_nil, or_false] at h
  rcases h with rfl | rfl | rfl | rfl | rfl | rfl | rfl | rfl | rfl | rfl | rfl | rfl | rfl | rfl |
    rfl | rfl | rfl | rfl | rfl | rfl | rfl | rfl | rfl | rfl | rfl
  case inr.inl => exact leads_branch
  case inr.inr.inl => exact leads_repeatWhile
  case inr.inr.inr.inl => exact leads_forEach
  case inr.inr.inr.inr.inl => exact leads_sequence
  case inr.inr.inr.inr.inr.inl => exact leads_log
  case inr.inr.inr.inr.inr.inr.inl => exact leads_message
  case inr.inr.inr.inr.inr.inr.inr.inr.inr.inl => exact leads_setVariable
  all_goals exact leads_never fun _ _ => rfl

end Catalog

/-- Control leaves the nodes of all types of a registry through signals. -/
def Registry.Leads (registry : Registry) : Prop :=
  ∀ id behavior, registry.behavior? id = some behavior → behavior.Leads

theorem Registry.builtin_leads : builtin.Leads := by
  intro id behavior found
  obtain ⟨type, registered, rfl⟩ := Option.map_eq_some_iff.1 found
  exact Catalog.all_leads (mem_of_find? registered).1

end NodeScript
