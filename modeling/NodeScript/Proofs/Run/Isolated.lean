import NodeScript.Proofs.Graph.Edit
import NodeScript.Proofs.Run.Compiled
import NodeScript.Proofs.Run.Kept
import NodeScript.Proofs.Run.Watched

/-!
Calls leave the frames of their callers alone. `Machine.closing` runs the parts of a machine with
another way to close frames; that it makes no difference says that no frame is ever closed but that
of a call. Main statement: `Graph.run_isolated`.
-/

set_option autoImplicit false
set_option relaxedAutoImplicit false

namespace NodeScript

open Run Context

namespace Machine

/-- The parts of a run in which frames are closed in some way. -/
def closing (machine : Machine) (close : Close) : Nat → Parts
  | 0 => ⟨fun _ => throw .outOfFuel, fun _ => throw .outOfFuel, fun _ => throw .outOfFuel,
      fun _ => throw .outOfFuel⟩
  | fuel + 1 =>
    { fire := machine.fireWith (machine.closing close fuel)
      execute := fun target => machine.executeWith fuel (machine.closing close fuel) target close
      pull := machine.pullWith (machine.closing close fuel)
      evaluate := fun source =>
        machine.evaluateWith fuel (machine.closing close fuel) source close }

def partsWith (machine : Machine) (fuel : Nat) (parts : Parts) (close : Close := Context.pop) :
    Parts where
  fire := machine.fireWith parts
  execute target := machine.executeWith fuel parts target close
  pull := machine.pullWith parts
  evaluate source := machine.evaluateWith fuel parts source close

theorem closing_pop (machine : Machine) (fuel : Nat) :
    machine.closing Context.pop fuel = machine.parts fuel := by
  induction fuel with
  | zero => rfl
  | succ fuel ih =>
    rw [closing, ih]
    rfl

/-- The parts of a run do as others do and keep what they may not change. -/
structure Parts.Agree (delay : Delay) (room : Nat) (parts parts' : Parts) : Prop where
  fire : ∀ source, Agrees delay room True (parts.fire source) (parts'.fire source)
  execute : ∀ target, Agrees delay room True (parts.execute target) (parts'.execute target)
  pull : ∀ target, Agrees delay room False (parts.pull target) (parts'.pull target)
  evaluate : ∀ source, Agrees delay room False (parts.evaluate source) (parts'.evaluate source)

section

variable {machine : Machine} {close : Close} {parts parts' : Parts} {delay : Delay}
  {acts : Prop} {room fuel : Nat}

theorem kept_step (acts : Prop) (ctx : Context) :
    Kept acts ctx { ctx with steps := ctx.steps + 1 } := by
  exact ⟨rfl, rfl, rfl, List.prefix_refl _, Nat.le_succ _, fun _ => ⟨rfl, rfl⟩⟩

theorem agrees_step : Agrees delay room acts step step := by
  refine .changing (kept_step acts) fun ctx => ?_
  simp only [later, Nat.add_right_comm]

theorem agrees_boundaryNodes (call : NodeId) (f : FunctionId) :
    Agrees delay room acts (machine.boundaryNodes call f) (machine.boundaryNodes call f) := by
  unfold boundaryNodes
  split
  · exact .pure _
  · exact .fail _

theorem agrees_currentCall (boundary : NodeId) (f : FunctionId) :
    Agrees delay room acts (machine.currentCall boundary f) (machine.currentCall boundary f) := by
  intro ctx _
  rw [runAt_currentCall, runAt_currentCall]
  exact ⟨rfl, .refl _ ctx⟩

theorem called_of_currentCall {boundary call : NodeId} {f : FunctionId} {ctx ctx' : Context}
    (found : (machine.currentCall boundary f).runAt ctx = (.ok call, ctx')) :
    ctx' = ctx ∧ ctx.top.call = some call ∧ machine.graph.HasKind call (.call f) := by
  obtain ⟨other, opened, calls, done⟩ | ⟨-, stopped⟩ := machine.currentCall_cases boundary f ctx
  · rw [done, Prod.mk.injEq, Except.ok.injEq] at found
    obtain ⟨rfl, rfl⟩ := found
    exact ⟨rfl, opened, calls⟩
  · simp [stopped] at found

theorem openCall_bind {β : Type} (machine : Machine) (call : NodeId) (next : Unit → Run β) :
    machine.openCall call >>= next = (get : Run Context) >>= fun ctx =>
      if machine.maxCallDepth < ctx.depth then .fail (.callDepthExceeded machine.maxCallDepth)
      else modify (Context.push { call := some call }) >>= next := by
  refine Run.ext fun ctx => ?_
  rw [runAt_bind, runAt_bind, runAt_openCall, runAt_get]
  by_cases deep : machine.maxCallDepth < ctx.depth
  · simp only [if_pos deep, runAt_fail]
  · simp only [if_neg deep, runAt_bind, runAt_modify]

theorem agrees_openCall (limit : machine.maxCallDepth < room)
    (closes : ∀ ctx, ctx.callers ≠ [] → close ctx = ctx.pop) {α β : Type}
    {run run' : Run α} (agrees : Agrees delay room acts run run')
    {next next' : Except Stop α × Frame → Run β}
    (rest : ∀ result, Agrees delay room acts (next result) (next' result)) (call : NodeId) :
    Agrees delay room acts (machine.openCall call >>= fun _ => leaving run close >>= next)
      (machine.openCall call >>= fun _ => leaving run' >>= next') := by
  rw [openCall_bind, openCall_bind]
  intro ctx within
  rw [runAt_bind, runAt_bind, runAt_get, runAt_get]
  dsimp only
  have depth : (ctx.later delay).depth = ctx.depth := rfl
  rw [depth]
  split
  · exact Agrees.fail _ ctx within
  · rename_i shallow
    rw [runAt_bind, runAt_bind, runAt_modify, runAt_modify]
    exact Agrees.leaving closes agrees rest within (by omega) call

theorem agrees_liftExcept {α : Type} (result : Except Stop α) :
    Agrees delay room acts (liftExcept result : Run α) (liftExcept result) := by
  intro ctx _
  cases result <;> exact ⟨rfl, .refl _ ctx⟩

section

variable (agree : parts.Agree delay room parts')
include agree

theorem agrees_scope (id : NodeId) (config : Json) :
    (machine.scope fuel parts id config).Agrees delay room (machine.scope fuel parts' id config) :=
  ⟨rfl, rfl, rfl, rfl, fun slot => agree.pull ⟨id, slot⟩, fun slot => agree.fire ⟨id, slot⟩⟩

theorem agrees_fireWith (source : OutputRef) :
    Agrees delay room True (machine.fireWith parts source) (machine.fireWith parts' source) := by
  rw [fireWith_eq, fireWith_eq]
  split
  · exact .pure ()
  · refine (agree.execute _).bind fun flow => ?_
    cases flow with
    | next slot => exact agree.fire _
    | done => exact .pure ()

theorem agrees_pullWith (target : InputRef) :
    Agrees delay room False (machine.pullWith parts target) (machine.pullWith parts' target) := by
  rw [pullWith_eq, pullWith_eq]
  split
  · exact .fail _
  · split
    · exact agree.evaluate _
    · split
      · exact .pure _
      · exact .fail _

theorem agrees_collect (target : InputRef) (node : Node) (f : FunctionId) :
    Agrees delay room True (machine.collect parts target node f)
      (machine.collect parts' target node f) := by
  refine (agrees_currentCall _ _).bind fun _ => ?_
  have each (item : Input × Nat) : Agrees delay room True
      (if item.1.port.isSignal then pure none
        else (parts.pull ⟨target.node, item.2⟩).orMissing : Run (Option Value))
      (if item.1.port.isSignal then pure none
        else (parts'.pull ⟨target.node, item.2⟩).orMissing) := by
    split
    · exact .pure none
    · exact (agree.pull ⟨target.node, item.2⟩).acting.orMissing
  refine (Agrees.mapM each).bind fun results => ?_
  refine (Agrees.changing (fun ctx => ?_) fun ctx => ?_).bind fun _ => .pure _
  · exact ⟨rfl, rfl, rfl, List.prefix_refl _, Nat.le_refl _, fun reads => (reads trivial).elim⟩
  · rfl

theorem agrees_construct (source : OutputRef) (s : StructId) :
    Agrees delay room False (machine.construct parts source s)
      (machine.construct parts' source s) := by
  rw [construct_eq, construct_eq]
  split
  · exact .fail _
  · refine (Agrees.mapM fun item => ?_).bind fun _ => .pure _
    exact (agree.pull ⟨source.node, item.2⟩).bind fun _ => .pure _

variable (closes : ∀ ctx, ctx.callers ≠ [] → close ctx = ctx.pop)
include closes

theorem agrees_argument (source : OutputRef) (f : FunctionId) :
    Agrees delay room False
      (machine.currentCall source.node f >>= fun call =>
        inCaller (parts.pull ⟨call, source.slot⟩) close)
      (machine.currentCall source.node f >>= fun call =>
        inCaller (parts'.pull ⟨call, source.slot⟩)) := by
  intro ctx within
  obtain ⟨same, -⟩ : _ ∧ Kept False ctx _ := agrees_currentCall source.node f ctx within
  rw [runAt_bind, runAt_bind, same]
  rcases found : (machine.currentCall source.node f).runAt ctx with ⟨result, ctx'⟩
  cases result with
  | error stop =>
    have same : ctx' = ctx := by
      rw [runAt_currentCall] at found
      exact (congrArg Prod.snd found).symm
    rw [same]
    exact ⟨rfl, Kept.refl _ _⟩
  | ok call =>
    obtain ⟨rfl, opened, -⟩ := called_of_currentCall found
    exact Agrees.inCaller closes (agree.pull ⟨call, source.slot⟩) within opened

variable (limit : machine.maxCallDepth < room)
include limit

theorem agrees_call (target : InputRef) (f : FunctionId) :
    Agrees delay room True (machine.call parts target f close) (machine.call parts' target f) := by
  refine (agrees_boundaryNodes _ _).bind fun nodes => ?_
  refine agrees_openCall limit closes (agree.fire ⟨nodes.1, target.slot⟩) (fun outcome => ?_)
    target.node
  refine (agrees_liftExcept _).bind fun _ => ?_
  cases outcome.2.returned with
  | none => exact .pure _
  | some exit =>
    refine (Agrees.changing (fun ctx => ?_) fun ctx => ?_).bind fun _ => .pure _
    · exact ⟨rfl, rfl, rfl, List.prefix_refl _, Nat.le_refl _, fun reads => (reads trivial).elim⟩
    · rfl

theorem agrees_callOutput (source : OutputRef) (f : FunctionId) :
    Agrees delay room False (machine.callOutput parts source f close)
      (machine.callOutput parts' source f) := by
  refine .looking (fun _ => rfl) fun ctx => ?_
  split
  · exact .pure _
  · refine (agrees_boundaryNodes _ _).bind fun nodes => ?_
    exact agrees_openCall limit closes (agree.pull ⟨nodes.2, source.slot⟩)
      (fun outcome => agrees_liftExcept _) source.node

variable {draws : Prop} (redraws : draws → delay.redraw = id)
  (made : ∀ id behavior, machine.program.behavior? id = some behavior → behavior.Made draws)
include redraws made

theorem agrees_executeWith (target : InputRef) :
    Agrees delay room True (machine.executeWith fuel parts target close)
      (machine.executeWith fuel parts' target) := by
  unfold executeWith
  split
  · exact .fail _
  · refine agrees_step.bind fun _ => ?_
    split
    · rw [Machine.behavior]
      split
      · rename_i behavior found
        exact ((made _ behavior found).execute target.slot).agrees redraws (agrees_scope agree _ _)
      · exact .fail _
    · exact agrees_call agree closes limit target _
    · exact agrees_collect agree target _ _
    · exact .fail _
    · exact .fail _

theorem agrees_evaluateWith (source : OutputRef) :
    Agrees delay room False (machine.evaluateWith fuel parts source close)
      (machine.evaluateWith fuel parts' source) := by
  rw [evaluateWith_eq, evaluateWith_eq]
  split
  · exact .fail _
  · split
    · exact .fail _
    · refine agrees_step.bind fun _ => ?_
      split
      · rw [Machine.behavior]
        split
        · rename_i behavior found
          exact ((made _ behavior found).evaluate source.slot).agrees redraws
            (agrees_scope agree _ _)
        · exact .fail _
      · exact agrees_callOutput agree closes limit source _
      · exact agrees_argument agree closes source _
      · exact agrees_construct agree source _
      · exact .fail _

theorem agrees_partsWith :
    (machine.partsWith fuel parts close).Agree delay room (machine.partsWith fuel parts') where
  fire := agrees_fireWith agree
  execute := agrees_executeWith agree closes limit redraws made
  pull := agrees_pullWith agree
  evaluate := agrees_evaluateWith agree closes limit redraws made

end

theorem closing_agree (closes : ∀ ctx, ctx.callers ≠ [] → close ctx = ctx.pop)
    (limit : machine.maxCallDepth < room) {draws : Prop} (redraws : draws → delay.redraw = id)
    (made : ∀ id behavior, machine.program.behavior? id = some behavior → behavior.Made draws)
    (fuel : Nat) : (machine.closing close fuel).Agree delay room (machine.parts fuel) := by
  induction fuel with
  | zero => exact ⟨fun _ => .throw _, fun _ => .throw _, fun _ => .throw _, fun _ => .throw _⟩
  | succ fuel ih => exact agrees_partsWith ih closes limit redraws made

/-- What a call leaves of the frame it is made from: what it left behind is kept there if its body
returned, and nothing else changes. -/
def CallLeaves (call : NodeId) (ctx : Context) (after : Except Stop Flow × Context) : Prop :=
  (∃ exit results, after.1 = .ok (.next exit) ∧ after.2.top =
      { ctx.top with callResults := Assoc.put call results ctx.top.callResults }) ∨
    (∀ exit, after.1 ≠ .ok (.next exit)) ∧ after.2.top = ctx.top

theorem CallLeaves.stopped {call : NodeId} {ctx after : Context} (stop : Stop)
    (top : after.top = ctx.top) : CallLeaves call ctx (.error stop, after) := by
  exact .inr ⟨fun _ => by simp, top⟩

def afterBody (call : NodeId) (outcome : Except Stop Unit × Frame) : Run Flow :=
  liftExcept outcome.1 >>= fun _ =>
    match outcome.2.returned with
    | some exit => modify (fun ctx => { ctx with top := { ctx.top with
        callResults := Assoc.put call outcome.2.results ctx.top.callResults } }) >>=
          fun _ => pure (.next exit)
    | none => pure .done

theorem call_eq (machine : Machine) (parts : Parts) (target : InputRef) (f : FunctionId) :
    machine.call parts target f = machine.boundaryNodes target.node f >>= fun nodes =>
      machine.openCall target.node >>= fun _ =>
        leaving (parts.fire ⟨nodes.1, target.slot⟩) >>= afterBody target.node := rfl

theorem afterBody_leaves {call : NodeId} {ctx after : Context} (top : after.top = ctx.top)
    (outcome : Except Stop Unit × Frame) :
    CallLeaves call ctx ((afterBody call outcome).runAt after) := by
  obtain ⟨result, frame⟩ := outcome
  unfold afterBody
  rw [runAt_bind]
  cases result with
  | error stop => exact .stopped stop top
  | ok _ =>
    show CallLeaves call ctx ((match frame.returned with
      | some exit => modify (fun ctx => { ctx with top := { ctx.top with
          callResults := Assoc.put call frame.results ctx.top.callResults } }) >>=
            fun _ => pure (.next exit)
      | none => pure .done : Run Flow).runAt after)
    cases frame.returned with
    | none => exact .inr ⟨fun exit => by simp, top⟩
    | some exit =>
      refine .inl ⟨exit, frame.results, rfl, ?_⟩
      rw [runAt_bind, runAt_modify, ← top]
      rfl

theorem call_leaves (limit : machine.maxCallDepth < room) (agree : parts.Agree .none room parts)
    {ctx : Context} (within : ctx.Within room) (target : InputRef) (f : FunctionId) :
    CallLeaves target.node ctx ((machine.call parts target f).runAt ctx) := by
  rw [call_eq, Machine.boundaryNodes]
  split
  · rename_i id signature entry exit found
    rw [pure_bind, openCall_bind, runAt_bind, runAt_get]
    dsimp only
    split
    · exact .stopped _ rfl
    · rename_i shallow
      have closes (ctx : Context) (_ : ctx.callers ≠ []) : Context.pop ctx = ctx.pop := rfl
      obtain ⟨-, -, top⟩ := Agrees.leaving_kept closes (agree.fire ⟨entry, target.slot⟩)
        within (by omega) target.node
      rw [runAt_bind, runAt_modify]
      dsimp only
      rw [runAt_bind]
      rw [runAt_leaving] at top ⊢
      exact afterBody_leaves top _
  · exact .stopped _ rfl

theorem parts_agree (limit : machine.maxCallDepth < room) {draws : Prop}
    (redraws : draws → delay.redraw = id)
    (made : ∀ id behavior, machine.program.behavior? id = some behavior → behavior.Made draws)
    (fuel : Nat) : (machine.parts fuel).Agree delay room (machine.parts fuel) := by
  have closes (ctx : Context) (_ : ctx.callers ≠ []) : Context.pop ctx = ctx.pop := rfl
  have agree := closing_agree closes limit redraws made fuel
  rwa [closing_pop] at agree

theorem runAt_execute_call {target : InputRef} {f : FunctionId}
    (kind : machine.graph.HasKind target.node (.call f)) (fuel : Nat) (ctx : Context) :
    (machine.execute (fuel + 1) target).runAt ctx =
      (machine.call (machine.parts fuel) target f).runAt { ctx with steps := ctx.steps + 1 } := by
  obtain ⟨node, here, called⟩ := Graph.hasKind_iff.1 kind
  show (machine.executeWith fuel (machine.parts fuel) target).runAt ctx = _
  unfold executeWith
  rw [here]
  dsimp only
  rw [runAt_bind, called]
  rfl

theorem execute_leaves (limit : machine.maxCallDepth < room)
    (made : ∀ id behavior, machine.program.behavior? id = some behavior → behavior.Made)
    {ctx : Context} (within : ctx.Within room) {target : InputRef} {f : FunctionId}
    (kind : machine.graph.HasKind target.node (.call f)) (fuel : Nat) :
    CallLeaves target.node ctx ((machine.execute fuel target).runAt ctx) := by
  cases fuel with
  | zero => exact .stopped _ rfl
  | succ fuel =>
    rw [runAt_execute_call kind]
    have counted := (kept_step True ctx).within within
    exact call_leaves limit (parts_agree limit (fun _ => rfl) made fuel) counted target f

end

end Machine

namespace Graph

variable {graph : Graph} {maxCallDepth : Nat}

theorem made_machine {id : NodeId} {behavior : Behavior}
    (found : (graph.machine .builtin maxCallDepth).program.behavior? id = some behavior) :
    behavior.Made := by
  obtain ⟨type, registered⟩ := registered_machine found
  exact Registry.builtin_made type behavior registered

/-- Whatever control does, the frames below the innermost one are as they were, and so are the
trigger and the messages sent before. A call keeps what its body left behind and changes nothing
else in the frame it is made from. No frame is closed that has no caller, so it makes no difference
what becomes of such a frame. -/
theorem run_isolated (graph : Graph) (maxCallDepth : Nat) {ctx : Context} (grounded : ctx.Grounded)
    {close : Machine.Close} (closes : ∀ ctx, ctx.callers ≠ [] → close ctx = ctx.pop) (fuel : Nat) :
    let machine := graph.machine .builtin maxCallDepth
    (∀ source, Kept True ctx ((machine.fire fuel source).runAt ctx).2) ∧
    (∀ target, Kept True ctx ((machine.execute fuel target).runAt ctx).2) ∧
    (∀ target f, graph.HasKind target.node (.call f) →
      Machine.CallLeaves target.node ctx ((machine.execute fuel target).runAt ctx)) ∧
    (∀ source, ((machine.closing close fuel).fire source).runAt ctx =
      (machine.fire fuel source).runAt ctx) ∧
    (∀ target, ((machine.closing close fuel).execute target).runAt ctx =
      (machine.execute fuel target).runAt ctx) := by
  intro machine
  have made : ∀ id behavior, machine.program.behavior? id = some behavior → behavior.Made := by
    intro id behavior found
    obtain ⟨type, registered⟩ := registered_machine found
    exact Registry.builtin_made type behavior registered
  obtain ⟨room, limit, within⟩ := Context.exists_within grounded.outermost maxCallDepth
  have agree : (machine.closing close fuel).Agree .none room (machine.parts fuel) :=
    Machine.closing_agree closes limit (fun _ => rfl) made fuel
  exact ⟨fun source => (agree.fire source ctx within).2,
    fun target => (agree.execute target ctx within).2,
    fun target f kind => Machine.execute_leaves limit made within kind fuel,
    fun source => (agree.fire source ctx within).1,
    fun target => (agree.execute target ctx within).1⟩

end Graph

def Edit.returning : List Edit := [
  .defineFunction
    { name := "f", inputs := [("in", .signal), ("x", .number)],
      outputs := [("out", .signal), ("y", .number)] } .zero,
  .connect ⟨⟨0⟩, 0⟩ ⟨⟨1⟩, 0⟩ [],
  .connect ⟨⟨0⟩, 1⟩ ⟨⟨1⟩, 1⟩ [],
  .addCall ⟨0⟩ .zero,
  .setInset ⟨⟨2⟩, 1⟩ (some (.number 1))]

/-- A context in the midst of a call. -/
def Context.called (call : NodeId) : Context where
  trigger := {}
  top := { call := some call, vars := [(.named "v", .boolean true)] }
  callers := [{}]

def Machine.closeOrRestart : Machine.Close := fun ctx =>
  if ctx.callers.isEmpty then ({}, .ofTrigger ctx.trigger) else ctx.pop

theorem returning_isolated : ∃ graph,
    Edit.returning.foldlM (Edit.apply Registry.builtin) .empty = .ok graph ∧
      (Context.called ⟨2⟩).Grounded ∧
      (((graph.machine .builtin 8).execute 8 ⟨⟨2⟩, 0⟩).runAt (.called ⟨2⟩)).1 = .ok (.next 0) ∧
      Machine.CallLeaves ⟨2⟩ (.called ⟨2⟩)
        (((graph.machine .builtin 8).execute 8 ⟨⟨2⟩, 0⟩).runAt (.called ⟨2⟩)) ∧
      (((graph.machine .builtin 8).closing Machine.closeOrRestart 8).execute ⟨⟨2⟩, 0⟩).runAt
          (.called ⟨2⟩) =
        ((graph.machine .builtin 8).execute 8 ⟨⟨2⟩, 0⟩).runAt (.called ⟨2⟩) := by
  have facts : ∃ graph ∈ (Edit.returning.foldlM (Edit.apply Registry.builtin) .empty).toOption,
      (graph.node? ⟨2⟩).any (·.kind == .call ⟨0⟩) ∧
        (((graph.machine .builtin 8).execute 8 ⟨⟨2⟩, 0⟩).runAt (.called ⟨2⟩)).1 =
          .ok (.next 0) := by decide +kernel
  obtain ⟨graph, built, kind, returned⟩ := facts
  have grounded : (Context.called ⟨2⟩).Grounded := by
    refine ⟨rfl, fun frame mem => ?_⟩
    obtain rfl := List.mem_singleton.1 mem
    rfl
  have closes (ctx : Context) (inner : ctx.callers ≠ []) :
      Machine.closeOrRestart ctx = ctx.pop := by
    simp [Machine.closeOrRestart, inner]
  obtain ⟨-, -, leaves, -, same⟩ := Graph.run_isolated graph 8 grounded closes 8
  exact ⟨graph, Accepted.toOption_eq_some_iff.1 built, grounded, returned,
    leaves ⟨⟨2⟩, 0⟩ ⟨0⟩ (Machine.any_kind_iff.1 kind), same ⟨⟨2⟩, 0⟩⟩

end NodeScript
