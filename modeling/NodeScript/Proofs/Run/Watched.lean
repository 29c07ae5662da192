import NodeScript.Proofs.Catalog.Parametric
import NodeScript.Proofs.Graph.Sound

/-!
Runs whose readings are watched, and runs of one machine that do as those of another one.
`Machine.watched` runs the parts of a machine with something done at each reading of an input. Main
statement: `Machine.Simulates.parts_follow`.
-/

set_option autoImplicit false
set_option relaxedAutoImplicit false

namespace NodeScript

open Run

namespace Machine

/-- The parts of a run in which every reading of an input is watched. -/
def watched (machine : Machine) (watch : InputRef → Run Value → Run Value) : Nat → Parts
  | 0 => ⟨fun _ => throw .outOfFuel, fun _ => throw .outOfFuel, fun _ => throw .outOfFuel,
      fun _ => throw .outOfFuel⟩
  | fuel + 1 =>
    { fire := machine.fireWith (machine.watched watch fuel)
      execute := machine.executeWith fuel (machine.watched watch fuel)
      pull := fun target => watch target (machine.pullWith (machine.watched watch fuel) target)
      evaluate := machine.evaluateWith fuel (machine.watched watch fuel) }

/-- Runs from an entry point while every reading of an input is watched. -/
def emitWatched (machine : Machine) (watch : InputRef → Run Value → Run Value) (fuel : Nat)
    (entry : EntryPoint) : Run Unit :=
  match machine.program.entries.root? entry with
  | some root => (machine.watched watch fuel).fire root
  | none => .fail (.unknownEntryPoint entry)

/-- The parts of a run. -/
def parts (machine : Machine) (fuel : Nat) : Parts :=
  ⟨machine.fire fuel, machine.execute fuel, machine.pull fuel, machine.evaluate fuel⟩

theorem watched_eq_parts (machine : Machine) (fuel : Nat) :
    machine.watched (fun _ read => read) fuel = machine.parts fuel := by
  induction fuel with
  | zero => rfl
  | succ fuel ih =>
    rw [watched, ih]
    rfl

theorem emitWatched_eq_emit (machine : Machine) (fuel : Nat) (entry : EntryPoint) :
    machine.emitWatched (fun _ read => read) fuel entry = machine.emit fuel entry := by
  unfold emitWatched emit
  rw [watched_eq_parts]
  rfl

/-- The parts of a run follow others, at some of the nodes; what comes to a dead side of a node,
control at its inputs or the demand for a value at its outputs, stops. -/
structure Parts.Follows (excused : Stop → Prop) (visible : NodeId → Prop)
    (dead : Side → NodeId → Prop) (parts parts' : Parts) : Prop where
  fire : ∀ source, visible source.node →
    Run.Follows excused (parts.fire source) (parts'.fire source)
  execute : ∀ target, visible target.node →
    Run.Follows excused (parts.execute target) (parts'.execute target)
  pull : ∀ target, visible target.node →
    Run.Follows excused (parts.pull target) (parts'.pull target)
  evaluate : ∀ source, visible source.node →
    Run.Follows excused (parts.evaluate source) (parts'.evaluate source)
  stuck : ∀ target, dead .input target.node → Stops excused (parts.execute target)
  dry : ∀ source, dead .output source.node → Stops excused (parts.evaluate source)

/-- What runs can see of a machine whose readings are watched is there in another machine, or
makes them stop. -/
structure Simulates (excused : Stop → Prop) (visible : NodeId → Prop)
    (dead : Side → NodeId → Prop) (watch : InputRef → Run Value → Run Value)
    (machine machine' : Machine) : Prop where
  caught : ∀ node input, ¬excused (.fault (.missingValue node input))
  limit : machine'.maxCallDepth = machine.maxCallDepth ∨
    machine.maxCallDepth ≤ machine'.maxCallDepth ∧
      excused (.fault (.callDepthExceeded machine.maxCallDepth))
  behavior : ∀ id, visible id → machine'.program.behavior? id = machine.program.behavior? id
  parametric : ∀ id behavior, machine.program.behavior? id = some behavior → behavior.Parametric
  slots : ∀ id, visible id →
    machine'.program.entries.slotsOf id = machine.program.entries.slotsOf id
  node : ∀ id, visible id → machine'.graph.bare? id = machine.graph.bare? id
  calls : ∀ id f, machine'.graph.HasKind id (.call f) ↔ machine.graph.HasKind id (.call f)
  callers : ∀ id f, machine.graph.HasKind id (.call f) → visible id
  functions : ∀ call f, machine.graph.HasKind call (.call f) →
    machine'.graph.function? f = machine.graph.function? f
  boundaries : ∀ call f entry, machine.graph.HasKind call (.call f) →
    machine.graph.function? f = some entry → ∀ id,
    entry.input = some id ∨ entry.output = some id → visible id
  schemas : ∀ id s, visible id → machine.graph.HasKind id (.construct s) →
    machine'.graph.schemaAt? s = machine.graph.schemaAt? s
  targets : ∀ source, visible source.node →
    (machine'.graph.signalTarget? source = machine.graph.signalTarget? source ∧
      ∀ target, machine.graph.signalTarget? source = some target → visible target.node) ∨
    ∃ target, machine.graph.signalTarget? source = some target ∧ dead .input target.node
  spent : ∀ side id, dead side id → excused .outOfFuel
  stuck : ∀ fuel parts target, dead .input target.node →
    Stops excused (machine.executeWith fuel parts target)
  dry : ∀ fuel parts source, dead .output source.node →
    Stops excused (machine.evaluateWith fuel parts source)
  sources : ∀ target input, visible target.node → machine.graph.input? target = some input →
    (∀ input', machine'.graph.input? target = some input' → input'.source? = input.source?) ∧
      (∀ source, input.source? = some source → visible source.node) ∨
    (∃ source, input.source? = some source ∧ dead .output source.node) ∨
    ∀ read, Stops excused (watch target read)
  watch : ∀ target read read', Run.Follows excused read read' →
    Run.Follows excused (watch target read) read'

theorem any_kind_iff {graph : Graph} {id : NodeId} {kind : NodeKind} :
    (graph.node? id).any (·.kind == kind) = true ↔ graph.HasKind id kind := by
  rw [Option.any_eq_true, Graph.hasKind_iff]
  simp only [beq_iff_eq]

theorem runAt_currentCall (machine : Machine) (boundary : NodeId) (f : FunctionId)
    (ctx : Context) : (machine.currentCall boundary f).runAt ctx =
      (match ctx.top.call with
        | some call =>
          if (machine.graph.node? call).any (·.kind == .call f) then .ok call
          else .error (.fault (.outsideFunction boundary))
        | none => .error (.fault (.outsideFunction boundary)), ctx) := by
  unfold Machine.currentCall
  rw [runAt_bind, runAt_get]
  dsimp only
  cases ctx.top.call with
  | none => rfl
  | some call =>
    dsimp only
    split <;> rfl

theorem currentCall_cases (machine : Machine) (boundary : NodeId) (f : FunctionId) (ctx : Context) :
    (∃ call, ctx.top.call = some call ∧ machine.graph.HasKind call (.call f) ∧
      (machine.currentCall boundary f).runAt ctx = (.ok call, ctx)) ∨
    (∀ call, ctx.top.call = some call → ¬machine.graph.HasKind call (.call f)) ∧
      (machine.currentCall boundary f).runAt ctx =
        (.error (.fault (.outsideFunction boundary)), ctx) := by
  rw [runAt_currentCall]
  cases ctx.top.call with
  | none => exact .inr ⟨by simp, rfl⟩
  | some call =>
    dsimp only
    by_cases calls : machine.graph.HasKind call (.call f)
    · exact .inl ⟨call, rfl, calls, by rw [if_pos (any_kind_iff.2 calls)]⟩
    · refine .inr ⟨fun other same => ?_, by rw [if_neg (mt any_kind_iff.1 calls)]⟩
      obtain rfl := Option.some.inj same
      exact calls

theorem runAt_openCall (machine : Machine) (call : NodeId) (ctx : Context) :
    (machine.openCall call).runAt ctx =
      if machine.maxCallDepth < ctx.depth then
        (.error (.fault (.callDepthExceeded machine.maxCallDepth)), ctx)
      else (.ok (), ctx.push { call := some call }) := by
  unfold openCall
  simp only [runAt_bind, runAt_get]
  split
  · rfl
  · rfl

theorem fireWith_eq (machine : Machine) (parts : Parts) (source : OutputRef) :
    machine.fireWith parts source =
      match machine.graph.signalTarget? source with
      | none => pure ()
      | some target => parts.execute target >>= fun
        | .next slot => parts.fire ⟨target.node, slot⟩
        | .done => pure () := by
  refine Run.ext fun ctx => ?_
  show (Machine.fireWith machine parts source) ctx = _
  unfold Machine.fireWith
  cases machine.graph.signalTarget? source with
  | none => rfl
  | some target =>
    dsimp only
    rw [runAt_bind]
    rcases (parts.execute target).runAt ctx with ⟨_ | _ | _, _⟩ <;> rfl

theorem pullWith_eq (machine : Machine) (parts : Parts) (target : InputRef) :
    machine.pullWith parts target =
      match machine.graph.input? target with
      | none => .fail (.unknownNode target.node)
      | some input =>
        match input.source? with
        | some source => parts.evaluate source
        | none =>
          match input.literal? with
          | some value => return value
          | none => .fail (.missingValue target.node input.port.name) := by
  unfold Machine.pullWith
  cases found : machine.graph.input target with
  | ok input =>
    exact (Graph.input_eq_ok_iff.1 found) ▸ rfl
  | error reason =>
    cases here : machine.graph.input? target with
    | none => rfl
    | some input => simp [Graph.input_eq_ok_iff.2 here] at found

theorem evaluateWith_eq (machine : Machine) (fuel : Nat) (parts : Parts) (source : OutputRef)
    (close : Close) : machine.evaluateWith fuel parts source close =
      match machine.graph.node? source.node with
      | none => .fail (.unknownNode source.node)
      | some node =>
        if (node.outputs[source.slot]?).all (·.port.isSignal) then
          .fail (.notAValueOutput source.node source.slot)
        else step >>= fun _ =>
          match node.kind with
          | .builtin _ => machine.behavior source.node >>= fun behavior =>
            behavior.evaluate (machine.scope fuel parts source.node node.config) source.slot
          | .call function => machine.callOutput parts source function close
          | .functionInput function => machine.currentCall source.node function >>= fun call =>
            inCaller (parts.pull ⟨call, source.slot⟩) close
          | .construct struct => machine.construct parts source struct
          | .functionOutput _ => .fail (.notAValueOutput source.node source.slot) := by
  unfold Machine.evaluateWith
  cases machine.graph.node? source.node with
  | none => rfl
  | some node =>
    dsimp only
    split
    · rfl
    · rfl

theorem collect_bare (machine : Machine) (parts : Parts) (target : InputRef) (node : Node)
    (f : FunctionId) :
    machine.collect parts target node f = machine.collect parts target node.bare f := by
  unfold Machine.collect Node.bare
  rw [List.zipIdx_map, List.mapM_map]
  rfl

theorem construct_eq (machine : Machine) (parts : Parts) (source : OutputRef) (s : StructId) :
    machine.construct parts source s =
      match machine.graph.schemaAt? s with
      | none => .fail (.nodeFault source.node s!"struct {s} is not defined")
      | some schema => do
        let fields ← schema.fields.zipIdx.mapM fun (field, slot) =>
          return (field.name, ← parts.pull ⟨source.node, slot⟩)
        return .struct schema.name fields := by
  unfold Machine.construct Graph.schemaAt?
  cases machine.graph.struct? s <;> rfl

namespace Simulates

variable {excused : Stop → Prop} {visible : NodeId → Prop} {dead : Side → NodeId → Prop}
  {watch : InputRef → Run Value → Run Value} {machine machine' : Machine} {parts parts' : Parts}
  {fuel fuel' : Nat}
variable (simulates : Simulates excused visible dead watch machine machine')
  (follows : parts.Follows excused visible dead parts')
include simulates follows

theorem fireWith {source : OutputRef} (seen : visible source.node) :
    Run.Follows excused (machine.fireWith parts source) (machine'.fireWith parts' source) := by
  rw [fireWith_eq, fireWith_eq]
  rcases simulates.targets source seen with ⟨same, onwards⟩ | ⟨target, found, gone⟩
  · rw [same]
    cases found : machine.graph.signalTarget? source with
    | none => exact .refl _
    | some target =>
      have there := onwards target found
      refine (follows.execute target there).bind fun flow => ?_
      cases flow with
      | next slot => exact follows.fire ⟨target.node, slot⟩ there
      | done => exact .refl _
  · rw [found]
    exact ((follows.stuck target gone).bind _).follows _

theorem scope (lasts : fuel = fuel' ∨ excused .outOfFuel ∧ fuel ≤ fuel') (id : NodeId)
    (seen : visible id) (config : Json) :
    Scope.Follows excused (machine.scope fuel parts id config)
      (machine'.scope fuel' parts' id config) where
  node := rfl
  config := rfl
  slots := (simulates.slots id seen).symm
  fuel := lasts
  input slot := follows.pull ⟨id, slot⟩ seen
  fire slot := follows.fire ⟨id, slot⟩ seen

omit follows in
theorem boundaryNodes {call : NodeId} {f : FunctionId}
    (calls : machine.graph.HasKind call (.call f)) :
    machine'.boundaryNodes call f = machine.boundaryNodes call f := by
  rw [Machine.boundaryNodes, Machine.boundaryNodes, simulates.functions call f calls]

omit follows in
theorem bind_boundaryNodes {α : Type} {next next' : NodeId × NodeId → Run α} {call : NodeId}
    {f : FunctionId} (calls : machine.graph.HasKind call (.call f))
    (rest : ∀ nodes : NodeId × NodeId, visible nodes.1 → visible nodes.2 →
      Run.Follows excused (next nodes) (next' nodes)) :
    Run.Follows excused (machine.boundaryNodes call f >>= next)
      (machine'.boundaryNodes call f >>= next') := by
  rw [simulates.boundaryNodes calls]
  unfold Machine.boundaryNodes
  split
  · rename_i id signature input output found
    exact rest (input, output) (simulates.boundaries call f _ calls found input (.inl rfl))
      (simulates.boundaries call f _ calls found output (.inr rfl))
  · exact .refl _

omit follows in
theorem openCall (call : NodeId) :
    Run.Follows excused (machine.openCall call) (machine'.openCall call) := by
  rcases simulates.limit with same | ⟨less, deep⟩
  · rw [Machine.openCall, Machine.openCall, same]
    exact .refl _
  · intro ctx
    rw [runAt_openCall, runAt_openCall]
    split
    · exact .inl ⟨_, ctx, rfl, deep⟩
    · rename_i shallow
      rw [if_neg (by omega)]
      exact .inr rfl

omit follows in
theorem bind_currentCall {α : Type} {next next' : NodeId → Run α} (boundary : NodeId)
    (f : FunctionId) (rest : ∀ call, visible call → Run.Follows excused (next call) (next' call)) :
    Run.Follows excused (machine.currentCall boundary f >>= next)
      (machine'.currentCall boundary f >>= next') := by
  intro ctx
  rw [runAt_bind, runAt_bind]
  obtain ⟨call, opened, calls, done⟩ | ⟨other, stopped⟩ :=
    machine.currentCall_cases boundary f ctx
  · obtain ⟨call', opened', -, done'⟩ | ⟨other', -⟩ := machine'.currentCall_cases boundary f ctx
    · obtain rfl : call = call' := Option.some.inj (opened.symm.trans opened')
      rw [done, done']
      exact rest call (simulates.callers call f calls) ctx
    · exact absurd ((simulates.calls call f).2 calls) (other' call opened)
  · obtain ⟨call', opened', calls', -⟩ | ⟨-, stopped'⟩ := machine'.currentCall_cases boundary f ctx
    · exact absurd ((simulates.calls call' f).1 calls') (other call' opened')
    · rw [stopped, stopped']
      exact .inr rfl

theorem call {target : InputRef} {f : FunctionId}
    (calls : machine.graph.HasKind target.node (.call f)) :
    Run.Follows excused (machine.call parts target f) (machine'.call parts' target f) := by
  refine simulates.bind_boundaryNodes calls fun nodes entry _ => ?_
  refine (simulates.openCall target.node).bind fun _ => ?_
  refine (follows.fire ⟨nodes.1, target.slot⟩ entry).leaving
    (fun stop frame reason => ?_) fun _ => ?_
  · exact (Stops.throw reason).bind _
  · exact .refl _

theorem collect {target : InputRef} (seen : visible target.node) {node node' : Node}
    (same : node'.bare = node.bare) (f : FunctionId) :
    Run.Follows excused (machine.collect parts target node f)
      (machine'.collect parts' target node' f) := by
  rw [collect_bare, collect_bare machine', same]
  refine simulates.bind_currentCall target.node f fun call _ => ?_
  refine (Follows.mapM fun ⟨input, slot⟩ _ => ?_).bind fun _ => .refl _
  dsimp only
  split
  · exact .refl _
  · exact (follows.pull ⟨target.node, slot⟩ seen).orMissing simulates.caught

theorem executeWith (lasts : fuel = fuel' ∨ excused .outOfFuel ∧ fuel ≤ fuel')
    {target : InputRef} (seen : visible target.node) :
    Run.Follows excused (machine.executeWith fuel parts target)
      (machine'.executeWith fuel' parts' target) := by
  have same := simulates.node target.node seen
  simp only [Graph.bare?] at same
  unfold Machine.executeWith
  cases here : machine.graph.node? target.node with
  | none =>
    rw [here, Option.map_none, Option.map_eq_none_iff] at same
    rw [same]
    exact .refl _
  | some node =>
    rw [here, Option.map_some, Option.map_eq_some_iff] at same
    obtain ⟨node', there, same⟩ := same
    have kind : node'.kind = node.kind := congrArg (·.kind) same
    have config : node'.config = node.config := congrArg (·.config) same
    rw [there]
    refine (Follows.refl _).bind fun _ => ?_
    rw [kind, config]
    split
    · rw [Machine.behavior, Machine.behavior, simulates.behavior _ seen]
      split
      · rename_i behavior found
        exact (simulates.parametric _ behavior found).execute target.slot excused
          simulates.caught _ _
          (simulates.scope follows lasts target.node seen node.config)
      · exact .refl _
    · rename_i f made
      exact simulates.call follows (Graph.hasKind_iff.2 ⟨node, here, made⟩)
    · exact simulates.collect follows seen same _
    · exact .refl _
    · exact .refl _

theorem pullWith {target : InputRef} (seen : visible target.node) :
    Run.Follows excused (watch target (machine.pullWith parts target))
      (machine'.pullWith parts' target) := by
  have bare := machine.graph.bare_input? target
  rw [← simulates.node target.node seen, ← machine'.graph.bare_input? target] at bare
  rw [pullWith_eq, pullWith_eq]
  cases here : machine.graph.input? target with
  | none =>
    rw [here, Option.map_none, eq_comm, Option.map_eq_none_iff] at bare
    rw [bare]
    exact simulates.watch target _ _ (.refl _)
  | some input =>
    rw [here, Option.map_some, eq_comm, Option.map_eq_some_iff] at bare
    obtain ⟨input', there, same⟩ := bare
    rcases simulates.sources target input seen here with
      ⟨sources, onwards⟩ | ⟨source, origin, gone⟩ | stops
    · refine simulates.watch target _ _ ?_
      rw [there]
      dsimp only
      rw [sources input' there]
      cases origin : input.source? with
      | some source => exact follows.evaluate source (onwards source origin)
      | none =>
        have port : input'.port = input.port := congrArg (·.port) same
        have inset : input'.inset = input.inset := congrArg (·.inset) same
        rw [Input.literal?, Input.literal?, port, inset]
        exact .refl _
    · refine simulates.watch target _ _ ?_
      dsimp only
      rw [origin]
      exact (follows.dry source gone).follows _
    · exact (stops _).follows _

theorem callOutput {source : OutputRef} {f : FunctionId}
    (calls : machine.graph.HasKind source.node (.call f)) :
    Run.Follows excused (machine.callOutput parts source f)
      (machine'.callOutput parts' source f) := by
  refine (Follows.refl _).bind fun ctx => ?_
  split
  · exact .refl _
  · refine simulates.bind_boundaryNodes calls fun nodes _ exit => ?_
    refine (simulates.openCall source.node).bind fun _ => ?_
    refine (follows.pull ⟨nodes.2, source.slot⟩ exit).leaving (fun stop frame reason => ?_)
      fun _ => .refl _
    exact Stops.throw reason

theorem construct {source : OutputRef} (seen : visible source.node) {s : StructId}
    (kind : machine.graph.HasKind source.node (.construct s)) :
    Run.Follows excused (machine.construct parts source s)
      (machine'.construct parts' source s) := by
  have same := simulates.schemas source.node s seen kind
  rw [construct_eq, construct_eq, same]
  split
  · exact .refl _
  · exact (Follows.mapM fun item _ => (follows.pull ⟨source.node, item.2⟩ seen).bind
      fun _ => .refl _).bind fun _ => .refl _

theorem evaluateWith (lasts : fuel = fuel' ∨ excused .outOfFuel ∧ fuel ≤ fuel')
    {source : OutputRef} (seen : visible source.node) :
    Run.Follows excused (machine.evaluateWith fuel parts source)
      (machine'.evaluateWith fuel' parts' source) := by
  have same := simulates.node source.node seen
  simp only [Graph.bare?] at same
  unfold Machine.evaluateWith
  cases here : machine.graph.node? source.node with
  | none =>
    rw [here, Option.map_none, Option.map_eq_none_iff] at same
    rw [same]
    exact .refl _
  | some node =>
    rw [here, Option.map_some, Option.map_eq_some_iff] at same
    obtain ⟨node', there, same⟩ := same
    have kind : node'.kind = node.kind := congrArg (·.kind) same
    have config : node'.config = node.config := congrArg (·.config) same
    have output : (node'.outputs[source.slot]?).all (·.port.isSignal) =
        (node.outputs[source.slot]?).all (·.port.isSignal) := by
      have outputs := congrArg (fun node => (node.outputs[source.slot]?).all (·.port.isSignal)) same
      simpa [Node.bare, Option.all_map, Function.comp_def] using outputs
    rw [there]
    dsimp only
    rw [output, kind, config]
    split
    · exact .fail _ _ _
    · refine (Follows.refl _).bind fun _ => ?_
      split
      · rw [Machine.behavior, Machine.behavior, simulates.behavior _ seen]
        split
        · rename_i behavior found
          exact (simulates.parametric _ behavior found).evaluate source.slot excused
            simulates.caught _ _ (simulates.scope follows lasts source.node seen node.config)
        · exact .refl _
      · rename_i f made
        exact simulates.callOutput follows (Graph.hasKind_iff.2 ⟨node, here, made⟩)
      · exact simulates.bind_currentCall source.node _ fun call caller =>
          (follows.pull ⟨call, source.slot⟩ caller).inCaller
      · rename_i s made
        exact simulates.construct follows seen (Graph.hasKind_iff.2 ⟨node, here, made⟩)
      · exact .refl _

omit follows in
theorem watched_stuck (target : InputRef) (gone : dead .input target.node) :
    Stops excused ((machine.watched watch fuel).execute target) := by
  cases fuel with
  | zero => exact .throw (simulates.spent _ _ gone)
  | succ fuel => exact simulates.stuck fuel _ target gone

omit follows in
theorem watched_dry (source : OutputRef) (gone : dead .output source.node) :
    Stops excused ((machine.watched watch fuel).evaluate source) := by
  cases fuel with
  | zero => exact .throw (simulates.spent _ _ gone)
  | succ fuel => exact simulates.dry fuel _ source gone

omit follows in
/-- A machine whose readings are watched does as the other machine, at all nodes that are seen. -/
theorem parts_follow : (machine.watched watch fuel).Follows excused visible dead
    (machine'.parts fuel) := by
  induction fuel with
  | zero =>
    exact ⟨fun _ _ => .refl _, fun _ _ => .refl _, fun _ _ => .refl _, fun _ _ => .refl _,
      simulates.watched_stuck, simulates.watched_dry⟩
  | succ fuel ih =>
    exact ⟨fun _ seen => simulates.fireWith ih seen,
      fun _ seen => simulates.executeWith ih (.inl rfl) seen,
      fun _ seen => simulates.pullWith ih seen,
      fun _ seen => simulates.evaluateWith ih (.inl rfl) seen,
      simulates.watched_stuck, simulates.watched_dry⟩

omit follows in
theorem emit_follows (same : machine'.program.entries = machine.program.entries)
    (roots : ∀ entry root, machine.program.entries.root? entry = some root → visible root.node)
    (entry : EntryPoint) :
    Run.Follows excused (machine.emitWatched watch fuel entry) (machine'.emit fuel entry) := by
  unfold Machine.emitWatched Machine.emit
  rw [same]
  cases found : machine.program.entries.root? entry with
  | none => exact .refl _
  | some root => exact simulates.parts_follow.fire root (roots entry root found)

end Simulates

/-- A machine does as it does, unless it is stopped at a reading. -/
theorem Simulates.refl (machine : Machine) {excused : Stop → Prop}
    {watch : InputRef → Run Value → Run Value}
    (caught : ∀ node input, ¬excused (.fault (.missingValue node input)))
    (parametric : ∀ id behavior, machine.program.behavior? id = some behavior →
      behavior.Parametric)
    (watches : ∀ target read read', Run.Follows excused read read' →
      Run.Follows excused (watch target read) read') :
    Simulates excused (fun _ => True) (fun _ _ => False) watch machine machine where
  caught := caught
  limit := .inl rfl
  behavior _ _ := rfl
  parametric := parametric
  slots _ _ := rfl
  node _ _ := rfl
  calls _ _ := .rfl
  callers _ _ _ := trivial
  functions _ _ _ := rfl
  boundaries _ _ _ _ _ _ _ := trivial
  schemas _ _ _ _ := rfl
  targets _ _ := .inl ⟨rfl, fun _ _ => trivial⟩
  spent _ _ never := never.elim
  stuck _ _ _ never := never.elim
  dry _ _ _ never := never.elim
  sources _ input _ found := .inl ⟨fun input' found' => by
    rw [Option.some.inj (found'.symm.trans found)], fun _ _ => trivial⟩
  watch := watches

theorem parts_follow_of_le (machine : Machine)
    (parametric : ∀ id behavior, machine.program.behavior? id = some behavior →
      behavior.Parametric) {fuel more : Nat} (less : fuel ≤ more) :
    (machine.parts fuel).Follows (· = .outOfFuel) (fun _ => True) (fun _ _ => False)
      (machine.parts more) := by
  have simulates : Simulates (· = .outOfFuel) (fun _ => True) (fun _ _ => False)
      (fun _ read => read) machine machine :=
    .refl machine (fun _ _ => by simp) parametric fun _ _ _ follows => follows
  have short {α : Type} (run : Run α) : Run.Follows (· = .outOfFuel) (throw .outOfFuel) run :=
    (@Stops.throw _ (· = .outOfFuel) _ rfl).follows run
  induction fuel generalizing more with
  | zero =>
    exact ⟨fun _ _ => short _, fun _ _ => short _, fun _ _ => short _, fun _ _ => short _,
      fun _ never => never.elim, fun _ never => never.elim⟩
  | succ fuel ih =>
    obtain ⟨more, rfl⟩ := Nat.exists_eq_add_of_lt less
    have below := @ih (fuel + more) (Nat.le_add_right _ _)
    have lasts : fuel = fuel + more ∨ Stop.outOfFuel = .outOfFuel ∧ fuel ≤ fuel + more :=
      .inr ⟨rfl, Nat.le_add_right _ _⟩
    exact ⟨fun _ seen => simulates.fireWith below seen,
      fun _ seen => simulates.executeWith below lasts seen,
      fun _ seen => simulates.pullWith below seen,
      fun _ seen => simulates.evaluateWith below lasts seen, fun _ never => never.elim,
      fun _ never => never.elim⟩

theorem emitWatched_follows_emit (machine : Machine) {excused : Stop → Prop}
    {watch : InputRef → Run Value → Run Value}
    (caught : ∀ node input, ¬excused (.fault (.missingValue node input)))
    (parametric : ∀ id behavior, machine.program.behavior? id = some behavior →
      behavior.Parametric)
    (watches : ∀ target read read', Run.Follows excused read read' →
      Run.Follows excused (watch target read) read') (fuel : Nat) (entry : EntryPoint) :
    Run.Follows excused (machine.emitWatched watch fuel entry) (machine.emit fuel entry) := by
  exact (Simulates.refl machine caught parametric watches).emit_follows rfl (fun _ _ _ => trivial)
    entry

end Machine

end NodeScript
