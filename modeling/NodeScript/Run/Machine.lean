import NodeScript.Program.Basic

/-!
How programs run. Control is pushed along the wires of signals from node to node, each node saying
where it goes on. Values are pulled: an input asks the output at its wire, which is computed anew
each time it is asked. Calls open frames, and a function reads its arguments in the frame of its
caller. Nothing bounds a run but the fuel, of which no part of a run uses more than it was given.
-/

set_option autoImplicit false
set_option relaxedAutoImplicit false

namespace NodeScript

/-- A program with its graph, and the limit on open calls. -/
structure Machine where
  graph : Graph
  program : Program
  maxCallDepth : Nat := 256

namespace Machine

/-- Counts a step. -/
def step : Run Unit := modify fun ctx => { ctx with steps := ctx.steps + 1 }

/-- Opens a frame for a call, unless as many are open as the limit allows. -/
def openCall (machine : Machine) (call : NodeId) : Run Unit := do
  if machine.maxCallDepth < (← get).depth then
    .fail (.callDepthExceeded machine.maxCallDepth)
  modify (Context.push { call := some call })

/-- A way to close the innermost frame. -/
abbrev Close := Context → Frame × Context

/-- Runs a part and closes the innermost frame after it, also where the part fails. -/
def leaving {α : Type} (run : Run α) (close : Close := Context.pop) :
    Run (Except Stop α × Frame) := fun ctx =>
  let (result, ctx) := run.runAt ctx
  let (frame, ctx) := close ctx
  (.ok (result, frame), ctx)

/-- Runs a part in the frame of the caller, and goes back to the innermost frame after it. -/
def inCaller {α : Type} (run : Run α) (close : Close := Context.pop) : Run α := fun ctx =>
  let (frame, ctx) := close ctx
  let (result, ctx) := run.runAt ctx
  (result, ctx.push frame)

/-- The two nodes of a function that a node calls. -/
def boundaryNodes (machine : Machine) (call : NodeId) (function : FunctionId) :
    Run (NodeId × NodeId) :=
  match machine.graph.function? function with
  | some { input := some input, output := some output, .. } => return (input, output)
  | _ => .fail (.nodeFault call s!"function {function} is not defined")

/-- The call that opened the innermost frame, which has to be one of the function that the
boundary belongs to. -/
def currentCall (machine : Machine) (boundary : NodeId) (function : FunctionId) : Run NodeId := do
  match (← get).top.call with
  | some call =>
    if (machine.graph.node? call).any (·.kind == .call function) then return call
    else .fail (.outsideFunction boundary)
  | none => .fail (.outsideFunction boundary)

/-- How a node of a registered type runs. -/
def behavior (machine : Machine) (node : NodeId) : Run Behavior :=
  match machine.program.behavior? node with
  | some behavior => return behavior
  | none => .fail (.nodeFault node "node type has no behavior")

/-- The parts of a run, which call on each other. -/
structure Parts where
  /-- Follows control from a signal output to the end of the chain. -/
  fire : OutputRef → Run Unit
  /-- Runs a node that control has reached. -/
  execute : InputRef → Run Flow
  /-- Reads an input. -/
  pull : InputRef → Run Value
  /-- Computes an output. -/
  evaluate : OutputRef → Run Value

/-- What a node sees, where the other parts of the run are the given ones. -/
def scope (machine : Machine) (fuel : Nat) (parts : Parts) (node : NodeId) (config : Json) :
    Scope where
  node
  config
  input := fun slot => parts.pull ⟨node, slot⟩
  fire := fun slot => parts.fire ⟨node, slot⟩
  slots := machine.program.entries.slotsOf node
  fuel

/-- Control goes on from one node to the next for as long as one says where. -/
@[inline] def fireWith (machine : Machine) (parts : Parts) (source : OutputRef) : Run Unit :=
  fun ctx =>
    match machine.graph.signalTarget? source with
    | none => (.ok (), ctx)
    | some target =>
      match (parts.execute target).runAt ctx with
      | (.ok (.next slot), ctx) => parts.fire ⟨target.node, slot⟩ ctx
      | (.ok .done, ctx) => (.ok (), ctx)
      | (.error stop, ctx) => (.error stop, ctx)

/-- A call runs the body of its function and goes on where the body returned. -/
def call (machine : Machine) (parts : Parts) (target : InputRef) (function : FunctionId)
    (close : Close := Context.pop) : Run Flow := do
  let (entry, _) ← machine.boundaryNodes target.node function
  machine.openCall target.node
  let (result, frame) ← leaving (parts.fire ⟨entry, target.slot⟩) close
  let _ ← liftExcept result
  match frame.returned with
  | some exit =>
    modify fun ctx => { ctx with top := { ctx.top with
      callResults := Assoc.put target.node frame.results ctx.top.callResults } }
    return .next exit
  | none => return .done

/-- The end of a body collects the values of its inputs. -/
def collect (machine : Machine) (parts : Parts) (target : InputRef) (node : Node)
    (function : FunctionId) : Run Flow := do
  let _ ← machine.currentCall target.node function
  let results ← node.inputs.zipIdx.mapM fun (input, slot) =>
    if input.port.isSignal then pure none
    else (parts.pull ⟨target.node, slot⟩).orMissing
  modify fun ctx => { ctx with top := { ctx.top with
    results, returned := some target.slot } }
  return .done

@[inline] def executeWith (machine : Machine) (fuel : Nat) (parts : Parts) (target : InputRef)
    (close : Close := Context.pop) : Run Flow :=
  match machine.graph.node? target.node with
  | none => .fail (.unknownNode target.node)
  | some node => do
    step
    match node.kind with
    | .builtin _ =>
      let behavior ← machine.behavior target.node
      behavior.execute (machine.scope fuel parts target.node node.config) target.slot
    | .call function => machine.call parts target function close
    | .functionOutput function => machine.collect parts target node function
    | .functionInput _ | .construct _ => .fail (.notASignalInput target.node target.slot)

/-- An input is the output at its wire, or else its literal. -/
@[inline] def pullWith (machine : Machine) (parts : Parts) (target : InputRef) : Run Value :=
  match machine.graph.input target with
  | .error _ => .fail (.unknownNode target.node)
  | .ok input =>
    match input.source? with
    | some source => parts.evaluate source
    | none =>
      match input.literal? with
      | some value => return value
      | none => .fail (.missingValue target.node input.port.name)

/-- An output of a call is what the call left behind, or else is computed in a frame of its own. -/
def callOutput (machine : Machine) (parts : Parts) (source : OutputRef) (function : FunctionId)
    (close : Close := Context.pop) : Run Value := do
  match ((← get).top.callResults.lookup source.node).bind (·[source.slot]?.join) with
  | some value => return value
  | none =>
    let (_, exit) ← machine.boundaryNodes source.node function
    machine.openCall source.node
    let (result, _) ← leaving (parts.pull ⟨exit, source.slot⟩) close
    liftExcept result

/-- A constructor reads its inputs in the order of the fields. -/
def construct (machine : Machine) (parts : Parts) (source : OutputRef) (struct : StructId) :
    Run Value :=
  match machine.graph.struct? struct with
  | none => .fail (.nodeFault source.node s!"struct {struct} is not defined")
  | some entry => do
    let fields ← entry.schema.fields.zipIdx.mapM fun (field, slot) =>
      return (field.name, ← parts.pull ⟨source.node, slot⟩)
    return .struct entry.schema.name fields

@[inline] def evaluateWith (machine : Machine) (fuel : Nat) (parts : Parts) (source : OutputRef)
    (close : Close := Context.pop) : Run Value :=
  match machine.graph.node? source.node with
  | none => .fail (.unknownNode source.node)
  | some node => do
    if (node.outputs[source.slot]?).all (·.port.isSignal) then
      .fail (.notAValueOutput source.node source.slot)
    step
    match node.kind with
    | .builtin _ =>
      let behavior ← machine.behavior source.node
      behavior.evaluate (machine.scope fuel parts source.node node.config) source.slot
    | .call function => machine.callOutput parts source function close
    | .functionInput function =>
      let call ← machine.currentCall source.node function
      inCaller (parts.pull ⟨call, source.slot⟩) close
    | .construct struct => machine.construct parts source struct
    | .functionOutput _ => .fail (.notAValueOutput source.node source.slot)

mutual

def fire (machine : Machine) : Nat → OutputRef → Run Unit
  | 0, _ => throw .outOfFuel
  | fuel + 1, source => machine.fireWith
      ⟨machine.fire fuel, machine.execute fuel, machine.pull fuel, machine.evaluate fuel⟩ source
termination_by structural fuel => fuel

def execute (machine : Machine) : Nat → InputRef → Run Flow
  | 0, _ => throw .outOfFuel
  | fuel + 1, target => machine.executeWith fuel
      ⟨machine.fire fuel, machine.execute fuel, machine.pull fuel, machine.evaluate fuel⟩ target
termination_by structural fuel => fuel

def pull (machine : Machine) : Nat → InputRef → Run Value
  | 0, _ => throw .outOfFuel
  | fuel + 1, target => machine.pullWith
      ⟨machine.fire fuel, machine.execute fuel, machine.pull fuel, machine.evaluate fuel⟩ target
termination_by structural fuel => fuel

def evaluate (machine : Machine) : Nat → OutputRef → Run Value
  | 0, _ => throw .outOfFuel
  | fuel + 1, source => machine.evaluateWith fuel
      ⟨machine.fire fuel, machine.execute fuel, machine.pull fuel, machine.evaluate fuel⟩ source
termination_by structural fuel => fuel

end

/-- Runs from an entry point. -/
def emit (machine : Machine) (fuel : Nat) (entry : EntryPoint) : Run Unit :=
  match machine.program.entries.root? entry with
  | some root => machine.fire fuel root
  | none => .fail (.unknownEntryPoint entry)

end Machine

end NodeScript
