import NodeScript.DataType.Sharing
import NodeScript.Graph.Basic
import NodeScript.Graph.Search

/-!
Edits of wires and literals. An input for values has at most one wire and an output for signals at
most one target, so a new wire takes the place of the old one. Wires for values never form a loop,
since reading one would not end.
-/

set_option autoImplicit false
set_option relaxedAutoImplicit false

namespace NodeScript.Graph

/-- Takes the wire between two ports from both its ends. -/
def unlink (graph : Graph) (source : OutputRef) (target : InputRef) : Graph :=
  (graph.modifyInput target fun input =>
    { input with wires := input.wires.filter (·.source != source) }).modifyOutput source
    fun output => { output with targets := output.targets.filter (· != target) }

/-- The nodes whose values some inputs read. -/
def suppliersOf : List Input → List NodeId
  | [] => []
  | input :: inputs =>
    if input.port.isSignal then suppliersOf inputs
    else input.wires.map (·.source.node) ++ suppliersOf inputs

/-- The nodes whose values a node reads directly. -/
def suppliers (graph : Graph) (id : NodeId) : List NodeId :=
  match graph.node? id with
  | none => []
  | some node => suppliersOf node.inputs

/-- Whether a value of a node is read anywhere. -/
def isRead (graph : Graph) (id : NodeId) : Bool :=
  (graph.node? id).any fun node => node.outputs.any fun output =>
    !output.port.isSignal && !output.targets.isEmpty

/-- Whether a value of the node could ask for one of the other node. Nothing but the other node
itself does where none of its values is read, so most new wires need no search. -/
def dependsOn (graph : Graph) (id other : NodeId) : Bool :=
  id == other || graph.isRead other &&
    leadsToMarked NodeId.index graph.suppliers (· == other) (.replicate graph.arena.size true) [id]

/-- The wires that a new wire takes the place of: those from the same output of signals, or those
to the same input of values. -/
def displaced (source : OutputRef) (target : InputRef) (output : Output) (input : Input) :
    List (OutputRef × InputRef) :=
  if output.port.isSignal then output.targets.map (source, ·)
  else input.wires.map (·.source, target)

/-- The wires that a wire between two ports would take the place of, or why there can be no such
wire. -/
def displacedBy (graph : Graph) (source : OutputRef) (target : InputRef) :
    Except GraphError (List (OutputRef × InputRef)) := do
  let output ← graph.output source
  let input ← graph.input target
  if !output.port.type.fits input.port.type then
    throw (.typeMismatch input.port.type.displayName output.port.type.displayName)
  if !output.port.isSignal && graph.dependsOn source.node target.node then
    throw (.valueLoop target.node)
  return displaced source target output input

/-- Puts a wire between two ports, in the place of others and of any between the same two. -/
def link (graph : Graph) (source : OutputRef) (target : InputRef) (relays : List Position)
    (others : List (OutputRef × InputRef)) : Graph :=
  let cleared := others.foldl (fun graph (source, target) => graph.unlink source target) graph
  ((cleared.unlink source target).modifyInput target fun input =>
      { input with wires := input.wires ++ [{ source, relays }] }).modifyOutput source
    fun output => { output with targets := output.targets ++ [target] }

/-- Adds a wire between two ports of one type. -/
def connect (graph : Graph) (source : OutputRef) (target : InputRef) (relays : List Position) :
    Except GraphError Graph := do
  return graph.link source target relays (← graph.displacedBy source target)

/-- Takes away the wire between two ports, and with it the literal of an input of values. Tells
whether there was one. -/
def disconnect (graph : Graph) (source : OutputRef) (target : InputRef) : Bool × Graph :=
  let linked := match graph.output source with
    | .ok output => output.targets.contains target
    | .error _ => false
  let graph := graph.unlink source target
  if linked then
    (true, graph.modifyInput target fun input =>
      if input.port.isSignal then input else { input with inset := none })
  else (false, graph)

/-- Sets or clears the literal of an input. -/
def setInset (graph : Graph) (target : InputRef) (value : Option Value) :
    Except GraphError Graph := do
  let input ← graph.input target
  match value with
  | some value =>
    if !input.port.type.accepts value then
      throw (.typeMismatch input.port.type.displayName value.kindName)
  | none => pure ()
  return graph.modifyInput target fun input => { input with inset := value }

/-- Takes a node out of its place and its wires from their other ends. The node is given back with
the wires it had. -/
def detach? (graph : Graph) (id : NodeId) : Option (Node × Graph) := do
  let node ← graph.node? id
  let graph := { graph with arena := graph.arena.setIfInBounds id.index none }
  let graph := node.inputs.zipIdx.foldl (fun graph (input, slot) =>
    input.wires.foldl (fun graph wire => graph.modifyOutput wire.source fun output =>
      { output with targets := output.targets.filter (· != ⟨id, slot⟩) }) graph) graph
  let graph := node.outputs.zipIdx.foldl (fun graph (output, slot) =>
    output.targets.foldl (fun graph target => graph.modifyInput target fun input =>
      { input with wires := input.wires.filter (·.source != ⟨id, slot⟩) }) graph) graph
  return (node, graph)

/-- The graph without a node, if it has one at the address. -/
def detach (graph : Graph) (id : NodeId) : Graph :=
  match graph.detach? id with
  | some (_, graph) => graph
  | none => graph

/-- Removes a node and its wires. The nodes that belong to a definition stay. -/
def remove (graph : Graph) (id : NodeId) : Except GraphError (Node × Graph) :=
  if graph.owns id then .error (.boundaryNode id)
  else
    match graph.detach? id with
    | some removed => .ok removed
    | none => .error (.unknownNode id)

end NodeScript.Graph
