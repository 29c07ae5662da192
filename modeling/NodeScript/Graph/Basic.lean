import NodeScript.Graph.Error
import NodeScript.Graph.Node

/-!
Graphs: nodes at fixed places, and the functions and structs that scripts declare. The place of a
removed node stays empty, so that no other node changes its address.
-/

set_option autoImplicit false
set_option relaxedAutoImplicit false

namespace NodeScript

/-- A function of a graph with the two nodes that belong to it. -/
structure FunctionEntry where
  id : FunctionId
  signature : Signature
  input : Option NodeId := none
  output : Option NodeId := none
deriving Repr

/-- A struct of a graph with the constructor that belongs to it. -/
structure StructEntry where
  id : StructId
  schema : Schema
  boundary : Option NodeId := none
deriving Repr

/-- A script. -/
structure Graph where
  /-- The places of nodes, by index. -/
  arena : Array (Option Node) := #[]
  functions : List FunctionEntry := []
  structs : List StructEntry := []
  nextDefinition : Nat := 0
deriving Inhabited, Repr

namespace Graph

def empty : Graph := {}

/-- The node at an address. -/
def node? (graph : Graph) (id : NodeId) : Option Node := graph.arena[id.index]?.join

/-- The nodes that are left, in the order of their places. -/
def live (graph : Graph) : List (NodeId × Node) :=
  graph.arena.toList.zipIdx.filterMap fun (place, index) => place.map (⟨index⟩, ·)

def isEmpty (graph : Graph) : Bool :=
  graph.live.isEmpty && graph.functions.isEmpty && graph.structs.isEmpty

/-- The number of wires. -/
def wireCount (graph : Graph) : Nat :=
  (graph.live.flatMap fun (_, node) => node.inputs.flatMap (·.wires)).length

def input (graph : Graph) (ref : InputRef) : Except GraphError Input :=
  match graph.node? ref.node with
  | none => .error (.unknownNode ref.node)
  | some node =>
    match node.inputs[ref.slot]? with
    | some input => .ok input
    | none => .error (.noSuchPort ref.node ref.slot .input)

def output (graph : Graph) (ref : OutputRef) : Except GraphError Output :=
  match graph.node? ref.node with
  | none => .error (.unknownNode ref.node)
  | some node =>
    match node.outputs[ref.slot]? with
    | some output => .ok output
    | none => .error (.noSuchPort ref.node ref.slot .output)

/-- The input that a signal output leads to. -/
def signalTarget? (graph : Graph) (source : OutputRef) : Option InputRef :=
  match graph.output source with
  | .ok output => output.targets.head?
  | .error _ => none

/-- The nodes that lie in the rectangle with the given corners, edges included. -/
def inRegion (graph : Graph) (a b : Position) : List NodeId :=
  let within (a b x : Double) : Bool := (a.lesser b).le x && x.le (a.greater b)
  (graph.live.filter fun (_, node) =>
    within a.x b.x node.position.x && within a.y b.y node.position.y).map (·.1)

/-- Changes the node at an address, if there is one. -/
def modifyNode (graph : Graph) (id : NodeId) (change : Node → Node) : Graph :=
  { graph with arena := graph.arena.modify id.index (Option.map change) }

def modifyInput (graph : Graph) (ref : InputRef) (change : Input → Input) : Graph :=
  graph.modifyNode ref.node fun node =>
    { node with inputs := node.inputs.modify ref.slot change }

def modifyOutput (graph : Graph) (ref : OutputRef) (change : Output → Output) : Graph :=
  graph.modifyNode ref.node fun node =>
    { node with outputs := node.outputs.modify ref.slot change }

/-- Puts a node at a new place. -/
def push (graph : Graph) (node : Node) : NodeId × Graph :=
  (⟨graph.arena.size⟩, { graph with arena := graph.arena.push (some node) })

/-- Moves a node on the canvas. -/
def move (graph : Graph) (id : NodeId) (position : Position) : Except GraphError Graph :=
  match graph.node? id with
  | none => .error (.unknownNode id)
  | some _ => .ok (graph.modifyNode id fun node => { node with position })

def schemas (graph : Graph) : List Schema := graph.structs.map (·.schema)

def function? (graph : Graph) (id : FunctionId) : Option FunctionEntry :=
  graph.functions.find? (·.id == id)

def functionNamed? (graph : Graph) (name : String) : Option FunctionEntry :=
  graph.functions.find? (·.signature.name == name)

def struct? (graph : Graph) (id : StructId) : Option StructEntry :=
  graph.structs.find? (·.id == id)

def structNamed? (graph : Graph) (name : String) : Option StructEntry :=
  graph.structs.find? (·.schema.name == name)

/-- The name of what a node is made of: its type, its function or its struct. -/
def nameOf? (graph : Graph) : NodeKind → Option String
  | .builtin id => some id
  | .call f | .functionInput f | .functionOutput f =>
    (graph.function? f).map (·.signature.name)
  | .construct s => (graph.struct? s).map (·.schema.name)

/-- Whether a node belongs to a definition. -/
def owns (graph : Graph) (id : NodeId) : Bool :=
  graph.functions.any (fun entry => entry.input == some id || entry.output == some id) ||
    graph.structs.any (fun entry => entry.boundary == some id)

/-- A function is in use while a node calls it. -/
def functionInUse (graph : Graph) (id : FunctionId) : Bool :=
  graph.arena.any fun place => place.any (·.kind == .call id)

/-- A struct is in use while anything but its own constructor makes or mentions it. -/
def structInUse (graph : Graph) (id : StructId) : Bool :=
  match graph.struct? id with
  | none => false
  | some entry =>
    let name := entry.schema.name
    let others := match entry.boundary with
      | some boundary => graph.arena.setIfInBounds boundary.index none
      | none => graph.arena
    (others.any fun place => place.any fun node =>
      node.kind == .construct id || node.mentions name) ||
    graph.functions.any (·.signature.mentions name) ||
    graph.structs.any fun other =>
      other.id != id && other.schema.fields.any (·.type.mentions name)

end Graph

end NodeScript
