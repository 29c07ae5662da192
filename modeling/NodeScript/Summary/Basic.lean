import NodeScript.Graph.Basic

/-!
What there is to see of a graph: its definitions, and its nodes numbered without gaps, with their
literals and wires.
-/

set_option autoImplicit false
set_option relaxedAutoImplicit false

namespace NodeScript

namespace Summary

/-- A port, a field or a parameter by its name and the name of its type. -/
structure Entry where
  name : String
  type : String
deriving DecidableEq, Repr

def Entry.ofField (field : Field) : Entry := ⟨field.name, field.type.displayName⟩

def Entry.ofPort (port : Port) : Entry := ⟨port.name, port.type.displayName⟩

/-- A struct or a function. A struct has no outputs. -/
structure Definition where
  name : String
  inputs : List Entry
  outputs : List Entry
  inUse : Bool
deriving DecidableEq, Repr

/-- A wire by the number of the node it comes from. -/
structure Wire where
  source : Nat
  output : Nat
  relays : List Position
deriving DecidableEq, Repr

structure Input where
  name : String
  type : String
  inset : Option Value
  wires : List Wire
deriving Repr

structure Node where
  index : Nat
  kind : String
  /-- The id of its type, or the name of its definition. -/
  id : String
  position : Position
  config : Json
  inputs : List Input
  outputs : List Entry
deriving Repr

end Summary

/-- A graph without the addresses of its nodes and definitions. -/
structure Summary where
  structs : List Summary.Definition
  functions : List Summary.Definition
  nodes : List Summary.Node
deriving Repr

/-- The number of wires. -/
def Summary.wireCount (summary : Summary) : Nat :=
  (summary.nodes.flatMap fun node => node.inputs.flatMap (·.wires)).length

namespace Graph

/-- The number of the node at each place among the nodes that are left. -/
def ranks (graph : Graph) : Array (Option Nat) :=
  (graph.arena.foldl (fun (ranks, next) place =>
    if place.isSome then (ranks.push (some next), next + 1)
    else (ranks.push none, next)) (#[], 0)).1

/-- The wires of an input by the numbers of the nodes they come from. -/
def numbered {α : Type} (ranks : Array (Option Nat)) (make : Nat → Wire → α) (input : Input) :
    List α :=
  input.wires.filterMap fun wire => ranks[wire.source.node.index]?.join.map (make · wire)

def summaryOfInput (ranks : Array (Option Nat)) (input : Input) : Summary.Input where
  name := input.port.name
  type := input.port.type.displayName
  inset := input.inset
  wires := numbered ranks (fun source wire => ⟨source, wire.source.slot, wire.relays⟩) input

def summaryOfNode (graph : Graph) (ranks : Array (Option Nat)) (index : Nat) (node : Node) :
    Summary.Node where
  index
  kind := node.kind.word
  id := (graph.nameOf? node.kind).getD ""
  position := node.position
  config := node.config
  inputs := node.inputs.map (summaryOfInput ranks)
  outputs := node.outputs.map (.ofPort ·.port)

def summary (graph : Graph) : Summary where
  structs := graph.structs.map fun entry => {
    name := entry.schema.name
    inputs := entry.schema.fields.map .ofField
    outputs := []
    inUse := graph.structInUse entry.id }
  functions := graph.functions.map fun entry => {
    name := entry.signature.name
    inputs := entry.signature.inputs.map .ofField
    outputs := entry.signature.outputs.map .ofField
    inUse := graph.functionInUse entry.id }
  nodes :=
    let ranks := graph.ranks
    graph.live.zipIdx.map fun ((_, node), index) => graph.summaryOfNode ranks index node

end Graph

end NodeScript
