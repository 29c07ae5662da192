import NodeScript.Format.Record
import NodeScript.Format.Upgrade
import NodeScript.Graph.Definition

/-!
Graphs from files of any version. First the nodes are placed in the order of their table, those
whose type or definition is unknown leaving a gap; then the wires are put in, which may lead
forward in the table, and those that do not fit are left out. Definitions that own no node get
new ones.
-/

set_option autoImplicit false
set_option relaxedAutoImplicit false

namespace NodeScript.Format

/-- A loaded graph, and what was left out of it. -/
structure Loaded where
  graph : Graph
  /-- The version of the file. -/
  version : Int32
  droppedNodes : Nat
  droppedWires : Nat
deriving Repr

/-- A struct, whose fields may mention the structs before it. -/
def readSchema (graph : Graph) : Decode Graph := do
  let name ← Decode.text
  let n ← Decode.byte
  let fields ← Decode.times n.toNat (decodeField graph.schemas)
  match graph.declareStruct { name, fields } with
  | .ok (_, graph) => return graph
  | .error _ => throw (.duplicateDefinition name)

def readSignature (graph : Graph) : Decode Graph := do
  let name ← Decode.text
  let inputs ← Decode.many (decodeField graph.schemas)
  let outputs ← Decode.many (decodeField graph.schemas)
  match graph.declareFunction { name, inputs, outputs } with
  | .ok (_, graph) => return graph
  | .error _ => throw (.duplicateDefinition name)

/-- The kind of a node that is made from a definition, if there is such a definition. -/
def definedKind? (graph : Graph) (record : NodeRecord) : Option NodeKind :=
  let function (kind : FunctionId → NodeKind) : Option NodeKind :=
    (graph.functionNamed? record.name).map fun entry => kind entry.id
  match record.kind.toNat with
  | 1 => function .call
  | 2 => function .functionInput
  | 3 => function .functionOutput
  | 4 => (graph.structNamed? record.name).map fun entry => .construct entry.id
  | _ => none

/-- The node of a record with its literals, or nothing where its type or its definition is not
known or does not take its configuration. -/
def readNode (registry : Registry) (graph : Graph) (record : NodeRecord) :
    Decode (Option (Node × List (Nat × Value))) :=
  if record.kind = 0 then
    match registry.behavior? record.name with
    | none => return none
    | some behavior => do
      let (insets, config) ← Decode.within record.payload do
        return (← decodeInsets, ← behavior.readAmong graph.schemas)
      match behavior.ports config graph.schemas with
      | .ok ports =>
        return some (.ofPorts (.builtin record.name) config ports record.position, insets)
      | .error _ => return none
  else
    match definedKind? graph record with
    | none => return none
    | some kind => do
      let insets ← Decode.within record.payload decodeInsets
      match graph.definedPorts kind with
      | .ok ports => return some (.ofPorts kind .null ports record.position, insets)
      | .error _ => return none

/-- Sets a literal, unless the node does not take it. -/
def setInsetIfFits (node : NodeId) (graph : Graph) (inset : Nat × Value) : Graph :=
  match graph.setInset ⟨node, inset.1⟩ (some inset.2) with
  | .ok graph => graph
  | .error _ => graph

/-- A wire of the table: the number of the node it leads to, the input, and the wire. -/
abbrev PendingWire := Nat × Nat × WireRecord

/-- A graph in the making. -/
structure Loading where
  graph : Graph
  /-- Where each node of the table is, if it was placed. -/
  placed : Array (Option NodeId) := #[]
  pending : Array PendingWire := #[]

/-- Places a node of the table with its literals, or leaves a gap, and keeps the wires that lead
to it for later. -/
def Loading.place (loading : Loading) (record : NodeRecord)
    (node? : Option (Node × List (Nat × Value))) : Loading :=
  let ⟨graph, placed, pending⟩ := loading
  let consumer := placed.size
  let pending := pending ++ record.inputs.zipIdx.flatMap fun (wires, slot) =>
    wires.map (consumer, slot, ·)
  match node? with
  | none => { graph, placed := placed.push none, pending }
  | some (node, insets) =>
    let (id, graph) := graph.push node
    { graph := insets.foldl (setInsetIfFits id) graph
      placed := placed.push (some id)
      pending }

/-- Places the next node of the table. -/
def Loading.readNext (registry : Registry) (loading : Loading) : Decode Loading := do
  let record ← NodeRecord.decode
  let node? ← readNode registry loading.graph record
  return loading.place record node?

/-- The ports that a wire of the table leads between, if both its nodes were placed. -/
def ends? (placed : Array (Option NodeId)) (wire : PendingWire) :
    Option (OutputRef × InputRef) := do
  let (consumer, slot, record) := wire
  let target ← placed[consumer]?.join
  let source ← placed[record.source]?.join
  return (⟨source, record.output⟩, ⟨target, slot⟩)

/-- Puts a wire of the table into a graph, or counts it among those that are left out. -/
def connectNext (placed : Array (Option NodeId)) (state : Graph × Nat) (wire : PendingWire) :
    Graph × Nat :=
  let (graph, dropped) := state
  match ends? placed wire with
  | none => (graph, dropped + 1)
  | some (source, target) =>
    match graph.displacedBy source target with
    | .ok others => (graph.link source target wire.2.2.relays others, dropped)
    | .error _ => (graph, dropped + 1)

/-- Reads a file in the current layout, behind its version. -/
def readTables (registry : Registry) : Decode (Graph × Nat × Nat) := do
  let graph ← Decode.iterate readSchema (← Decode.count) .empty
  let graph ← Decode.iterate readSignature (← Decode.count) graph
  let loading ← Decode.iterate (Loading.readNext registry) (← Decode.count) { graph }
  let ⟨graph, placed, pending⟩ := loading
  let (graph, droppedWires) := pending.foldl (connectNext placed) (graph, 0)
  match graph.completeDefinitions with
  | .ok graph => return (graph, placed.countP Option.isNone, droppedWires)
  -- The values of constants play no part in this error.
  | .error error => throw (.malformed (error.message fun _ => ""))

/-- The graph of a file that may be of an older version, after the given steps. Bytes behind the
tables do not count. -/
def decodeWith (steps : List Step) (registry : Registry) (file : Bytes) :
    Except DecodeError Loaded := do
  let version ← Decode.int32.result file
  if !isKnown version then throw (.unsupportedVersion version)
  let file ← upgrade steps file
  Decode.result (do
    let reached ← Decode.int32
    if reached != current then throw (.unsupportedVersion reached)
    let (graph, droppedNodes, droppedWires) ← readTables registry
    return { graph, version, droppedNodes, droppedWires }) file

def decode (registry : Registry) (file : Bytes) : Except DecodeError Loaded :=
  decodeWith Step.all registry file

end NodeScript.Format
