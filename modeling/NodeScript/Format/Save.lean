import NodeScript.Format.Record
import NodeScript.Graph.Definition
import NodeScript.Summary.Basic

/-!
Graphs as files of any version. What the layout of a version cannot hold is refused, relays apart,
which are only drawn.
-/

set_option autoImplicit false
set_option relaxedAutoImplicit false

namespace NodeScript.Graph

open Format

/-- The first struct that types mention before it is written. -/
def firstUndeclared? (types : List DataType) (written : List String) : Option String :=
  ((types.filterMap DataType.schema?).find? fun schema => !written.contains schema.name).map
    (·.name)

/-- Why structs cannot be written in the given order behind those that are written. -/
def structOrderFault? : List String → List StructEntry → Option String
  | _, [] => none
  | written, entry :: rest =>
    match firstUndeclared? (entry.schema.fields.map Field.type) written with
    | some missing =>
      some s!"struct {entry.schema.name} refers to {missing} ahead of its definition"
    | none => structOrderFault? (entry.schema.name :: written) rest

/-- Why a function cannot be written. -/
def functionFault? (graph : Graph) : Option String :=
  graph.functions.findSome? fun entry =>
    (firstUndeclared? entry.signature.types (graph.schemas.map (·.name))).map fun missing =>
      s!"function {entry.signature.name} refers to undefined struct {missing}"

/-- Why a graph cannot be written in the layout of a version. -/
def fault? (graph : Graph) (version : Int32) : Option String :=
  let nodes := graph.live.map (·.2)
  let isDefined (node : Node) : Bool := match node.kind with
    | .builtin _ => false
    | _ => true
  if !isKnown version then some "unknown version"
  else if version < withStructs && !graph.structs.isEmpty then some "struct definitions"
  else if version < withFunctions && !graph.functions.isEmpty then some "function definitions"
  else if version < withFunctions && nodes.any isDefined then some "nodes bound to definitions"
  else if version < withInsets && nodes.any (·.inputs.any (·.inset.isSome)) then
    some "input insets"
  else
    match graph.structs.find? (255 < ·.schema.fields.length) with
    | some entry => some s!"struct {entry.schema.name} has too many fields"
    | none => (structOrderFault? [] graph.structs).or graph.functionFault?

/-- The literals of the inputs of a node. -/
def insetsOf (node : Node) : List (Nat × Value) :=
  node.inputs.zipIdx.filterMap fun (input, slot) => input.inset.map (slot, ·)

/-- The configuration of a node in bytes. -/
def configBytes (registry : Registry) (node : Node) : Bytes :=
  match node.kind with
  | .builtin id =>
    match registry.behavior? id with
    | some behavior => behavior.write node.config
    | none => []
  | _ => []

/-- A node as it stands in a file, or nothing where its definition is missing. -/
def record? (graph : Graph) (ranks : Array (Option Nat)) (registry : Registry) (version : Int32)
    (node : Node) : Option NodeRecord :=
  (graph.nameOf? node.kind).map fun name => {
    name
    kind := node.kind.code
    payload := (if withInsets ≤ version then encodeInsets (insetsOf node) else []) ++
      configBytes registry node
    position := node.position
    inputs := node.inputs.map <| numbered ranks fun source wire =>
      ⟨source, wire.source.slot, wire.relays⟩ }

/-- The table of nodes. -/
def records (graph : Graph) (registry : Registry) (version : Int32) :
    Except FileError (List NodeRecord) :=
  let ranks := graph.ranks
  graph.live.mapM fun (id, node) =>
    match graph.record? ranks registry version node with
    | some record => .ok record
    | none => .error (.unrepresentable version s!"node {id} is bound to a missing definition")

def encodeSchema (schema : Schema) : Bytes :=
  Encode.text schema.name ++ UInt8.ofNat schema.fields.length :: schema.fields.flatMap encodeField

def encodeSignature (signature : Signature) : Bytes :=
  Encode.text signature.name ++ Encode.many encodeField signature.inputs ++
    Encode.many encodeField signature.outputs

/-- The bytes of a graph in the layout of a version. -/
def encode (graph : Graph) (registry : Registry) (version : Int32) : Except FileError Bytes := do
  if let some reason := graph.fault? version then throw (.unrepresentable version reason)
  let nodes ← graph.records registry version
  return Encode.int32 version ++
    (if withStructs ≤ version then Encode.many encodeSchema graph.schemas else []) ++
    (if withFunctions ≤ version then
      Encode.many encodeSignature (graph.functions.map (·.signature)) else []) ++
    Encode.many (NodeRecord.encode version) nodes

end NodeScript.Graph
