import NodeScript.Catalog.NodeType
import NodeScript.Graph.Wiring

/-!
Edits of definitions, and the nodes that are made from them. A function owns the node of its
inputs and that of its outputs, a struct owns a constructor. A changed definition gets a new
address, and the nodes bound to the old one are replaced by new ones without wires. Structs stand
behind the structs that their fields mention.
-/

set_option autoImplicit false
set_option relaxedAutoImplicit false

namespace NodeScript.Graph

/-- Adds a node of a registered type with its canonical configuration. -/
def addBuiltin (graph : Graph) (registry : Registry) (id : String) (config : Json)
    (position : Position) : Except GraphError (NodeId × Graph) :=
  match registry.behavior? id with
  | none => .error (.unknownNodeType id)
  | some behavior => do
    let (config, ports) ← behavior.canonical graph.schemas config
    return graph.push (.ofPorts (.builtin id) config ports position)

/-- The ports of a node that is made from a definition. -/
def definedPorts (graph : Graph) (kind : NodeKind) : Except GraphError Ports :=
  let signature (id : FunctionId) : Except GraphError Signature :=
    match graph.function? id with
    | some entry => .ok entry.signature
    | none => .error (.unresolvedReference (toString id))
  match kind with
  | .call id => return (← signature id).callPorts
  | .functionInput id => return (← signature id).inputPorts
  | .functionOutput id => return (← signature id).outputPorts
  | .construct id =>
    match graph.struct? id with
    | some entry => .ok entry.schema.ports
    | none => .error (.unresolvedReference (toString id))
  | .builtin id => .error (.unknownNodeType id)

/-- Adds a node that is made from a definition. -/
def addDefined (graph : Graph) (kind : NodeKind) (position : Position) :
    Except GraphError (NodeId × Graph) := do
  let ports ← graph.definedPorts kind
  return graph.push (.ofPorts kind .null ports position)

/-- The names of the structs that the fields of a named struct mention. -/
def mentionedBy (graph : Graph) (name : String) : List String :=
  match graph.structNamed? name with
  | none => []
  | some entry => entry.schema.fields.filterMap fun field => field.type.schema?.map (·.name)

/-- Whether a named struct is one of the targets or leads to one through its fields. -/
def structLeadsTo (graph : Graph) (name : String) (targets : List String) : Bool :=
  leadsTo graph.mentionedBy targets.contains (graph.schemas.map (·.name)) [name]

/-- Refuses types with a struct that is not declared or leads to one that is being declared. -/
def checkMentions (graph : Graph) (types : List DataType) (declaring : List String) :
    Except GraphError Unit :=
  (types.filterMap DataType.schema?).forM fun schema =>
    if (graph.structNamed? schema.name).isNone || graph.structLeadsTo schema.name declaring then
      throw (.unresolvedReference schema.name)
    else pure ()

/-- Whether no field of a struct mentions a struct that is still to be placed. -/
def isReady (pending : List StructEntry) (entry : StructEntry) : Bool :=
  entry.schema.fields.all fun field =>
    match field.type.schema? with
    | some mentioned => !pending.any (·.schema.name == mentioned.name)
    | none => true

/-- The position of the first struct that may be placed, or of the first of all. -/
def nextReady (pending : List StructEntry) : Nat :=
  (pending.findIdx? (isReady pending)).getD 0

/-- Structs in an order in which each stands behind those that it mentions. -/
def inOrder (pending : List StructEntry) : List StructEntry :=
  match _found : pending[nextReady pending]? with
  | none => []
  | some entry => entry :: inOrder (pending.eraseIdx (nextReady pending))
termination_by pending.length
decreasing_by
  have inside := (List.getElem?_eq_some_iff.1 _found).1
  rw [List.length_eraseIdx]
  simp only [inside, if_true]
  omega

def modifyFunction (graph : Graph) (id : FunctionId) (change : FunctionEntry → FunctionEntry) :
    Graph :=
  { graph with functions := graph.functions.map fun entry =>
      if entry.id = id then change entry else entry }

def modifyStruct (graph : Graph) (id : StructId) (change : StructEntry → StructEntry) : Graph :=
  { graph with structs := graph.structs.map fun entry =>
      if entry.id = id then change entry else entry }

/-- Declares a function without its nodes. -/
def declareFunction (graph : Graph) (signature : Signature) :
    Except GraphError (FunctionId × Graph) :=
  if (graph.functionNamed? signature.name).isSome then
    .error (.duplicateDefinition signature.name)
  else
    let id : FunctionId := ⟨graph.nextDefinition⟩
    .ok (id, { graph with
      functions := graph.functions ++ [{ id, signature }]
      nextDefinition := graph.nextDefinition + 1 })

/-- Declares a struct without its constructor. -/
def declareStruct (graph : Graph) (schema : Schema) : Except GraphError (StructId × Graph) :=
  if (graph.structNamed? schema.name).isSome then .error (.duplicateDefinition schema.name)
  else
    let id : StructId := ⟨graph.nextDefinition⟩
    .ok (id, { graph with
      structs := graph.structs ++ [{ id, schema }]
      nextDefinition := graph.nextDefinition + 1 })

/-- The distance between the two nodes of a new function. -/
def boundaryGap : Double := 400

/-- Declares a function and places its two nodes. -/
def defineFunction (graph : Graph) (signature : Signature) (position : Position) :
    Except GraphError (FunctionId × Graph) := do
  graph.checkMentions signature.types []
  let (id, graph) ← graph.declareFunction signature
  let (input, graph) ← graph.addDefined (.functionInput id) position
  let (output, graph) ←
    graph.addDefined (.functionOutput id) ⟨position.x.add boundaryGap, position.y⟩
  return (id, graph.modifyFunction id fun entry =>
    { entry with input := some input, output := some output })

/-- Declares a struct and places its constructor. -/
def defineStruct (graph : Graph) (schema : Schema) (position : Position) :
    Except GraphError (StructId × Graph) := do
  if (graph.structNamed? schema.name).isSome then throw (.duplicateDefinition schema.name)
  graph.checkMentions (schema.fields.map Field.type) [schema.name]
  let (id, graph) ← graph.declareStruct schema
  let (boundary, graph) ← graph.addDefined (.construct id) position
  return (id, graph.modifyStruct id fun entry => { entry with boundary := some boundary })

/-- The first node of the given kind, or a new one. -/
def firstOrNew (graph : Graph) (kind : NodeKind) : Except GraphError (NodeId × Graph) :=
  match graph.arena.findIdx? (fun place => place.any (·.kind == kind)) with
  | some index => .ok (⟨index⟩, graph)
  | none => graph.addDefined kind .zero

/-- Gives a function a node of the given kind, if it lacks one. -/
def fillFunction (graph : Graph) (id : FunctionId) (lacks : Bool) (kind : NodeKind)
    (give : NodeId → FunctionEntry → FunctionEntry) : Except GraphError Graph :=
  if lacks then do
    let (node, graph) ← graph.firstOrNew kind
    return graph.modifyFunction id (give node)
  else .ok graph

/-- Gives a function the nodes that it lacks. -/
def completeFunction (graph : Graph) (id : FunctionId) : Except GraphError Graph :=
  match graph.function? id with
  | none => .ok graph
  | some entry => do
    let graph ← graph.fillFunction id entry.input.isNone (.functionInput id)
      fun node entry => { entry with input := some node }
    graph.fillFunction id entry.output.isNone (.functionOutput id)
      fun node entry => { entry with output := some node }

/-- Gives a struct the constructor that it lacks. -/
def completeStruct (graph : Graph) (id : StructId) : Except GraphError Graph :=
  match graph.struct? id with
  | none => .ok graph
  | some entry =>
    if entry.boundary.isSome then .ok graph
    else do
      let (node, graph) ← graph.firstOrNew (.construct id)
      return graph.modifyStruct id fun entry => { entry with boundary := some node }

/-- Gives every definition the nodes that it lacks. -/
def completeDefinitions (graph : Graph) : Except GraphError Graph := do
  let graph ← (graph.functions.map (·.id)).foldlM completeFunction graph
  (graph.structs.map (·.id)).foldlM completeStruct graph

/-- The nodes of the given kinds, in the order of their places. -/
def nodesOfKind (graph : Graph) (kind : NodeKind → Bool) : List NodeId :=
  (graph.live.filter fun (_, node) => kind node.kind).map (·.1)

/-- The kind of a node of a function once the function has another address. -/
def rebind (id : FunctionId) : NodeKind → NodeKind
  | .call _ => .call id
  | .functionInput _ => .functionInput id
  | .functionOutput _ => .functionOutput id
  | other => other

/-- Puts a new node in the stead of one that is bound to a function with another address. -/
def replaceBound (old : FunctionEntry) (id : FunctionId) (graph : Graph) (node : NodeId) :
    Except GraphError Graph :=
  match graph.detach? node with
  | none => .ok graph
  | some (removed, graph) => do
    let (fresh, graph) ← graph.addDefined (rebind id removed.kind) removed.position
    return graph.modifyFunction id fun entry =>
      if old.input = some node then { entry with input := some fresh }
      else if old.output = some node then { entry with output := some fresh }
      else entry

/-- Changes a function, whether it is in use or not. Gives nothing if there is no such function. -/
def redefineFunction (graph : Graph) (previous : FunctionId) (next : Signature) :
    Except GraphError (Option (FunctionId × Graph)) := do
  match graph.function? previous with
  | none => return none
  | some old =>
    if graph.functions.any (fun entry => entry.id != previous && entry.signature.name == next.name)
    then throw (.duplicateDefinition next.name)
    graph.checkMentions next.types []
    let id : FunctionId := ⟨graph.nextDefinition⟩
    let bound := graph.nodesOfKind (·.function? == some previous)
    let graph := { graph.modifyFunction previous fun _ => { id, signature := next } with
      nextDefinition := graph.nextDefinition + 1 }
    let graph ← bound.foldlM (replaceBound old id) graph
    return some (id, ← graph.completeDefinitions)

/-- Removes a function with all its nodes. Tells whether there was one. -/
def removeFunction (graph : Graph) (id : FunctionId) : Bool × Graph :=
  match graph.function? id with
  | none => (false, graph)
  | some _ =>
    let bound := graph.nodesOfKind (·.function? == some id)
    let graph := { graph with functions := graph.functions.filter (·.id != id) }
    (true, bound.foldl detach graph)

/-- Puts a new constructor in the stead of one for a struct with another address. -/
def replaceConstructor (old : StructEntry) (id : StructId) (graph : Graph) (node : NodeId) :
    Except GraphError Graph :=
  match graph.detach? node with
  | none => .ok graph
  | some (removed, graph) => do
    let (fresh, graph) ← graph.addDefined (.construct id) removed.position
    return graph.modifyStruct id fun entry =>
      if old.boundary = some node then { entry with boundary := some fresh } else entry

/-- Changes a struct, whether it is in use or not. Gives nothing if there is no such struct. -/
def redefineStruct (graph : Graph) (previous : StructId) (next : Schema) :
    Except GraphError (Option (StructId × Graph)) := do
  match graph.struct? previous with
  | none => return none
  | some old =>
    if graph.structs.any (fun entry => entry.id != previous && entry.schema.name == next.name)
    then throw (.duplicateDefinition next.name)
    graph.checkMentions (next.fields.map Field.type) [next.name, old.schema.name]
    let id : StructId := ⟨graph.nextDefinition⟩
    let bound := graph.nodesOfKind (· == .construct previous)
    let graph := { graph.modifyStruct previous fun _ => { id, schema := next } with
      nextDefinition := graph.nextDefinition + 1 }
    let graph ← bound.foldlM (replaceConstructor old id) graph
    let graph ← graph.completeDefinitions
    return some (id, { graph with structs := inOrder graph.structs })

/-- Removes a struct with all its constructors. Tells whether there was one. -/
def removeStruct (graph : Graph) (id : StructId) : Bool × Graph :=
  match graph.struct? id with
  | none => (false, graph)
  | some _ =>
    let bound := graph.nodesOfKind (· == .construct id)
    let graph := { graph with structs := graph.structs.filter (·.id != id) }
    (true, bound.foldl detach graph)

end NodeScript.Graph
