import NodeScript.Host.Basic
import NodeScript.Proofs.Graph.Edit

/-!
Edits in place: a graph is looked at and changed bit by bit, and what was changed before a refusal
stays changed. Main statement: but for what a refusal leaves behind, the edits in place do what the
edits do that give another graph (`Edit.outcome_perform`).
-/

set_option autoImplicit false
set_option relaxedAutoImplicit false

namespace NodeScript

abbrev Editing := EStateM GraphError Graph

namespace Editing

variable {α β : Type} {graph : Graph}

/-- Asks something of the graph that may be refused. -/
def check (question : Graph → Except GraphError α) : Editing α := do
  match question (← get) with
  | .ok a => return a
  | .error error => throw error

def addBuiltin (registry : Registry) (id : String) (config : Json) (position : Position) :
    Editing NodeId := do
  match registry.behavior? id with
  | none => throw (.unknownNodeType id)
  | some behavior =>
    let (config, ports) ← check fun graph => behavior.canonical graph.schemas config
    modifyGet (·.push (.ofPorts (.builtin id) config ports position))

def addDefined (kind : NodeKind) (position : Position) : Editing NodeId := do
  let ports ← check (·.definedPorts kind)
  modifyGet (·.push (.ofPorts kind .null ports position))

def move (id : NodeId) (position : Position) : Editing Unit := do
  match (← get).node? id with
  | none => throw (.unknownNode id)
  | some _ => modify (·.modifyNode id fun node => { node with position })

/-- Takes a node out, if there is one. -/
def detach? (id : NodeId) : Editing (Option Node) :=
  modifyGet fun graph => Host.orUnchanged graph (graph.detach? id)

def remove (id : NodeId) : Editing Node := do
  if (← get).owns id then throw (.boundaryNode id)
  match ← detach? id with
  | some node => return node
  | none => throw (.unknownNode id)

def connect (source : OutputRef) (target : InputRef) (relays : List Position) : Editing Unit := do
  let others ← check (·.displacedBy source target)
  modify (·.link source target relays others)

def disconnect (source : OutputRef) (target : InputRef) : Editing Bool :=
  modifyGet (·.disconnect source target)

def setInset (target : InputRef) (value : Option Value) : Editing Unit := do
  let input ← check (·.input target)
  match value with
  | some value =>
    if !input.port.type.accepts value then
      throw (.typeMismatch input.port.type.displayName value.kindName)
  | none => pure ()
  modify (·.modifyInput target fun input => { input with inset := value })

def takeNumber : Editing Nat :=
  modifyGet fun graph =>
    (graph.nextDefinition, { graph with nextDefinition := graph.nextDefinition + 1 })

def declareFunction (signature : Signature) : Editing FunctionId := do
  if ((← get).functionNamed? signature.name).isSome then
    throw (.duplicateDefinition signature.name)
  let id : FunctionId := ⟨← takeNumber⟩
  modify fun graph => { graph with functions := graph.functions ++ [{ id, signature }] }
  return id

def declareStruct (schema : Schema) : Editing StructId := do
  if ((← get).structNamed? schema.name).isSome then throw (.duplicateDefinition schema.name)
  let id : StructId := ⟨← takeNumber⟩
  modify fun graph => { graph with structs := graph.structs ++ [{ id, schema }] }
  return id

def defineFunction (signature : Signature) (position : Position) : Editing FunctionId := do
  check (·.checkMentions signature.types [])
  let id ← declareFunction signature
  let input ← addDefined (.functionInput id) position
  let output ← addDefined (.functionOutput id) ⟨position.x.add Graph.boundaryGap, position.y⟩
  modify (·.modifyFunction id fun entry =>
    { entry with input := some input, output := some output })
  return id

def defineStruct (schema : Schema) (position : Position) : Editing StructId := do
  if ((← get).structNamed? schema.name).isSome then throw (.duplicateDefinition schema.name)
  check (·.checkMentions (schema.fields.map Field.type) [schema.name])
  let id ← declareStruct schema
  let boundary ← addDefined (.construct id) position
  modify (·.modifyStruct id fun entry => { entry with boundary := some boundary })
  return id

def firstOrNew (kind : NodeKind) : Editing NodeId := do
  match (← get).arena.findIdx? (fun place => place.any (·.kind == kind)) with
  | some index => return ⟨index⟩
  | none => addDefined kind .zero

def fillFunction (id : FunctionId) (lacks : Bool) (kind : NodeKind)
    (give : NodeId → FunctionEntry → FunctionEntry) : Editing Unit := do
  if lacks then
    let node ← firstOrNew kind
    modify (·.modifyFunction id (give node))

def completeFunction (id : FunctionId) : Editing Unit := do
  match (← get).function? id with
  | none => pure ()
  | some entry =>
    fillFunction id entry.input.isNone (.functionInput id)
      fun node entry => { entry with input := some node }
    fillFunction id entry.output.isNone (.functionOutput id)
      fun node entry => { entry with output := some node }

def completeStruct (id : StructId) : Editing Unit := do
  match (← get).struct? id with
  | none => pure ()
  | some entry =>
    if entry.boundary.isSome then pure ()
    else
      let node ← firstOrNew (.construct id)
      modify (·.modifyStruct id fun entry => { entry with boundary := some node })

def completeDefinitions : Editing Unit := do
  ((← get).functions.map (·.id)).forM completeFunction
  ((← get).structs.map (·.id)).forM completeStruct

def replaceBound (old : FunctionEntry) (id : FunctionId) (node : NodeId) : Editing Unit := do
  match ← detach? node with
  | none => pure ()
  | some removed =>
    let fresh ← addDefined (Graph.rebind id removed.kind) removed.position
    modify (·.modifyFunction id fun entry =>
      if old.input = some node then { entry with input := some fresh }
      else if old.output = some node then { entry with output := some fresh }
      else entry)

def replaceFunction (old : FunctionEntry) (next : Signature) : Editing FunctionId := do
  let id : FunctionId := ⟨← takeNumber⟩
  modify (·.modifyFunction old.id fun _ => { id, signature := next })
  ((← get).nodesOfKind (·.function? == some old.id)).forM (replaceBound old id)
  completeDefinitions
  return id

def redefineFunction (previous : FunctionId) (next : Signature) :
    Editing (Option FunctionId) := do
  match (← get).function? previous with
  | none => return none
  | some old =>
    if (← get).functions.any fun entry => entry.id != previous && entry.signature.name == next.name
    then throw (.duplicateDefinition next.name)
    check (·.checkMentions next.types [])
    return some (← replaceFunction old next)

def removeFunction (id : FunctionId) : Editing Bool := modifyGet (·.removeFunction id)

def replaceConstructor (old : StructEntry) (id : StructId) (node : NodeId) : Editing Unit := do
  match ← detach? node with
  | none => pure ()
  | some removed =>
    let fresh ← addDefined (.construct id) removed.position
    modify (·.modifyStruct id fun entry =>
      if old.boundary = some node then { entry with boundary := some fresh } else entry)

def replaceStruct (old : StructEntry) (next : Schema) : Editing StructId := do
  let id : StructId := ⟨← takeNumber⟩
  modify (·.modifyStruct old.id fun _ => { id, schema := next })
  ((← get).nodesOfKind (· == .construct old.id)).forM (replaceConstructor old id)
  completeDefinitions
  modify fun graph => { graph with structs := Graph.inOrder graph.structs }
  return id

def redefineStruct (previous : StructId) (next : Schema) : Editing (Option StructId) := do
  match (← get).struct? previous with
  | none => return none
  | some old =>
    if (← get).structs.any fun entry => entry.id != previous && entry.schema.name == next.name
    then throw (.duplicateDefinition next.name)
    check (·.checkMentions (next.fields.map Field.type) [next.name, old.schema.name])
    return some (← replaceStruct old next)

def removeStruct (id : StructId) : Editing Bool := modifyGet (·.removeStruct id)

end Editing

namespace Graph

def replaceFunction (graph : Graph) (old : FunctionEntry) (next : Signature) :
    Except GraphError (FunctionId × Graph) := do
  let id : FunctionId := ⟨graph.nextDefinition⟩
  let middle ← (graph.nodesOfKind (·.function? == some old.id)).foldlM (replaceBound old id)
    (graph.redeclareFunction old.id next)
  return (id, ← middle.completeDefinitions)

def replaceStruct (graph : Graph) (old : StructEntry) (next : Schema) :
    Except GraphError (StructId × Graph) := do
  let id : StructId := ⟨graph.nextDefinition⟩
  let middle ← (graph.nodesOfKind (· == .construct old.id)).foldlM (replaceConstructor old id)
    (graph.redeclareStruct old.id next)
  let last ← middle.completeDefinitions
  return (id, { last with structs := inOrder last.structs })

theorem redefineFunction_eq (graph : Graph) {previous : FunctionId} {old : FunctionEntry}
    (found : graph.function? previous = some old) (next : Signature) :
    graph.redefineFunction previous next = (do
      if graph.functions.any fun entry => entry.id != previous && entry.signature.name == next.name
      then throw (.duplicateDefinition next.name)
      graph.checkMentions next.types []
      return some (← graph.replaceFunction old next)) := by
  obtain rfl : old.id = previous := by simpa using List.find?_some found
  simp only [redefineFunction, found, replaceFunction, bind_assoc, pure_bind]
  rfl

theorem redefineStruct_eq (graph : Graph) {previous : StructId} {old : StructEntry}
    (found : graph.struct? previous = some old) (next : Schema) :
    graph.redefineStruct previous next = (do
      if graph.structs.any fun entry => entry.id != previous && entry.schema.name == next.name
      then throw (.duplicateDefinition next.name)
      graph.checkMentions (next.fields.map Field.type) [next.name, old.schema.name]
      return some (← graph.replaceStruct old next)) := by
  obtain rfl : old.id = previous := by simpa using List.find?_some found
  simp only [redefineStruct, found, replaceStruct, bind_assoc, pure_bind]
  rfl

end Graph

namespace Editing

variable {α β : Type} {graph : Graph}

/-- The outcome of an edit in place, without what a refusal leaves behind. -/
def outcome (editing : Editing α) (graph : Graph) : Except GraphError (α × Graph) :=
  match editing.run graph with
  | .ok a next => .ok (a, next)
  | .error error _ => .error error

@[simp] theorem outcome_pure (a : α) : (pure a : Editing α).outcome graph = .ok (a, graph) := rfl

@[simp] theorem outcome_throw (error : GraphError) :
    (throw error : Editing α).outcome graph = .error error := rfl

@[simp] theorem outcome_get : (get : Editing Graph).outcome graph = .ok (graph, graph) := rfl

@[simp] theorem outcome_modify (change : Graph → Graph) :
    (modify change : Editing Unit).outcome graph = .ok ((), change graph) := rfl

@[simp] theorem outcome_modifyGet (change : Graph → α × Graph) :
    (modifyGet change : Editing α).outcome graph = .ok (change graph) := rfl

theorem outcome_bind (editing : Editing α) (next : α → Editing β) :
    (editing >>= next).outcome graph =
      editing.outcome graph >>= fun (a, graph) => (next a).outcome graph := by
  simp only [outcome, EStateM.run, bind, EStateM.bind]
  cases editing graph <;> rfl

@[simp] theorem outcome_map (editing : Editing α) (f : α → β) :
    (f <$> editing).outcome graph = (editing.outcome graph).map fun (a, graph) => (f a, graph) := by
  simp only [outcome, EStateM.run, Functor.map, EStateM.map, Except.map]
  cases editing graph <;> rfl

private theorem ok_bind (a : α) (next : α → Except GraphError β) :
    (Except.ok a >>= next) = next a := rfl

private theorem map_bind {γ : Type} (answer : Except GraphError α) (f : α → β)
    (next : β → Except GraphError γ) : answer.map f >>= next = answer >>= fun a => next (f a) := by
  cases answer <;> rfl

private theorem map_map {γ : Type} (answer : Except GraphError α) (f : α → β) (g : β → γ) :
    (answer.map f).map g = answer.map fun a => g (f a) := by
  cases answer <;> rfl

@[simp] theorem outcome_check (question : Graph → Except GraphError α) :
    (check question).outcome graph = (question graph).map (·, graph) := by
  simp only [check, outcome_bind, outcome_get, ok_bind]
  cases question graph <;> rfl

theorem outcome_addBuiltin (registry : Registry) (id : String) (config : Json)
    (position : Position) : (addBuiltin registry id config position).outcome graph =
      graph.addBuiltin registry id config position := by
  unfold addBuiltin Graph.addBuiltin
  cases registry.behavior? id with
  | none => rfl
  | some behavior =>
    simp only [outcome_bind, outcome_check, outcome_modifyGet]
    cases behavior.canonical graph.schemas config <;> rfl

theorem outcome_addDefined (kind : NodeKind) (position : Position) :
    (addDefined kind position).outcome graph = graph.addDefined kind position := by
  simp only [addDefined, Graph.addDefined, outcome_bind, outcome_check, outcome_modifyGet]
  cases graph.definedPorts kind <;> rfl

theorem outcome_move (id : NodeId) (position : Position) :
    (move id position).outcome graph = (graph.move id position).map ((), ·) := by
  simp only [move, Graph.move, outcome_bind, outcome_get, ok_bind]
  cases graph.node? id <;> rfl

theorem outcome_detach? (id : NodeId) :
    (detach? id).outcome graph = .ok (Host.orUnchanged graph (graph.detach? id)) := rfl

theorem outcome_remove (id : NodeId) : (remove id).outcome graph = graph.remove id := by
  simp only [remove, Graph.remove, outcome_bind, outcome_get, ok_bind]
  split
  · rfl
  · simp only [outcome_bind, outcome_detach?, ok_bind]
    cases graph.detach? id <;> rfl

theorem outcome_connect (source : OutputRef) (target : InputRef) (relays : List Position) :
    (connect source target relays).outcome graph =
      (graph.connect source target relays).map ((), ·) := by
  simp only [connect, Graph.connect, outcome_bind, outcome_check, outcome_modify]
  cases graph.displacedBy source target <;> rfl

theorem outcome_disconnect (source : OutputRef) (target : InputRef) :
    (disconnect source target).outcome graph = .ok (graph.disconnect source target) := rfl

theorem outcome_setInset (target : InputRef) (value : Option Value) :
    (setInset target value).outcome graph = (graph.setInset target value).map ((), ·) := by
  simp only [setInset, Graph.setInset, outcome_bind, outcome_check]
  cases graph.input target with
  | error => rfl
  | ok input =>
    cases value with
    | none => rfl
    | some value =>
      cases h : input.port.type.accepts value <;> simp [h, Except.map, ok_bind] <;> rfl

theorem outcome_declareFunction (signature : Signature) :
    (declareFunction signature).outcome graph = graph.declareFunction signature := by
  simp only [declareFunction, Graph.declareFunction, outcome_bind, outcome_get, ok_bind]
  split <;> rfl

theorem outcome_declareStruct (schema : Schema) :
    (declareStruct schema).outcome graph = graph.declareStruct schema := by
  simp only [declareStruct, Graph.declareStruct, outcome_bind, outcome_get, ok_bind]
  split <;> rfl

theorem outcome_defineFunction (signature : Signature) (position : Position) :
    (defineFunction signature position).outcome graph =
      graph.defineFunction signature position := by
  simp only [defineFunction, Graph.defineFunction, outcome_bind, outcome_check,
    outcome_declareFunction, outcome_addDefined, outcome_modify, outcome_pure]
  cases graph.checkMentions signature.types [] <;> rfl

theorem outcome_defineStruct (schema : Schema) (position : Position) :
    (defineStruct schema position).outcome graph = graph.defineStruct schema position := by
  simp only [defineStruct, Graph.defineStruct, outcome_bind, outcome_get, ok_bind]
  split
  · rfl
  · simp only [outcome_bind, outcome_check, outcome_declareStruct, outcome_addDefined,
      outcome_modify, outcome_pure]
    cases graph.checkMentions (schema.fields.map Field.type) [schema.name] <;> rfl

theorem outcome_firstOrNew (kind : NodeKind) :
    (firstOrNew kind).outcome graph = graph.firstOrNew kind := by
  simp only [firstOrNew, Graph.firstOrNew, outcome_bind, outcome_get, ok_bind]
  cases graph.arena.findIdx? fun place => place.any (·.kind == kind) with
  | some index => rfl
  | none => exact outcome_addDefined kind .zero

theorem outcome_fillFunction (id : FunctionId) (lacks : Bool) (kind : NodeKind)
    (give : NodeId → FunctionEntry → FunctionEntry) :
    (fillFunction id lacks kind give).outcome graph =
      (graph.fillFunction id lacks kind give).map ((), ·) := by
  unfold fillFunction Graph.fillFunction
  split
  · simp only [outcome_bind, outcome_firstOrNew, outcome_modify]
    cases graph.firstOrNew kind <;> rfl
  · rfl

theorem outcome_completeFunction (id : FunctionId) :
    (completeFunction id).outcome graph = (graph.completeFunction id).map ((), ·) := by
  simp only [completeFunction, Graph.completeFunction, outcome_bind, outcome_get, ok_bind]
  cases graph.function? id with
  | none => rfl
  | some entry =>
    simp only [outcome_bind, outcome_fillFunction]
    cases graph.fillFunction id entry.input.isNone (.functionInput id)
      fun node entry => { entry with input := some node } <;> rfl

theorem outcome_completeStruct (id : StructId) :
    (completeStruct id).outcome graph = (graph.completeStruct id).map ((), ·) := by
  simp only [completeStruct, Graph.completeStruct, outcome_bind, outcome_get, ok_bind]
  cases graph.struct? id with
  | none => rfl
  | some entry =>
    dsimp only
    split
    · rfl
    · simp only [outcome_bind, outcome_firstOrNew, outcome_modify]
      cases graph.firstOrNew (.construct id) <;> rfl

theorem outcome_forM {ι : Type} {body : ι → Editing Unit}
    {step : Graph → ι → Except GraphError Graph}
    (each : ∀ graph a, (body a).outcome graph = (step graph a).map ((), ·)) (items : List ι) :
    (items.forM body).outcome graph = (items.foldlM step graph).map ((), ·) := by
  induction items generalizing graph with
  | nil => rfl
  | cons a items ih =>
    rw [List.forM, outcome_bind, each, List.foldlM_cons]
    cases step graph a with
    | error => rfl
    | ok next => exact ih

theorem outcome_completeDefinitions :
    completeDefinitions.outcome graph = graph.completeDefinitions.map ((), ·) := by
  simp only [completeDefinitions, Graph.completeDefinitions, outcome_bind, outcome_get, ok_bind,
    outcome_forM fun _ => outcome_completeFunction]
  cases (graph.functions.map (·.id)).foldlM Graph.completeFunction graph with
  | error => rfl
  | ok middle => exact outcome_forM (fun _ => outcome_completeStruct) _

theorem outcome_replaceBound (old : FunctionEntry) (id : FunctionId) (node : NodeId) :
    (replaceBound old id node).outcome graph = (graph.replaceBound old id node).map ((), ·) := by
  simp only [replaceBound, Graph.replaceBound, outcome_bind, outcome_detach?, ok_bind]
  cases graph.detach? node with
  | none => rfl
  | some removed =>
    simp only [Host.orUnchanged, outcome_bind, outcome_addDefined, outcome_modify]
    cases removed.2.addDefined (Graph.rebind id removed.1.kind) removed.1.position <;> rfl

theorem outcome_replaceConstructor (old : StructEntry) (id : StructId) (node : NodeId) :
    (replaceConstructor old id node).outcome graph =
      (graph.replaceConstructor old id node).map ((), ·) := by
  simp only [replaceConstructor, Graph.replaceConstructor, outcome_bind, outcome_detach?, ok_bind]
  cases graph.detach? node with
  | none => rfl
  | some removed =>
    simp only [Host.orUnchanged, outcome_bind, outcome_addDefined, outcome_modify]
    cases removed.2.addDefined (.construct id) removed.1.position <;> rfl

theorem outcome_replaceFunction (old : FunctionEntry) (next : Signature) :
    (replaceFunction old next).outcome graph = graph.replaceFunction old next := by
  simp only [replaceFunction, takeNumber, outcome_bind, outcome_modifyGet, outcome_modify,
    outcome_get, ok_bind, outcome_forM fun _ => outcome_replaceBound old _,
    outcome_completeDefinitions, outcome_pure, map_bind]
  rfl

theorem outcome_replaceStruct (old : StructEntry) (next : Schema) :
    (replaceStruct old next).outcome graph = graph.replaceStruct old next := by
  simp only [replaceStruct, takeNumber, outcome_bind, outcome_modifyGet, outcome_modify,
    outcome_get, ok_bind, outcome_forM fun _ => outcome_replaceConstructor old _,
    outcome_completeDefinitions, outcome_pure, map_bind]
  rfl

theorem outcome_redefineFunction (previous : FunctionId) (next : Signature) :
    (redefineFunction previous next).outcome graph =
      (graph.redefineFunction previous next).map (Host.orUnchanged graph) := by
  simp only [redefineFunction, outcome_bind, outcome_get, ok_bind]
  cases found : graph.function? previous with
  | none =>
    simp only [Graph.redefineFunction, found]
    rfl
  | some old =>
    rw [graph.redefineFunction_eq found next]
    simp only [outcome_bind, outcome_get, ok_bind]
    split
    · rfl
    · simp only [outcome_bind, outcome_check, outcome_replaceFunction, outcome_pure, map_bind]
      cases graph.checkMentions next.types [] with
      | error => rfl
      | ok =>
        simp only [ok_bind]
        cases graph.replaceFunction old next <;> rfl

theorem outcome_redefineStruct (previous : StructId) (next : Schema) :
    (redefineStruct previous next).outcome graph =
      (graph.redefineStruct previous next).map (Host.orUnchanged graph) := by
  simp only [redefineStruct, outcome_bind, outcome_get, ok_bind]
  cases found : graph.struct? previous with
  | none =>
    simp only [Graph.redefineStruct, found]
    rfl
  | some old =>
    rw [graph.redefineStruct_eq found next]
    simp only [outcome_bind, outcome_get, ok_bind]
    split
    · rfl
    · simp only [outcome_bind, outcome_check, outcome_replaceStruct, outcome_pure, map_bind]
      cases graph.checkMentions (next.fields.map Field.type) [next.name, old.schema.name] with
      | error => rfl
      | ok =>
        simp only [ok_bind]
        cases graph.replaceStruct old next <;> rfl

end Editing

def Editing.certain {α : Type} (editing : Editing α) : Editing Bool := do
  let _ ← editing
  return true

namespace Edit

/-- Makes an edit in place. Tells whether there was anything to change. -/
def perform (registry : Registry) : Edit → Editing Bool
  | addBuiltin id config position => (Editing.addBuiltin registry id config position).certain
  | addCall f position => (Editing.addDefined (.call f) position).certain
  | addConstructor s position => (Editing.addDefined (.construct s) position).certain
  | move node position => (Editing.move node position).certain
  | remove node => (Editing.remove node).certain
  | connect source target relays => (Editing.connect source target relays).certain
  | disconnect source target => Editing.disconnect source target
  | setInset target value => (Editing.setInset target value).certain
  | defineFunction signature position => (Editing.defineFunction signature position).certain
  | defineStruct schema position => (Editing.defineStruct schema position).certain
  | redefineFunction f signature => return (← Editing.redefineFunction f signature).isSome
  | redefineStruct s schema => return (← Editing.redefineStruct s schema).isSome
  | removeFunction f => Editing.removeFunction f
  | removeStruct s => Editing.removeStruct s

/-- The graph after an edit, and whether there was anything to change. -/
def make (registry : Registry) (graph : Graph) : Edit → Except GraphError (Bool × Graph)
  | disconnect source target => .ok (graph.disconnect source target)
  | redefineFunction f signature =>
    (graph.redefineFunction f signature).map fun changed =>
      (changed.isSome, (changed.map (·.2)).getD graph)
  | redefineStruct s schema =>
    (graph.redefineStruct s schema).map fun changed =>
      (changed.isSome, (changed.map (·.2)).getD graph)
  | removeFunction f => .ok (graph.removeFunction f)
  | removeStruct s => .ok (graph.removeStruct s)
  | edit => (edit.apply registry graph).map (true, ·)

/-- Refuses the changes of definitions that a host refuses. -/
def guard (edit : Edit) (graph : Graph) : Except GraphError Unit :=
  match edit with
  | redefineFunction f _ | removeFunction f => Host.guardFunction graph f (.ok ())
  | redefineStruct s _ | removeStruct s => Host.guardStruct graph s (.ok ())
  | _ => .ok ()

/-- Makes an edit in place, or only if a host allows it. -/
def performAs (guarded : Bool) (registry : Registry) (edit : Edit) : Editing Bool := do
  if guarded then Editing.check edit.guard
  edit.perform registry

variable {registry : Registry} {graph : Graph}

theorem map_make (edit : Edit) :
    (edit.make registry graph).map (·.2) = edit.apply registry graph := by
  have kept (answer : Except GraphError Graph) : answer.map (fun next => next) = answer := by
    cases answer <;> rfl
  cases edit <;> simp only [make, Editing.map_map, kept] <;> rfl

theorem outcome_certain {α : Type} (editing : Editing α) :
    editing.certain.outcome graph = (editing.outcome graph).map fun (_, next) => (true, next) := by
  rw [Editing.certain, Editing.outcome_bind]
  cases editing.outcome graph <;> rfl

/-- Edits in place are those that give another graph. -/
theorem outcome_perform (edit : Edit) :
    (edit.perform registry).outcome graph = edit.make registry graph := by
  cases edit <;> simp only [perform, make, apply, outcome_certain, Editing.map_map,
    Editing.outcome_bind, Editing.outcome_addBuiltin, Editing.outcome_addDefined,
    Editing.outcome_move, Editing.outcome_remove, Editing.outcome_connect,
    Editing.outcome_disconnect, Editing.outcome_setInset, Editing.outcome_defineFunction,
    Editing.outcome_defineStruct, Editing.outcome_redefineFunction,
    Editing.outcome_redefineStruct]
  case redefineFunction f signature =>
    cases graph.redefineFunction f signature with
    | error => rfl
    | ok changed => cases changed <;> rfl
  case redefineStruct s schema =>
    cases graph.redefineStruct s schema with
    | error => rfl
    | ok changed => cases changed <;> rfl
  all_goals rfl

end Edit

end NodeScript
