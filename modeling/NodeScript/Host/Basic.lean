import NodeScript.Format.Load
import NodeScript.Run.Machine
import NodeScript.Text.Glob

/-!
Hosts: a graph with its program, which events run. Every edit is followed by a new compilation, so
the program is always that of the graph. The guarded edits leave definitions that are in use
alone.
-/

set_option autoImplicit false
set_option relaxedAutoImplicit false

namespace NodeScript

/-- What the runs of an event add up to. -/
structure EventStats where
  invocations : Nat := 0
  failures : Nat := 0
  steps : Nat := 0
deriving DecidableEq, Inhabited, Repr

/-- A graph that events run. -/
structure Host where
  registry : Registry
  graph : Graph := {}
  program : Program := Program.compile graph registry
  stats : Dict EventStats := []
  maxCallDepth : Nat := 256

namespace Host

def ofGraph (registry : Registry) (graph : Graph) : Host := { registry, graph }

def machine (host : Host) : Machine :=
  { graph := host.graph, program := host.program, maxCallDepth := host.maxCallDepth }

/-- Counts a run. -/
def record (event : String) (steps : Nat) (failed : Bool) (stats : Dict EventStats) :
    Dict EventStats :=
  let known := (stats.lookup event).getD {}
  Dict.insert event {
    invocations := known.invocations + 1
    failures := known.failures + if failed then 1 else 0
    steps := known.steps + steps } stats

/-- What a run from an entry point leaves behind, and how many steps it made. -/
def invoke (host : Host) (fuel : Nat) (trigger : Trigger) (draws : Draws) (entry : EntryPoint) :
    Except Stop Report × Nat :=
  let (result, ctx) := (host.machine.emit fuel entry).runAt (.ofTrigger trigger draws)
  (result.map fun _ => ctx.report, ctx.steps)

/-- Runs every entry point of the event of the trigger, each in a context of its own. The runs draw
their random numbers from a source each, by their place. -/
def fire (host : Host) (fuel : Nat) (trigger : Trigger)
    (draws : Nat → Draws := fun _ => default) : List (Except Stop Report) × Host :=
  let runs := (host.program.entries.subscribers trigger.event).toList.mapIdx fun place entry =>
    host.invoke fuel trigger (draws place) entry
  let stats := runs.foldl (fun stats (result, steps) =>
    record trigger.event steps (result matches .error _) stats) host.stats
  (runs.map (·.1), { host with stats })

/-- Runs every event whose name has the form of the pattern, in the order of the names. -/
def fireMatching (host : Host) (fuel : Nat) (pattern : String) (trigger : Trigger)
    (draws : String → Nat → Draws := fun _ _ => default) : List (Except Stop Report) × Host :=
  let events := (host.program.entries.events.map (·.1)).filter fun event =>
    Text.matchesGlob pattern.toList event.toList
  events.foldl (fun (results, host) event =>
    let (more, host) := host.fire fuel { trigger with event } (draws event)
    (results ++ more, host)) ([], host)

/-- Takes another graph in the place of the old one. -/
def replace (host : Host) (graph : Graph) : Host :=
  { host with graph, program := Program.compile graph host.registry }

/-- Makes an edit that may be refused; a refused edit changes nothing. -/
def edit {α : Type} (host : Host) (change : Graph → Except GraphError (α × Graph)) :
    Except GraphError α × Host :=
  match change host.graph with
  | .ok (result, graph) => (.ok result, host.replace graph)
  | .error error => (.error error, host.replace host.graph)

/-- An edit that finds nothing to change gives nothing. -/
def orUnchanged {α : Type} (graph : Graph) : Option (α × Graph) → Option α × Graph
  | some (result, graph) => (some result, graph)
  | none => (none, graph)

/-- The refusal to change a definition that is in use. -/
def guard {α : Type} (inUse : Bool) (name : Option String) (edit : Except GraphError α) :
    Except GraphError α :=
  if inUse then .error (.illegalEdit (name.getD "")) else edit

def guardFunction {α : Type} (graph : Graph) (id : FunctionId) (edit : Except GraphError α) :
    Except GraphError α :=
  guard (graph.functionInUse id) ((graph.function? id).map (·.signature.name)) edit

def guardStruct {α : Type} (graph : Graph) (id : StructId) (edit : Except GraphError α) :
    Except GraphError α :=
  guard (graph.structInUse id) ((graph.struct? id).map (·.schema.name)) edit

/-- Changes a function, unless it is in use. -/
def redefineFunction (host : Host) (id : FunctionId) (next : Signature) :
    Except GraphError (Option FunctionId) × Host :=
  host.edit fun graph =>
    guardFunction graph id ((graph.redefineFunction id next).map (orUnchanged graph))

/-- Removes a function, unless it is in use. -/
def removeFunction (host : Host) (id : FunctionId) : Except GraphError Bool × Host :=
  host.edit fun graph => guardFunction graph id (.ok (graph.removeFunction id))

/-- Changes a struct, unless it is in use. -/
def redefineStruct (host : Host) (id : StructId) (next : Schema) :
    Except GraphError (Option StructId) × Host :=
  host.edit fun graph =>
    guardStruct graph id ((graph.redefineStruct id next).map (orUnchanged graph))

/-- Removes a struct, unless it is in use. -/
def removeStruct (host : Host) (id : StructId) : Except GraphError Bool × Host :=
  host.edit fun graph => guardStruct graph id (.ok (graph.removeStruct id))

end Host

end NodeScript
