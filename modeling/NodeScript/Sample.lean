import NodeScript.Catalog.Builtin
import NodeScript.Graph.Definition

/-!
A sample script: a greeting, a function call, a counting loop, and a struct with a field.
-/

set_option autoImplicit false
set_option relaxedAutoImplicit false

namespace NodeScript.Sample

/-- A part of the making of a graph. -/
abbrev Build (α : Type) := StateT Graph (Except GraphError) α

/-- A whole number as a double. -/
private def whole (n : Nat) : Double := Double.ofInt n

def settings (fields : List (String × String)) : Json :=
  Json.object (fields.map fun (key, value) => (key, .str value))

def node (id : String) (config : Json) (x y : Nat) : Build NodeId := do
  let (id, graph) ← (← get).addBuiltin .builtin id config ⟨whole x, whole y⟩
  set graph
  return id

def constant (value : Value) (x y : Nat) : Build NodeId :=
  node "value/Constant" (Json.object [("value", value.toJson)]) x y

def event (name : String) (y : Nat) : Build NodeId :=
  node "event/On" (settings [("event", name)]) 0 y

def wireThrough (relays : List Position) (source : NodeId) (output : Nat) (target : NodeId)
    (input : Nat) : Build Unit := do
  set (← (← get).connect ⟨source, output⟩ ⟨target, input⟩ relays)

def wire (source : NodeId) (output : Nat) (target : NodeId) (input : Nat) : Build Unit :=
  wireThrough [] source output target input

/-- Greets the player who joins. -/
def join : Build Unit := do
  let join ← event "join" 0
  let welcome ← constant (.text "Welcome to the server") 150 80
  let greet ← node "util/Message" .null 300 0
  wire join 0 greet 0
  wireThrough [⟨whole 225, whole 80⟩, ⟨whole 225, whole 20⟩] welcome 0 greet 1
  let log ← node "util/Log" (settings [("level", "info")]) 450 0
  wire greet 0 log 0
  wire welcome 0 log 1

/-- The nodes of the inputs and of the outputs of a function that is declared. -/
def function (signature : Signature) (x y : Nat) : Build (FunctionId × NodeId × NodeId) := do
  let (id, graph) ← (← get).defineFunction signature ⟨whole x, whole y⟩
  set graph
  match graph.function? id with
  | some { input := some input, output := some output, .. } => return (id, input, output)
  | _ => throw (.unresolvedReference signature.name)

/-- Squares a number by a function. -/
def square : Build Unit := do
  let (square, entry, exit) ← function {
    name := "square"
    inputs := [("exec", .signal), ("n", .number)]
    outputs := [("done", .signal), ("result", .number)] } 0 1000
  let multiply ← node "math/Multiply" .null 200 1000
  wire entry 0 exit 0
  wire entry 1 multiply 0
  wire entry 1 multiply 1
  wire multiply 0 exit 1
  let onSquare ← event "square" 200
  let (call, graph) ← (← get).addDefined (.call square) ⟨whole 150, whole 200⟩
  set graph
  let asText ← node "text/ToText" (settings [("type", "number")]) 300 260
  let report ← node "util/Message" .null 450 200
  wire onSquare 0 call 0
  wire onSquare 3 call 1
  wire call 0 report 0
  wire call 1 asText 0
  wire asText 0 report 1

/-- Counts up to a number in a loop. -/
def count : Build Unit := do
  let counter := settings [("variable", "i"), ("type", "number")]
  let onCount ← event "count" 400
  let zero ← constant (.number .zero) 0 480
  let reset ← node "var/Set" counter 150 400
  let loop ← node "flow/While" .null 300 400
  let below ← node "logic/Compare" (settings [("operator", "<")]) 300 500
  let current ← node "var/Get" counter 150 550
  let next ← node "math/Add" .null 450 550
  let step ← node "var/Set" counter 600 400
  let countText ← node "text/ToText" (settings [("type", "number")]) 600 550
  let done ← node "util/Message" .null 750 450
  wire onCount 0 reset 0
  wire zero 0 reset 1
  wire reset 0 loop 0
  wire current 0 below 0
  wire onCount 3 below 1
  wire below 0 loop 1
  wire loop 0 step 0
  wire current 0 next 0
  set (← (← get).setInset ⟨next, 1⟩ (some (.number 1)))
  wire next 0 step 1
  wire loop 1 done 0
  wire current 0 countText 0
  wire countText 0 done 1

/-- The constructor of a struct that is declared. -/
def struct (schema : Schema) (x y : Nat) : Build NodeId := do
  let (id, graph) ← (← get).defineStruct schema ⟨whole x, whole y⟩
  set graph
  match (graph.struct? id).bind (·.boundary) with
  | some boundary => return boundary
  | none => throw (.unresolvedReference schema.name)

/-- Makes a point and reports one of its fields. -/
def point : Build Unit := do
  let construct ← struct { name := "Point", fields := [("x", .number), ("y", .number)] } 0 1300
  let onPoint ← event "point" 700
  let three ← constant (.number 3) 0 780
  let field ← node "struct/Get" (settings [("struct", "Point"), ("field", "y")]) 300 780
  let fieldText ← node "text/ToText" (settings [("type", "number")]) 450 780
  let shown ← node "util/Message" .null 600 700
  wire three 0 construct 0
  wire onPoint 3 construct 1
  wire construct 0 field 0
  wire field 0 fieldText 0
  wire onPoint 0 shown 0
  wire fieldText 0 shown 1

/-- The sample script. -/
def graph : Except GraphError Graph := do
  let (_, graph) ← (do join; square; count; point : Build Unit).run .empty
  return graph

end NodeScript.Sample
