import NodeScript.Json.Render
import NodeScript.Summary.Basic

/-!
Summaries as JSON, and as lines for reading.
-/

set_option autoImplicit false
set_option relaxedAutoImplicit false

namespace NodeScript

def Position.toJson (position : Position) : Json :=
  .obj [("x", .ofDouble position.x), ("y", .ofDouble position.y)]

namespace Summary

def Entry.toJson (entry : Entry) : Json :=
  .obj [("name", .str entry.name), ("type", .str entry.type)]

def Definition.toJson (definition : Definition) : Json :=
  .obj [("name", .str definition.name), ("inputs", .arr (definition.inputs.map Entry.toJson)),
    ("outputs", .arr (definition.outputs.map Entry.toJson)), ("in_use", .bool definition.inUse)]

/-- A wire; relays are left out where there are none. -/
def Wire.toJson (wire : Wire) : Json :=
  .obj <| [("source", .int wire.source), ("output", .int wire.output)] ++
    if wire.relays.isEmpty then [] else [("relays", .arr (wire.relays.map Position.toJson))]

/-- An input; the literal is left out where there is none. -/
def Input.toJson (input : Input) : Json :=
  .obj <| [("name", .str input.name), ("type", .str input.type)] ++
    (match input.inset with
      | some value => [("inset", value.toJson)]
      | none => []) ++
    [("wires", .arr (input.wires.map Wire.toJson))]

/-- A node; the configuration is left out where it is null. -/
def Node.toJson (node : Node) : Json :=
  .obj <| [("index", .int node.index), ("kind", .str node.kind), ("id", .str node.id),
      ("position", node.position.toJson)] ++
    (match node.config with
      | .null => []
      | config => [("config", config)]) ++
    [("inputs", .arr (node.inputs.map Input.toJson)),
      ("outputs", .arr (node.outputs.map Entry.toJson))]

def toJson (summary : Summary) : Json :=
  .obj [("structs", .arr (summary.structs.map Definition.toJson)),
    ("functions", .arr (summary.functions.map Definition.toJson)),
    ("nodes", .arr (summary.nodes.map Node.toJson))]

def listEntries (entries : List Entry) : String :=
  ", ".intercalate (entries.map fun entry => entry.name ++ ": " ++ entry.type)

def unusedMark (inUse : Bool) : String := if inUse then "" else " (unused)"

def structLine (definition : Definition) : String :=
  s!"  {definition.name} \x7b " ++ listEntries definition.inputs ++ " \x7d" ++
    unusedMark definition.inUse

def functionLine (definition : Definition) : String :=
  s!"  {definition.name}(" ++ listEntries definition.inputs ++ ") -> (" ++
    listEntries definition.outputs ++ ")" ++ unusedMark definition.inUse

def Wire.line (input : String) (wire : Wire) : String :=
  let relays := if wire.relays.isEmpty then "" else s!" via {wire.relays.length} relays"
  s!"      {input} <- #{wire.source}.{wire.output}{relays}"

def Input.lines (input : Input) : List String :=
  (match input.inset with
    | some value => [s!"      {input.name} = {value.display}"]
    | none => []) ++ input.wires.map (Wire.line input.name)

def Node.lines (node : Node) : List String :=
  let config := match node.config with
    | .null => ""
    | config => " " ++ config.compact
  let place := s!"({node.position.x.text}, {node.position.y.text})"
  s!"  #{node.index} {node.kind} {node.id}{config} @ {place}" :: node.inputs.flatMap Input.lines

/-- The lines of a section, unless there are none. -/
def titled (title : String) (lines : List String) : List String :=
  if lines.isEmpty then [] else title :: lines

def lines (summary : Summary) : List String :=
  titled "structs:" (summary.structs.map structLine) ++
    titled "functions:" (summary.functions.map functionLine) ++
    "nodes:" :: summary.nodes.flatMap Node.lines

end Summary

end NodeScript
