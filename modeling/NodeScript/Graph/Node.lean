import NodeScript.Graph.Address
import NodeScript.Json.Basic
import NodeScript.Port

/-!
Nodes with their wires. A wire is kept at both its ends: at the input it leads to, with its
routing, and at the output it comes from.
-/

set_option autoImplicit false
set_option relaxedAutoImplicit false

namespace NodeScript

/-- A place on the canvas. -/
structure Position where
  x : Double
  y : Double
deriving DecidableEq, Inhabited, Repr

def Position.zero : Position := ⟨.zero, .zero⟩

/-- A wire as the input at its end keeps it. -/
structure Wire where
  source : OutputRef
  /-- The points that the wire is drawn through. -/
  relays : List Position := []
deriving DecidableEq, Repr

/-- An input of a node. -/
structure Input where
  port : Port
  wires : List Wire := []
  /-- A literal of this node, read while there is no wire. -/
  inset : Option Value := none
deriving Repr

/-- The output that an input reads. -/
def Input.source? (input : Input) : Option OutputRef := input.wires.head?.map (·.source)

/-- The literal that an input reads while there is no wire. -/
def Input.literal? (input : Input) : Option Value := input.inset.or input.port.default

/-- An output of a node. -/
structure Output where
  port : Port
  targets : List InputRef := []
deriving Repr

/-- What a node is. -/
inductive NodeKind where
  /-- A node of a registered type. -/
  | builtin (id : String)
  | call (function : FunctionId)
  /-- Gives the inputs of a function to its body. -/
  | functionInput (function : FunctionId)
  /-- Collects the outputs of a function from its body. -/
  | functionOutput (function : FunctionId)
  /-- Makes instances of a struct. -/
  | construct (struct : StructId)
deriving DecidableEq, Repr

namespace NodeKind

/-- The byte of a kind in files. -/
def code : NodeKind → UInt8
  | builtin _ => 0
  | call _ => 1
  | functionInput _ => 2
  | functionOutput _ => 3
  | construct _ => 4

/-- The function that a node belongs to. -/
def function? : NodeKind → Option FunctionId
  | call f | functionInput f | functionOutput f => some f
  | builtin _ | construct _ => none

/-- The word for a kind in listings. -/
def word : NodeKind → String
  | builtin _ => "builtin"
  | call _ => "call"
  | functionInput _ => "function_input"
  | functionOutput _ => "function_output"
  | construct _ => "struct"

end NodeKind

/-- A node of a graph. -/
structure Node where
  kind : NodeKind
  position : Position
  config : Json := .null
  inputs : List Input
  outputs : List Output
deriving Repr

namespace Node

/-- A node without wires and literals. -/
def ofPorts (kind : NodeKind) (config : Json) (ports : Ports) (position : Position) : Node where
  kind
  position
  config
  inputs := ports.inputs.map fun port => { port }
  outputs := ports.outputs.map fun port => { port }

/-- Whether a port is of the named struct or a list of it. -/
def mentions (node : Node) (name : String) : Bool :=
  node.inputs.any (·.port.type.mentions name) || node.outputs.any (·.port.type.mentions name)

end Node

end NodeScript
