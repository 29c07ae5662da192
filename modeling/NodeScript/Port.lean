import NodeScript.DataType.Basic

/-!
Declared ports: name, type and the literal that an input reads while nothing else gives it a
value.
-/

set_option autoImplicit false
set_option relaxedAutoImplicit false

namespace NodeScript

/-- A declared input or output. -/
structure Port where
  name : String
  type : DataType
  default : Option Value := none
deriving Inhabited, Repr

namespace Port

def isSignal (port : Port) : Bool := port.type.isSignal

def signal (name : String) : Port := { name, type := .signal }

def ofField (field : Field) : Port := { name := field.name, type := field.type }

end Port

/-- The declared inputs and outputs of a node, in order. -/
structure Ports where
  inputs : List Port
  outputs : List Port
deriving Inhabited, Repr

namespace Ports

/-- The position of the first input with the given name. -/
def inputIndex? (ports : Ports) (name : String) : Option Nat :=
  ports.inputs.findIdx? (·.name == name)

/-- The position of the first output with the given name. -/
def outputIndex? (ports : Ports) (name : String) : Option Nat :=
  ports.outputs.findIdx? (·.name == name)

end Ports

/-- The ports of a constructor: an input for each field, and the instance as the only output. -/
def Schema.ports (schema : Schema) : Ports where
  inputs := schema.fields.map Port.ofField
  outputs := [{ name := schema.name, type := schema.type }]

/-- A function as it is declared. Signals among the inputs are ways into its body, signals among
the outputs are ways out of it. -/
structure Signature where
  name : String
  inputs : List Field
  outputs : List Field
deriving Inhabited, Repr

namespace Signature

/-- The ports of a call. -/
def callPorts (signature : Signature) : Ports where
  inputs := signature.inputs.map Port.ofField
  outputs := signature.outputs.map Port.ofField

/-- The ports of the node that gives the inputs to the body. -/
def inputPorts (signature : Signature) : Ports where
  inputs := []
  outputs := signature.inputs.map Port.ofField

/-- The ports of the node that collects the outputs from the body. -/
def outputPorts (signature : Signature) : Ports where
  inputs := signature.outputs.map Port.ofField
  outputs := []

/-- The types of the inputs, then those of the outputs. -/
def types (signature : Signature) : List DataType :=
  (signature.inputs ++ signature.outputs).map Field.type

/-- Whether an input or an output is of the named struct or a list of it. -/
def mentions (signature : Signature) (name : String) : Bool :=
  signature.types.any (·.mentions name)

end Signature

end NodeScript
