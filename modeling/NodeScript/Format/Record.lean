import NodeScript.DataType.Binary
import NodeScript.Format.Version
import NodeScript.Graph.Node
import NodeScript.Value.Binary

/-!
The parts of a file: fields, wires and nodes as they stand in its tables. Nodes are numbered in
the order of the table.
-/

set_option autoImplicit false
set_option relaxedAutoImplicit false

namespace NodeScript.Format

def encodePosition (position : Position) : Bytes :=
  Encode.double position.x ++ Encode.double position.y

def decodePosition : Decode Position := do return ⟨← Decode.double, ← Decode.double⟩

def encodeField (field : Field) : Bytes := Encode.text field.name ++ field.type.encode

def decodeField (known : List Schema) : Decode Field := do
  return (← Decode.text, ← DataType.decode known)

/-- A wire in the table of nodes. -/
structure WireRecord where
  /-- The number of the node it comes from. -/
  source : Nat
  output : Nat
  relays : List Position
deriving DecidableEq, Repr

namespace WireRecord

def encode (version : Int32) (wire : WireRecord) : Bytes :=
  Encode.count wire.source ++ Encode.count wire.output ++
    if withRelays ≤ version then Encode.many encodePosition wire.relays else []

def decode : Decode WireRecord := do
  return ⟨← Decode.count, ← Decode.count, ← Decode.many decodePosition⟩

end WireRecord

/-- A node in the table of nodes. -/
structure NodeRecord where
  /-- The id of its type, or the name of its definition. -/
  name : String
  kind : UInt8
  /-- The literals of its inputs, then its configuration. -/
  payload : Bytes
  position : Position
  /-- The wires of each input. -/
  inputs : List (List WireRecord)
deriving DecidableEq, Repr

namespace NodeRecord

def encode (version : Int32) (node : NodeRecord) : Bytes :=
  Encode.text node.name ++ (if withFunctions ≤ version then [node.kind] else []) ++
    Encode.blob node.payload ++ encodePosition node.position ++
    Encode.many (Encode.many (WireRecord.encode version)) node.inputs

def decode : Decode NodeRecord := do
  return {
    name := ← Decode.text
    kind := ← Decode.byte
    payload := ← Decode.blob
    position := ← decodePosition
    inputs := ← Decode.many (Decode.many WireRecord.decode) }

end NodeRecord

/-- The literals at the start of a payload, each behind the number of its input. -/
def encodeInsets (insets : List (Nat × Value)) : Bytes :=
  Encode.many (fun (slot, value) => Encode.count slot ++ value.encode) insets

def decodeInsets : Decode (List (Nat × Value)) :=
  Decode.many do return (← Decode.count, ← Value.decode)

end NodeScript.Format
