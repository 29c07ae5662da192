import NodeScript.DataType.Binary
import NodeScript.Format.Version
import NodeScript.Graph.Node

/-!
Files of older versions in the layout of the next. A step copies the tables that it knows, adds
what the next version has, and leaves the bytes behind them as they are.
-/

set_option autoImplicit false
set_option relaxedAutoImplicit false

namespace NodeScript.Format

/-- A read of some part of a file for its bytes in the next layout. -/
abbrev CopyOf := Decode Bytes

namespace CopyOf

def word : CopyOf := do return Encode.int32 (← Decode.int32)

def double : CopyOf := do return Encode.double (← Decode.double)

def byte : CopyOf := do return Encode.byte (← Decode.byte)

def text : CopyOf := do return Encode.text (← Decode.text)

def blob : CopyOf := do return Encode.blob (← Decode.blob)

/-- The copies of parts one after the other. -/
def all (parts : List CopyOf) : CopyOf := do return (← parts.mapM id).flatten

/-- The copies of as many parts as the count in front of them says. -/
def many (part : CopyOf) : CopyOf := do
  let n ← Decode.count
  return Encode.count n ++ (← Decode.times n part).flatten

/-- A name and a type. -/
def field : CopyOf := all [text, DataType.copied]

/-- A struct, with the number of its fields in one byte. -/
def schema : CopyOf := do
  let name ← text
  let n ← Decode.byte
  return name ++ n :: (← Decode.times n.toNat field).flatten

def signature : CopyOf := all [text, many field, many field]

/-- The tables of structs and functions. -/
def definitions : CopyOf := all [many schema, many signature]

def position : CopyOf := all [double, double]

/-- A node whose kind, payload and wires are copied in the given ways. -/
def node (kind payload wire : CopyOf) : CopyOf :=
  all [text, kind, payload, position, many (many wire)]

end CopyOf

/-- A change from the layout of one version to that of the next. -/
inductive Step where
  | addFunctionTable
  | addStructTable
  | addWireRelays
  | addInputInsets
deriving DecidableEq, Repr

namespace Step

/-- All steps, from the oldest version on. -/
def all : List Step := [addFunctionTable, addStructTable, addWireRelays, addInputInsets]

def name : Step → String
  | addFunctionTable => "add-function-table"
  | addStructTable => "add-struct-table"
  | addWireRelays => "add-wire-relays"
  | addInputInsets => "add-input-insets"

/-- The version whose files a step changes. -/
def version : Step → Int32
  | addFunctionTable => 0
  | addStructTable => withFunctions
  | addWireRelays => withStructs
  | addInputInsets => withRelays

/-- Whether a file of the given version and length is to be changed. The shortest file is a
version and the count of one table. -/
def applies (step : Step) (version : Int32) (length : Nat) : Bool :=
  version == step.version && 8 ≤ length

/-- The tables in the next layout. -/
def tables : Step → CopyOf
  | addFunctionTable => do
    let kind : CopyOf := return Encode.byte (NodeKind.builtin "").code
    return Encode.count 0 ++ (← CopyOf.many (.node kind .blob (.all [.word, .word])))
  | addStructTable => return Encode.count 0
  | addWireRelays => do
    let wire := CopyOf.all [.word, .word, return Encode.count 0]
    CopyOf.all [.definitions, .many (.node .byte .blob wire)]
  | addInputInsets => do
    let payload : CopyOf := do return Encode.blob (Encode.count 0 ++ (← Decode.blob))
    let wire := CopyOf.all [.word, .word, .many .position]
    CopyOf.all [.definitions, .many (.node .byte payload wire)]

/-- The file in the next layout, whatever version it says it has. -/
def run (step : Step) (file : Bytes) : Except DecodeError Bytes :=
  Decode.result (do
    let _ ← Decode.int32
    let tables ← step.tables
    return Encode.int32 (step.version + 1) ++ tables ++ (← Decode.remaining)) file

end Step

/-- The file after each of the steps that applies to it. -/
def upgrade (steps : List Step) (file : Bytes) : Except DecodeError Bytes :=
  steps.foldlM (fun file step => do
    let version ← Decode.int32.result file
    if step.applies version file.length then step.run file else return file) file

end NodeScript.Format
