import NodeScript.DataType.Basic
import NodeScript.Bytes.Decode

/-!
The bytes of types: a tag, then the element of a list or the name of a struct. A struct is written
by name only and looked up when it is read.
-/

set_option autoImplicit false
set_option relaxedAutoImplicit false

namespace NodeScript.DataType

def encode : DataType → Bytes
  | signal => [0]
  | number => [1]
  | text => [2]
  | boolean => [3]
  | player => [4]
  | list element => 5 :: element.encode
  | struct name _ => 6 :: Encode.text name

/-- Reads a type of at most the given number of levels. -/
def decodeWithin (known : List Schema) : Nat → Decode DataType
  | 0 => throw .tooDeep
  | levels + 1 => do
    let tag ← Decode.byte
    match tag.toNat with
    | 0 => return signal
    | 1 => return number
    | 2 => return text
    | 3 => return boolean
    | 4 => return player
    | 5 => return list (← decodeWithin known levels)
    | 6 =>
      let name ← Decode.text
      match Schema.find? known name with
      | some schema => return schema.type
      | none => throw (.unknownStruct name)
    | _ => throw (.unknownTypeTag tag)

def decode (known : List Schema) : Decode DataType := decodeWithin known maxNesting

/-- A read that writes as it goes; the cursor and what was written survive a failure. -/
abbrev Copy (α : Type) := ExceptT DecodeError (StateM (Cursor × Bytes)) α

namespace Copy

def read {α : Type} (decode : Decode α) : Copy α := fun (cursor, written) =>
  let (result, cursor) := decode.runAt cursor
  (result, cursor, written)

def write (bytes : Bytes) : Copy Unit :=
  modify fun (cursor, written) => (cursor, written ++ bytes)

end Copy

/-- Copies a type of at most the given number of levels without looking up structs. -/
def copyWithin : Nat → Copy Unit
  | 0 => throw .tooDeep
  | levels + 1 => do
    let tag ← Copy.read Decode.byte
    Copy.write [tag]
    match tag.toNat with
    | 0 | 1 | 2 | 3 | 4 => return
    | 5 => copyWithin levels
    | 6 => Copy.write (Encode.text (← Copy.read Decode.text))
    | _ => throw (.unknownTypeTag tag)

/-- Copies a type from the cursor: the outcome, the cursor after it, and the bytes written. -/
def copyAt (cursor : Cursor) : Except DecodeError Unit × Cursor × Bytes :=
  (ExceptT.run (copyWithin maxNesting)).run (cursor, [])

/-- Reads a type for its bytes alone. -/
def copied : Decode Bytes := fun cursor =>
  let (result, cursor, written) := copyAt cursor
  (result.map fun _ => written, cursor)

end NodeScript.DataType
