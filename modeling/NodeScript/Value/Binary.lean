import NodeScript.Value.Basic
import NodeScript.Bytes.Decode

/-!
The bytes of values: a tag, then the content. Lists and structs nest at most `maxNesting` deep
when they are read.
-/

set_option autoImplicit false
set_option relaxedAutoImplicit false

namespace NodeScript.Value

mutual

def encode : Value → Bytes
  | number n => 1 :: Encode.double n
  | text s => 2 :: Encode.text s
  | boolean b => 3 :: Encode.bool b
  | player name => 4 :: Encode.text name
  | list items => 5 :: Encode.count items.length ++ encodeItems items
  | struct name fields =>
    6 :: Encode.text name ++ Encode.count fields.length ++ encodeFields fields

def encodeItems : List Value → Bytes
  | [] => []
  | v :: vs => v.encode ++ encodeItems vs

def encodeFields : List (String × Value) → Bytes
  | [] => []
  | (name, v) :: fs => Encode.text name ++ v.encode ++ encodeFields fs

end

/-- Reads a value of at most the given number of levels. -/
def decodeWithin : Nat → Decode Value
  | 0 => throw .tooDeep
  | levels + 1 => do
    let tag ← Decode.byte
    match tag.toNat with
    | 1 => return number (← Decode.double)
    | 2 => return text (← Decode.text)
    | 3 => return boolean (← Decode.bool)
    | 4 => return player (← Decode.text)
    | 5 => return list (← Decode.many (decodeWithin levels))
    | 6 =>
      let name ← Decode.text
      return struct name (← Decode.many do return (← Decode.text, ← decodeWithin levels))
    | _ => throw (.unknownValueTag tag)

def decode : Decode Value := decodeWithin maxNesting

end NodeScript.Value
