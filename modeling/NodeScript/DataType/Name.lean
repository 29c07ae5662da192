import NodeScript.DataType.Basic
import NodeScript.Bytes.Decode
import NodeScript.Text.Blank

/-!
Types read from their names. White space around a name and inside the brackets of a list does not
count; a name that is no primitive and no list is that of a known struct. Signals have no name
that is read.
-/

set_option autoImplicit false
set_option relaxedAutoImplicit false

namespace NodeScript.DataType

/-- The name between the brackets of `list<…>`. -/
def elementName? : List Char → Option (List Char)
  | 'l' :: 'i' :: 's' :: 't' :: '<' :: rest =>
    if rest.getLast? = some '>' then some rest.dropLast else none
  | _ => none

/-- The primitive types by their names. -/
def primitive? (name : String) : Option DataType :=
  match name with
  | "number" => some number
  | "text" => some text
  | "boolean" => some boolean
  | "player" => some player
  | _ => none

/-- The type with the given name, nested at most the given number of levels. -/
def ofNameWithin (known : List Schema) : Nat → List Char → Option DataType
  | 0, _ => none
  | levels + 1, name =>
    let name := Text.trim name
    match primitive? (String.ofList name) with
    | some type => some type
    | none =>
      match elementName? name with
      | some element => (ofNameWithin known levels element).map list
      | none => (Schema.find? known (String.ofList name)).map Schema.type

/-- The type with the given name, structs being looked up among those known. -/
def ofName? (known : List Schema) (name : String) : Option DataType :=
  ofNameWithin known maxNesting name.toList

end NodeScript.DataType
