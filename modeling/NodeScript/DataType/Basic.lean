import NodeScript.Value.Basic

/-!
The types of ports: signals, which carry control and no data, and the types of values. A struct
type carries its whole schema; two struct types are the same when their fields are, whatever their
names.
-/

set_option autoImplicit false
set_option relaxedAutoImplicit false

namespace NodeScript

/-- What flows through a port. -/
inductive DataType where
  | signal
  | number
  | text
  | boolean
  | player
  | list (element : DataType)
  | struct (name : String) (fields : List (String × DataType))
deriving Inhabited, Repr

/-- A named member of a struct, or a named parameter of a function. -/
abbrev Field := String × DataType

abbrev Field.name (field : Field) : String := field.1

abbrev Field.type (field : Field) : DataType := field.2

/-- A struct as it is declared. -/
structure Schema where
  name : String
  fields : List Field
deriving Inhabited, Repr

/-- The position of the first field with the given name. -/
def Schema.fieldIndex? (schema : Schema) (name : String) : Option Nat :=
  schema.fields.findIdx? (·.name == name)

def Schema.type (schema : Schema) : DataType := .struct schema.name schema.fields

/-- The first schema with the given name. -/
def Schema.find? (known : List Schema) (name : String) : Option Schema :=
  known.find? (·.name == name)

namespace DataType

def isSignal : DataType → Bool
  | signal => true
  | _ => false

/-- The name under which a type is shown; a struct has the name it was declared with. -/
def displayName : DataType → String
  | signal => "signal"
  | number => "number"
  | text => "text"
  | boolean => "boolean"
  | player => "player"
  | list element => "list<" ++ element.displayName ++ ">"
  | struct name _ => name

mutual

/-- Whether values and signals of one type may flow into the other: the names of fields and their
types agree in order, the names of structs do not matter. -/
def same : DataType → DataType → Bool
  | signal, signal => true
  | number, number => true
  | text, text => true
  | boolean, boolean => true
  | player, player => true
  | list a, list b => a.same b
  | struct _ fs, struct _ gs => sameFields fs gs
  | _, _ => false

def sameFields : List (String × DataType) → List (String × DataType) → Bool
  | [], [] => true
  | (m, a) :: fs, (n, b) :: gs => m == n && a.same b && sameFields fs gs
  | _, _ => false

end

/-- The struct that a type holds, looking through lists. -/
def schema? : DataType → Option Schema
  | list element => element.schema?
  | struct name fields => some ⟨name, fields⟩
  | _ => none

/-- Whether the type is the named struct or a list of it, at any depth of lists. -/
def mentions (name : String) (type : DataType) : Bool :=
  type.schema?.any (·.name == name)

mutual

/-- Whether a value has the shape of the type. Structs agree by the names and the order of their
fields. -/
def accepts : DataType → Value → Bool
  | number, .number _ => true
  | text, .text _ => true
  | boolean, .boolean _ => true
  | player, .player _ => true
  | list element, .list items => items.all element.accepts
  | struct _ fields, .struct _ values => acceptsFields fields values
  | _, _ => false

def acceptsFields : List (String × DataType) → List (String × Value) → Bool
  | [], [] => true
  | (m, type) :: fields, (n, value) :: values =>
    m == n && type.accepts value && acceptsFields fields values
  | _, _ => false

end

end DataType

end NodeScript
