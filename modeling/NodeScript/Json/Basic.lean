import NodeScript.Dict
import NodeScript.Value.Basic

/-!
The configuration of nodes as JSON values, where integers and other numbers are told apart, and
the form that values of scripts have in it.
-/

set_option autoImplicit false
set_option relaxedAutoImplicit false

namespace NodeScript

/-- A JSON value. The fields of an object have an order, in which they are written. -/
inductive Json where
  | null
  | bool (b : Bool)
  | int (i : Int)
  | float (d : Double)
  | str (s : String)
  | arr (items : List Json)
  | obj (fields : List (String × Json))
deriving Inhabited, Repr

namespace Json

mutual

/-- Equality of values is decided constructor by constructor. -/
def decEq : (a b : Json) → Decidable (a = b)
  | null, null => .isTrue rfl
  | bool a, bool b => decidable_of_iff (a = b) (by rw [bool.injEq])
  | int a, int b => decidable_of_iff (a = b) (by rw [int.injEq])
  | float a, float b => decidable_of_iff (a = b) (by rw [float.injEq])
  | str a, str b => decidable_of_iff (a = b) (by rw [str.injEq])
  | arr a, arr b =>
    have := decEqItems a b
    decidable_of_iff (a = b) (by rw [arr.injEq])
  | obj a, obj b =>
    have := decEqFields a b
    decidable_of_iff (a = b) (by rw [obj.injEq])
  | null, bool _ | null, int _ | null, float _ | null, str _ | null, arr _ | null, obj _
  | bool _, null | bool _, int _ | bool _, float _ | bool _, str _ | bool _, arr _ | bool _, obj _
  | int _, null | int _, bool _ | int _, float _ | int _, str _ | int _, arr _ | int _, obj _
  | float _, null | float _, bool _ | float _, int _ | float _, str _ | float _, arr _
  | float _, obj _ | str _, null | str _, bool _ | str _, int _ | str _, float _ | str _, arr _
  | str _, obj _ | arr _, null | arr _, bool _ | arr _, int _ | arr _, float _ | arr _, str _
  | arr _, obj _ | obj _, null | obj _, bool _ | obj _, int _ | obj _, float _ | obj _, str _
  | obj _, arr _ => .isFalse nofun

def decEqItems : (as bs : List Json) → Decidable (as = bs)
  | [], [] => .isTrue rfl
  | a :: as, b :: bs =>
    have := decEq a b
    have := decEqItems as bs
    decidable_of_iff (a = b ∧ as = bs) (by rw [List.cons.injEq])
  | [], _ :: _ | _ :: _, [] => .isFalse nofun

def decEqFields : (as bs : List (String × Json)) → Decidable (as = bs)
  | [], [] => .isTrue rfl
  | (key, a) :: as, (key', b) :: bs =>
    have := decEq a b
    have := decEqFields as bs
    decidable_of_iff (key = key' ∧ a = b ∧ as = bs) (by simp [and_assoc])
  | [], _ :: _ | _ :: _, [] => .isFalse nofun

end

instance : DecidableEq Json := decEq

/-- The object with the given fields, sorted by key; of two with one key the later counts. -/
def object (fields : List (String × Json)) : Json := obj (Dict.ofList fields)

/-- The value under a key of an object. -/
def get? (key : String) : Json → Option Json
  | obj fields => fields.lookup key
  | _ => none

def asText? : Json → Option String
  | str s => some s
  | _ => none

/-- An integer that is not negative; a number with a fraction or an exponent is no integer. -/
def asNat? : Json → Option Nat
  | int i => if 0 ≤ i then some i.toNat else none
  | _ => none

def asDouble? : Json → Option Double
  | int i => some (Double.ofInt i)
  | float d => some d
  | _ => none

/-- The text under a key of an object. -/
def text? (config : Json) (key : String) : Option String := config.get? key >>= asText?

/-- The JSON value of a number; one that is not finite has none and becomes null. -/
def ofDouble (d : Double) : Json := if d.isFinite then float d else null

end Json

namespace Value

/-- The two fields that hold a value: its kind and its content. -/
def tagged (kind : String) (content : Json) : Json := .obj [("kind", .str kind), ("value", content)]

mutual

/-- The form of a value in a configuration. -/
def toJson : Value → Json
  | number n => tagged "number" (.ofDouble n)
  | text s => tagged "text" (.str s)
  | boolean b => tagged "boolean" (.bool b)
  | player name => tagged "player" (.str name)
  | list items => tagged "list" (.arr (toJsonItems items))
  | struct name fields =>
    tagged "struct" (.obj [("name", .str name), ("fields", .arr (toJsonFields fields))])

def toJsonItems : List Value → List Json
  | [] => []
  | v :: vs => v.toJson :: toJsonItems vs

def toJsonFields : List (String × Value) → List Json
  | [] => []
  | (name, v) :: fs => .arr [.str name, v.toJson] :: toJsonFields fs

end

/-- The kind under its key: its name alone, or the only key of an object of null. -/
def kindOf? : Json → Option String
  | .str kind => some kind
  | .obj [(kind, .null)] => some kind
  | _ => none

mutual

/-- The value that a configuration holds: its kind and its content under the keys `kind` and
`value`, whatever other keys there are, or the name of its kind and its content in a list. -/
def ofJson? : Json → Option Value
  | .obj fields => do ofContentIn (← fields.lookup "kind" >>= kindOf?) fields
  | .arr [.str kind, content] => ofContent kind content
  | _ => none

def ofContentIn (kind : String) : List (String × Json) → Option Value
  | [] => none
  | (key, content) :: rest =>
    if key = "value" then ofContent kind content else ofContentIn kind rest

/-- The value of a kind with the given content. Numbers may be written as integers. -/
def ofContent (kind : String) : Json → Option Value
  | .int i => if kind = "number" then some (number (Double.ofInt i)) else none
  | .float d => if kind = "number" then some (number d) else none
  | .bool b => if kind = "boolean" then some (boolean b) else none
  | .str s =>
    if kind = "text" then some (text s)
    else if kind = "player" then some (player s)
    else none
  | .arr items => if kind = "list" then (ofItems items).map list else none
  | .obj content =>
    if kind = "struct" then do
      let name ← content.lookup "name" >>= Json.asText?
      (ofFieldsIn content).map (struct name)
    else none
  | .null => none

def ofItems : List Json → Option (List Value)
  | [] => some []
  | item :: items => do return (← ofJson? item) :: (← ofItems items)

def ofFieldsIn : List (String × Json) → Option (List (String × Value))
  | [] => none
  | (key, content) :: rest =>
    if key = "fields" then
      match content with
      | .arr fields => ofFields fields
      | _ => none
    else ofFieldsIn rest

def ofFields : List Json → Option (List (String × Value))
  | [] => some []
  | .arr [.str name, value] :: rest => do return (name, ← ofJson? value) :: (← ofFields rest)
  | _ => none

end

end Value

end NodeScript
