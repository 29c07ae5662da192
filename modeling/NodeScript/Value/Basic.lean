import NodeScript.Decimal.Layout

/-!
The values that flow between nodes: numbers, texts, truth values, players, lists, and structs with
their fields in declared order.
-/

set_option autoImplicit false
set_option relaxedAutoImplicit false

namespace NodeScript

/-- A value on a wire, or a literal of a node. -/
inductive Value where
  | number (n : Double)
  | text (s : String)
  | boolean (b : Bool)
  /-- A player, by name. -/
  | player (name : String)
  | list (items : List Value)
  | struct (name : String) (fields : List (String × Value))
deriving Inhabited, Repr

namespace Value

def asNumber? : Value → Option Double
  | number n => some n
  | _ => none

def asText? : Value → Option String
  | text s => some s
  | _ => none

def asBoolean? : Value → Option Bool
  | boolean b => some b
  | _ => none

def asPlayer? : Value → Option String
  | player name => some name
  | _ => none

def asList? : Value → Option (List Value)
  | list items => some items
  | _ => none

/-- The first field of a struct with the given name. -/
def field? (name : String) : Value → Option Value
  | struct _ fields => fields.lookup name
  | _ => none

/-- The word for the kind of a value in messages. -/
def kindName : Value → String
  | number _ => "number"
  | text _ => "text"
  | boolean _ => "boolean"
  | player _ => "player"
  | list _ => "list"
  | struct _ _ => "struct"

mutual

/-- Equality as scripts see it: numbers are compared as numbers, so no NaN equals itself, and the
name of a struct counts. -/
def eq : Value → Value → Bool
  | number a, number b => a.eq b
  | text a, text b => a == b
  | boolean a, boolean b => a == b
  | player a, player b => a == b
  | list as, list bs => eqItems as bs
  | struct m fs, struct n gs => m == n && eqFields fs gs
  | _, _ => false

def eqItems : List Value → List Value → Bool
  | [], [] => true
  | a :: as, b :: bs => a.eq b && eqItems as bs
  | _, _ => false

def eqFields : List (String × Value) → List (String × Value) → Bool
  | [], [] => true
  | (m, a) :: fs, (n, b) :: gs => m == n && a.eq b && eqFields fs gs
  | _, _ => false

end

mutual

/-- A value as it is shown to players. -/
def display : Value → String
  | number n => n.text
  | text s => s
  | boolean b => if b then "true" else "false"
  | player name => "@" ++ name
  | list items => "[" ++ ", ".intercalate (displayItems items) ++ "]"
  | struct name fields => name ++ " \x7b" ++ ",".intercalate (displayFields fields) ++ " \x7d"

def displayItems : List Value → List String
  | [] => []
  | v :: vs => v.display :: displayItems vs

def displayFields : List (String × Value) → List String
  | [] => []
  | (name, v) :: fs => (" " ++ name ++ ": " ++ v.display) :: displayFields fs

end

end Value

end NodeScript
