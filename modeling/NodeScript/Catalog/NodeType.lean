import NodeScript.Catalog.Behavior

/-!
Types of nodes with what is known of them in a catalog, and registries, which hold them by id.
-/

set_option autoImplicit false
set_option relaxedAutoImplicit false

namespace NodeScript

/-- A type of nodes in a catalog. -/
structure NodeType where
  id : String
  category : String
  description : Option String
  /-- Whether its nodes have no signals. -/
  pure : Bool := false
  behavior : Behavior

/-- The part of the id after the last slash. -/
def NodeType.name (type : NodeType) : String :=
  String.ofList (type.id.toList.reverse.takeWhile (· != '/')).reverse

/-- Types of nodes by their ids. -/
structure Registry where
  types : Dict NodeType

namespace Registry

def empty : Registry := ⟨[]⟩

/-- Adds a type, in the place of one with the same id. -/
def register (type : NodeType) (registry : Registry) : Registry :=
  ⟨Dict.insert type.id type registry.types⟩

def ofList (types : List NodeType) : Registry :=
  types.foldl (fun registry type => registry.register type) empty

def find? (registry : Registry) (id : String) : Option NodeType := registry.types.lookup id

def behavior? (registry : Registry) (id : String) : Option Behavior :=
  (registry.find? id).map (·.behavior)

def contains (registry : Registry) (id : String) : Bool := (registry.find? id).isSome

def size (registry : Registry) : Nat := registry.types.length

/-- The types of a category, sorted by id. -/
def inCategory (registry : Registry) (category : String) : List NodeType :=
  (registry.types.map (·.2)).filter (·.category == category)

/-- The categories of the types, sorted, each once. -/
def categories (registry : Registry) : List String :=
  (Dict.ofList (registry.types.map fun entry => (entry.2.category, ()))).map (·.1)

end Registry

end NodeScript
