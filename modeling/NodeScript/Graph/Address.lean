/-!
The addresses of nodes, of their slots, and of definitions. An address stays that of one node or
definition for as long as the graph lives.
-/

set_option autoImplicit false
set_option relaxedAutoImplicit false

namespace NodeScript

/-- The place of a node in its graph. -/
structure NodeId where
  index : Nat
deriving DecidableEq, Inhabited, Repr

instance : ToString NodeId := ⟨fun id => s!"#{id.index}"⟩

/-- An output slot of a node. -/
structure OutputRef where
  node : NodeId
  slot : Nat
deriving DecidableEq, Inhabited, Repr

/-- An input slot of a node. -/
structure InputRef where
  node : NodeId
  slot : Nat
deriving DecidableEq, Inhabited, Repr

/-- A function of a graph. A changed signature gets a new address. -/
structure FunctionId where
  number : Nat
deriving DecidableEq, Inhabited, Repr

instance : ToString FunctionId := ⟨fun id => s!"fn{id.number}"⟩

/-- A struct of a graph. A changed schema gets a new address. -/
structure StructId where
  number : Nat
deriving DecidableEq, Inhabited, Repr

instance : ToString StructId := ⟨fun id => s!"struct{id.number}"⟩

end NodeScript
