import NodeScript.Graph.Address
import NodeScript.Json.Basic

/-!
Why an edit of a graph is refused.
-/

set_option autoImplicit false
set_option relaxedAutoImplicit false

namespace NodeScript

/-- The two sides of a node. -/
inductive Side where
  | input
  | output
deriving DecidableEq, Repr

def Side.word : Side → String
  | input => "input"
  | output => "output"

/-- The reasons for which an edit is refused. -/
inductive GraphError where
  | unknownNode (node : NodeId)
  | unknownNodeType (id : String)
  | unresolvedReference (name : String)
  | noSuchPort (node : NodeId) (slot : Nat) (side : Side)
  | typeMismatch (expected found : String)
  | valueLoop (node : NodeId)
  /-- The definition is in use. -/
  | illegalEdit (definition : String)
  | duplicateDefinition (name : String)
  /-- The node belongs to a definition. -/
  | boundaryNode (node : NodeId)
  | invalidConfig (what : String)
  /-- The configured value of a constant is none of a script. -/
  | invalidValue (given : Json)
deriving DecidableEq, Repr

/-- The text of a refusal. What is wrong with a value is explained by the reader of JSON. -/
def GraphError.message (explain : Json → String) : GraphError → String
  | unknownNode node => s!"Node {node} does not exist"
  | unknownNodeType id => s!"Unknown node type '{id}'"
  | unresolvedReference name => s!"Unresolved reference to '{name}'"
  | noSuchPort node slot side => s!"Node {node} has no " ++ side.word ++ s!" port {slot}"
  | typeMismatch expected found => s!"Cannot connect {found} output to {expected} input"
  | valueLoop node => s!"Wire would make node {node} depend on its own value"
  | illegalEdit definition => s!"Definition '{definition}' is in use and cannot be changed"
  | duplicateDefinition name => s!"A definition named '{name}' already exists"
  | boundaryNode node => s!"Node {node} is owned by a definition and cannot be removed directly"
  | invalidConfig what => s!"Invalid node configuration: {what}"
  | invalidValue given => s!"Invalid node configuration: value: {explain given}"

end NodeScript
