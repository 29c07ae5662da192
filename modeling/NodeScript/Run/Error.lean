import NodeScript.Graph.Error
import NodeScript.Program.Entries

/-!
Why a run stops before its end.
-/

set_option autoImplicit false
set_option relaxedAutoImplicit false

namespace NodeScript

/-- The faults that end a run. -/
inductive RunError where
  /-- The input has no wire, no inset and no default. -/
  | missingValue (node : NodeId) (input : String)
  | unsetVariable (name : String)
  /-- The trigger lacks what an event node was asked for. -/
  | missingTriggerData (what : String)
  | typeMismatch (node : NodeId) (expected found : String)
  | outsideFunction (boundary : NodeId)
  | callDepthExceeded (limit : Nat)
  | unknownEntryPoint (entry : EntryPoint)
  | unknownNode (node : NodeId)
  | notAValueOutput (node : NodeId) (slot : Nat)
  | notASignalInput (node : NodeId) (slot : Nat)
  | nodeFault (node : NodeId) (what : String)
  /-- A node fails because its configuration is refused. -/
  | invalidConfig (node : NodeId) (why : GraphError)
deriving DecidableEq, Repr

/-- The text of a fault. What is wrong with a value is explained by the reader of JSON. -/
def RunError.message (explain : Json → String) : RunError → String
  | missingValue node input =>
    s!"Input '{input}' of node {node} is not connected and has no default"
  | unsetVariable name => s!"Variable '{name}' has not been set"
  | missingTriggerData what => s!"Trigger carries no {what}"
  | typeMismatch node expected found => s!"Node {node} expected {expected}, got {found}"
  | outsideFunction boundary => s!"Function boundary {boundary} evaluated outside of its function"
  | callDepthExceeded limit => s!"Call depth exceeded {limit}"
  | unknownEntryPoint entry => s!"Unknown entry point EntryPoint({entry.number})"
  | unknownNode node => s!"Node {node} does not exist"
  | notAValueOutput node slot => s!"Node {node} has no value output {slot}"
  | notASignalInput node slot => s!"Node {node} has no signal input {slot}"
  | nodeFault node what => s!"Node {node} failed: {what}"
  | invalidConfig node why => s!"Node {node} failed: {why.message explain}"

end NodeScript
