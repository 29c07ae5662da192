import NodeScript.Bytes.Decode
import NodeScript.Graph.Error
import NodeScript.Port
import NodeScript.Run.Scope

/-!
What a type of nodes does: the ports it declares for a configuration, the bytes of its
configuration, what it announces to the program, and how its nodes run.
-/

set_option autoImplicit false
set_option relaxedAutoImplicit false

namespace NodeScript

/-- A type of nodes. -/
structure Behavior where
  /-- The ports of a node with the given configuration, where the given structs are known. -/
  ports : Json → List Schema → Except GraphError Ports
  /-- The bytes of a configuration. -/
  write : Json → Bytes := fun _ => []
  /-- The configuration from its bytes alone. -/
  read : Decode Json := pure .null
  /-- The configuration from its bytes where the given structs are known, which it may look up. -/
  readAmong : List Schema → Decode Json := fun _ => read
  /-- The announcements of a node with the given configuration. -/
  announce : NodeId → Json → StateM Entries Unit := fun _ _ => pure ()
  /-- The value of an output. -/
  evaluate : Scope → Nat → Run Value := fun scope slot => .fail (.notAValueOutput scope.node slot)
  /-- What happens when control reaches an input. -/
  execute : Scope → Nat → Run Flow := fun scope slot => .fail (.notASignalInput scope.node slot)

namespace Behavior

/-- A type of nodes with fixed ports whose first output is computed and whose configuration does
not matter. -/
def pure (ports : Ports) (compute : Scope → Run Value) : Behavior where
  ports := fun _ _ => .ok ports
  evaluate := fun scope slot =>
    if slot = 0 then compute scope else .fail (.notAValueOutput scope.node slot)

/-- The configuration as it is read back from its bytes, with the ports that it has then. A
configuration is refused for its ports first. -/
def canonical (behavior : Behavior) (known : List Schema) (config : Json) :
    Except GraphError (Json × Ports) := do
  let _ ← behavior.ports config known
  match (behavior.readAmong known).result (behavior.write config) with
  | .ok config => return (config, ← behavior.ports config known)
  | .error error => throw (.invalidConfig error.message)

end Behavior

end NodeScript
