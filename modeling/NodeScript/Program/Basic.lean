import NodeScript.Graph.Definition

/-!
Programs: what the nodes of a graph announced, and how each of them runs.
-/

set_option autoImplicit false
set_option relaxedAutoImplicit false

namespace NodeScript

/-- A graph made ready to run with the types of a registry. -/
structure Program where
  entries : Entries := {}
  /-- How the nodes run, by their places; nodes of unknown types and nodes made from definitions
  have nothing here. -/
  behaviors : Array (Option Behavior) := #[]

namespace Program

/-- How a node runs, for nodes of registered types. -/
def behavior? (program : Program) (id : NodeId) : Option Behavior :=
  program.behaviors[id.index]?.join

/-- The behavior of a node of a registered type. -/
def behaviorOf? (registry : Registry) (node : Node) : Option Behavior :=
  match node.kind with
  | .builtin id => registry.behavior? id
  | _ => none

/-- Lets every node of a registered type announce itself, in the order of their places. -/
def compile (graph : Graph) (registry : Registry) : Program where
  entries := graph.live.foldl (fun entries (id, node) =>
    match behaviorOf? registry node with
    | some behavior => (behavior.announce id node.config entries).2
    | none => entries) {}
  behaviors := graph.arena.map fun place => place >>= behaviorOf? registry

end Program

end NodeScript
