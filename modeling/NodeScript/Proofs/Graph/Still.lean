import NodeScript.Proofs.Graph.Form

/-!
What changes of wires, literals and places on the canvas leave as it is: the definitions, the
places of nodes and their forms. Main statement: taking out a node changes nothing else of these
(`Still.detach?`).
-/

set_option autoImplicit false
set_option relaxedAutoImplicit false

namespace NodeScript.Graph

/-- Definitions, places and forms are as they were. -/
structure Still (graph next : Graph) : Prop where
  functions : next.functions = graph.functions
  structs : next.structs = graph.structs
  nextDefinition : next.nextDefinition = graph.nextDefinition
  size : next.arena.size = graph.arena.size
  forms : ∀ id, next.form? id = graph.form? id

variable {graph next : Graph}

theorem Still.refl (graph : Graph) : graph.Still graph := by
  refine ⟨rfl, rfl, rfl, rfl, ?_⟩
  intro _
  rfl

theorem Still.trans {last : Graph} (first : graph.Still next) (second : next.Still last) :
    graph.Still last where
  functions := second.functions.trans first.functions
  structs := second.structs.trans first.structs
  nextDefinition := second.nextDefinition.trans first.nextDefinition
  size := second.size.trans first.size
  forms id := (second.forms id).trans (first.forms id)

theorem Still.modifyNode {change : Node → Node} (same : ∀ node, (change node).form = node.form)
    (graph : Graph) (id : NodeId) : graph.Still (graph.modifyNode id change) := by
  exact ⟨rfl, rfl, rfl, size_modifyNode .., form?_modifyNode same graph id⟩

theorem Still.modifyInput {change : Input → Input}
    (same : ∀ input, (change input).port = input.port) (graph : Graph) (ref : InputRef) :
    graph.Still (graph.modifyInput ref change) := by
  exact ⟨rfl, rfl, rfl, size_modifyNode .., form?_modifyInput same graph ref⟩

theorem Still.modifyOutput {change : Output → Output}
    (same : ∀ output, (change output).port = output.port) (graph : Graph) (ref : OutputRef) :
    graph.Still (graph.modifyOutput ref change) := by
  exact ⟨rfl, rfl, rfl, size_modifyNode .., form?_modifyOutput same graph ref⟩

theorem Still.restrict (graph : Graph) (keep : Keep) : graph.Still (graph.restrict keep) := by
  exact ⟨rfl, rfl, rfl, size_restrictEnds .., form?_restrict graph keep⟩

theorem Still.link (graph : Graph) (source : OutputRef) (target : InputRef)
    (relays : List Position) (others : List (OutputRef × InputRef)) :
    graph.Still (graph.link source target relays others) := by
  refine ⟨?_, ?_, ?_, ?_, form?_link graph source target relays others⟩ <;> rw [link_eq_join]
  · rfl
  · rfl
  · rfl
  · exact (size_modifyNode ..).trans ((size_modifyNode ..).trans (size_restrictEnds ..))

/-- What each step of a fold leaves as it is the fold does. -/
theorem Still.foldl {α : Type} {step : Graph → α → Graph}
    (each : ∀ (graph : Graph) (a : α), graph.Still (step graph a)) (items : List α)
    (graph : Graph) : graph.Still (items.foldl step graph) := by
  induction items generalizing graph with
  | nil => exact .refl graph
  | cons a items ih => exact (each graph a).trans (ih (step graph a))

/-- Only the node itself is taken out. -/
theorem Still.detach? {id : NodeId} {node : Node}
    (detached : graph.detach? id = some (node, next)) :
    (graph.clear id).Still next := by
  unfold Graph.detach? at detached
  cases hn : graph.node? id with
  | none => simp [hn] at detached
  | some found =>
    simp only [hn, Option.bind_eq_bind, Option.bind_some, pure, Option.some.injEq,
      Prod.mk.injEq] at detached
    obtain ⟨-, rfl⟩ := detached
    refine (Still.foldl (fun graph a => ?_) _ (graph.clear id)).trans
      (.foldl (fun graph a => ?_) _ _)
    · refine .foldl (fun graph wire => ?_) _ _
      apply Still.modifyOutput
      intro _
      rfl
    · refine .foldl (fun graph target => ?_) _ _
      apply Still.modifyInput
      intro _
      rfl

end NodeScript.Graph
