import NodeScript.Proofs.Format.Authored
import NodeScript.Proofs.Graph.Foremost
import NodeScript.Proofs.Graph.Numbers

/-!
Definitions and the nodes that are made from them stay in step. Files may hold any number of nodes
of a definition; what is put together from one owns none of them, until at the end every definition
is given the first of each kind. Main statement: `Graph.Authored.in_step`.
-/

set_option autoImplicit false
set_option relaxedAutoImplicit false

namespace NodeScript

open Format NodeScript.Graph

variable {registry : Registry} {graph next : Graph}

namespace Format

theorem Assembled.not_owned (assembled : Assembled registry graph) {id : NodeId} {kind : NodeKind} :
    ¬graph.OwnedAs id kind := by
  induction assembled with
  | empty =>
    intro own
    cases own <;> rename_i member _ <;> simp [Graph.empty] at member
  | struct _ _ _ _ _ ih =>
    intro own
    exact ih (own.of_entries (fun _ => .inl) fun _ => bare_of_withStruct)
  | function _ _ _ _ ih =>
    intro own
    exact ih (own.of_entries (fun _ => bare_of_withFunction) fun _ => .inl)
  | node _ _ ih =>
    intro own
    exact ih (own.congr rfl rfl)
  | literal _ accepted _ ih =>
    obtain ⟨-, -, -, rfl⟩ := setInset_eq_ok accepted
    intro own
    exact ih (own.congr rfl rfl)
  | wire relays _ _ ih =>
    intro own
    exact ih (own.congr (Still.link ..).functions (Still.link ..).structs)

theorem Assembled.numbersApart (assembled : Assembled registry graph) : graph.NumbersApart := by
  induction assembled with
  | empty => exact numbersApart_empty
  | struct before _ _ _ _ ih => exact ih.withStruct before.sound.declared _
  | function before _ _ _ ih => exact ih.withFunction before.sound.declared _
  | node _ _ ih => exact ih
  | literal _ accepted _ ih =>
    obtain ⟨-, -, -, rfl⟩ := setInset_eq_ok accepted
    exact ih
  | wire relays _ _ ih => exact ih.upkeep (Still.link ..).upkeep

end Format

namespace Graph

variable {catalogs : Registry → Prop} {allowed : Graph → Edit → Prop}

theorem Authored.foremost (authored : graph.Authored catalogs allowed) : graph.Foremost := by
  induction authored with
  | first begins =>
    rcases begins with rfl | ⟨registry, steps, file, loaded, -, decoded, rfl⟩
    · exact foremost_empty
    · obtain ⟨parts, assembled, completed⟩ := assembled_of_decodeWith decoded
      -- Before the definitions get their nodes there is nothing to stand before others.
      have vacuous : parts.Foremost := fun _ _ own => absurd own assembled.not_owned
      exact vacuous.completeDefinitions completed
  | step before made ih =>
    obtain ⟨registry, edit, -, -, accepted⟩ := made
    exact Edit.foremost (Authored.wellFormed before) ih accepted

theorem Authored.numbersApart (authored : graph.Authored catalogs allowed) :
    graph.NumbersApart := by
  induction authored with
  | first begins =>
    rcases begins with rfl | ⟨registry, steps, file, loaded, -, decoded, rfl⟩
    · exact numbersApart_empty
    · obtain ⟨parts, assembled, completed⟩ := assembled_of_decodeWith decoded
      exact assembled.numbersApart.upkeep (.completeDefinitions completed)
  | step before made ih =>
    obtain ⟨registry, edit, -, -, accepted⟩ := made
    exact Edit.numbersApart (Authored.wellFormed before).declared ih accepted

/-- The node is of the kind, and none before it is. -/
structure IsFirst (graph : Graph) (id : NodeId) (kind : NodeKind) : Prop where
  here : graph.HasKind id kind
  first : ∀ other, graph.HasKind other kind → id.index ≤ other.index

/-- Definitions have names and addresses of their own, each owns the first nodes of its kinds,
all nodes have the ports of their definitions, and only owned nodes cannot be removed. -/
structure InStep (graph : Graph) : Prop where
  functionNames : (graph.functions.map (·.signature.name)).Nodup
  structNames : (graph.structs.map (·.schema.name)).Nodup
  numbers : graph.numbers.Nodup
  ownInput : ∀ entry ∈ graph.functions, ∃ id, entry.input = some id ∧
    graph.IsFirst id (.functionInput entry.id)
  ownOutput : ∀ entry ∈ graph.functions, ∃ id, entry.output = some id ∧
    graph.IsFirst id (.functionOutput entry.id)
  ownConstructor : ∀ entry ∈ graph.structs, ∃ id, entry.boundary = some id ∧
    graph.IsFirst id (.construct entry.id)
  mirrors : ∀ id node, graph.node? id = some node → graph.Mirrors node.ports node.kind
  refused : ∀ id node, graph.node? id = some node →
    ((∃ error, graph.remove id = .error error) ↔ ∃ kind, graph.OwnedAs id kind)

theorem remove_refused_iff {id : NodeId} {node : Node} (found : graph.node? id = some node) :
    (∃ error, graph.remove id = .error error) ↔ ∃ kind, graph.OwnedAs id kind := by
  rw [← owns_iff]
  cases own : graph.owns id with
  | true => simp [remove, own]
  | false =>
    have detached : (graph.detach? id).isSome := by simp [detach?, found]
    obtain ⟨removed, detached⟩ := Option.isSome_iff_exists.1 detached
    simp [remove, own, detached]

theorem Foremost.isFirst (foremost : graph.Foremost) (owned : graph.Owned) {id : NodeId}
    {kind : NodeKind} (own : graph.OwnedAs id kind) : graph.IsFirst id kind := by
  exact ⟨owned.hasKind own, (foremost id kind own).first⟩

/-- Definitions and the nodes that are made from them stay in step. -/
theorem Authored.in_step (authored : graph.Authored catalogs allowed) : graph.InStep := by
  have formed := authored.wellFormed
  have first {id : NodeId} {kind : NodeKind} (own : graph.OwnedAs id kind) :=
    authored.foremost.isFirst formed.owned own
  refine {
    functionNames := formed.declared.functionNames
    structNames := formed.declared.structNames
    numbers := formed.declared.numbers_nodup authored.numbersApart
    ownInput := fun entry member => ?_
    ownOutput := fun entry member => ?_
    ownConstructor := fun entry member => ?_
    mirrors := fun _ _ found => formed.mirrors (form?_eq_of_node? found)
    refused := fun _ _ => remove_refused_iff }
  · obtain ⟨id, own⟩ := Option.isSome_iff_exists.1 (formed.complete.inputs entry member)
    exact ⟨id, own, first (.input member own)⟩
  · obtain ⟨id, own⟩ := Option.isSome_iff_exists.1 (formed.complete.outputs entry member)
    exact ⟨id, own, first (.output member own)⟩
  · obtain ⟨id, own⟩ := Option.isSome_iff_exists.1 (formed.complete.constructors entry member)
    exact ⟨id, own, first (.boundary member own)⟩

end Graph

def Edit.reshaping : List Edit := [
  .defineFunction { name := "scale", inputs := [("by", .number)], outputs := [] } .zero,
  .addCall ⟨0⟩ .zero,
  .defineStruct { name := "Pair", fields := [("left", .number), ("right", .number)] } .zero,
  .redefineFunction ⟨0⟩ { name := "scale", inputs := [("by", .text)], outputs := [] }]

theorem reshaping_in_step : ∃ graph,
    Edit.reshaping.foldlM (Edit.apply Registry.builtin) .empty = .ok graph ∧
      graph.Authored (fun _ => True) (fun _ _ => True) ∧
      graph.functions.map (·.input) = [some ⟨4⟩] ∧ graph.functions.map (·.output) = [some ⟨5⟩] ∧
      graph.numbers = [2, 1] ∧ graph.InStep := by
  have facts : ∃ graph ∈ (Edit.reshaping.foldlM (Edit.apply Registry.builtin) .empty).toOption,
      graph.functions.map (·.input) = [some ⟨4⟩] ∧ graph.functions.map (·.output) = [some ⟨5⟩] ∧
      graph.numbers = [2, 1] := by decide +kernel
  obtain ⟨graph, built, input, output, numbers⟩ := facts
  have built := Accepted.toOption_eq_some_iff.1 built
  have authored : graph.Authored (fun _ => True) (fun _ _ => True) :=
    .of_reached (Reached.foldlM trivial (.first rfl) (fun _ _ _ => trivial) built)
  exact ⟨graph, built, authored, input, output, numbers, authored.in_step⟩

end NodeScript
