import NodeScript.Proofs.Format.Nesting
import NodeScript.Proofs.Format.Older
import NodeScript.Proofs.Graph.Settled

/-!
What the layout of a version holds of a graph, as a graph. Nothing but relays can be lost, so it is
in order where the graph is. Main statement: `Graph.decode_held`, by which a file of any version is
read as the file in the current layout of what its layout holds.
-/

set_option autoImplicit false
set_option relaxedAutoImplicit false

namespace NodeScript

open Decode Format

namespace Graph

variable {registry : Registry} {admits : Admits} {graph : Graph}

def heldInput (version : Int32) (input : Input) : Input :=
  if version < withRelays then input.withoutRelays else input

theorem heldInput_same (version : Int32) (input : Input) :
    (heldInput version input).port = input.port ∧ (heldInput version input).inset = input.inset ∧
      (heldInput version input).wires.map (·.source) = input.wires.map (·.source) := by
  unfold heldInput
  split
  · refine ⟨rfl, rfl, ?_⟩
    rw [Input.withoutRelays, List.map_map]
    rfl
  · exact ⟨rfl, rfl, rfl⟩

theorem inputs_heldNode (version : Int32) (node : Node) :
    (heldNode version node).inputs = node.inputs.map (heldInput version) ∧
      (heldNode version node).outputs = node.outputs := by
  unfold heldNode heldInput
  split
  · exact ⟨rfl, rfl⟩
  · exact ⟨(List.map_id _).symm, rfl⟩

theorem bare_heldNode (version : Int32) (node : Node) :
    (heldNode version node).bare = node.bare := by
  obtain ⟨inputs, outputs⟩ := inputs_heldNode version node
  obtain ⟨kind, config, position⟩ := kind_heldNode version node
  have same (input : Input) :
      ({ heldInput version input with wires := [] } : Input) = { input with wires := [] } := by
    obtain ⟨port, inset, -⟩ := heldInput_same version input
    dsimp only
    rw [port, inset]
  simp only [Node.bare, inputs, outputs, kind, config, position, List.map_map, Function.comp_def,
    same]

theorem node?_held (version : Int32) (graph : Graph) (id : NodeId) :
    (graph.held version).node? id = (graph.node? id).map (heldNode version) := by
  unfold held heldNode
  split
  · exact node?_mapNodes Node.withoutRelays graph id
  · exact Option.map_id'.symm

theorem input?_held (version : Int32) (graph : Graph) (ref : InputRef) :
    (graph.held version).input? ref = (graph.input? ref).map (heldInput version) := by
  rw [input?, input?, node?_held]
  cases graph.node? ref.node with
  | none => rfl
  | some node =>
    rw [Option.map_some, Option.bind_some, Option.bind_some, (inputs_heldNode version node).1,
      List.getElem?_map]

theorem output?_held (version : Int32) (graph : Graph) (ref : OutputRef) :
    (graph.held version).output? ref = graph.output? ref := by
  rw [output?, output?, node?_held]
  cases graph.node? ref.node with
  | none => rfl
  | some node =>
    rw [Option.map_some, Option.bind_some, Option.bind_some, (inputs_heldNode version node).2]

theorem form?_held (version : Int32) (graph : Graph) (id : NodeId) :
    (graph.held version).form? id = graph.form? id := by
  rw [form?, form?, node?_held, Option.map_map]
  congr 1
  funext node
  rw [Function.comp_apply, ← (heldNode version node).form_bare, bare_heldNode, node.form_bare]

/-- What a layout holds of a graph is in order. -/
theorem WellFormed.held (formed : graph.WellFormed admits) (version : Int32) :
    (graph.held version).WellFormed admits := by
  obtain ⟨structs, functions⟩ := definitions_held version graph
  have next : (graph.held version).nextDefinition = graph.nextDefinition := by
    unfold Graph.held
    split <;> rfl
  have wired : (graph.held version).Wired := by
    refine formed.wired.of_inputs (fun ref => input?_held version graph ref)
      (output?_held version graph) (fun _ input => ?_) fun _ input => ?_
    · exact (heldInput_same version input).1
    · exact (heldInput_same version input).2.2
  have acyclic : (graph.held version).Acyclic := by
    refine formed.acyclic.mono fun id other reads => ?_
    obtain ⟨slot, input, wire, found, value, mem, rfl⟩ := reads_iff.1 reads
    rw [input?_held, Option.map_eq_some_iff] at found
    obtain ⟨old, hold, rfl⟩ := found
    obtain ⟨port, -, sources⟩ := heldInput_same version old
    have mem : wire.source ∈ old.wires.map (·.source) := by
      rw [← sources]
      exact List.mem_map_of_mem mem
    obtain ⟨before, hb, same⟩ := List.mem_map.1 mem
    rw [port] at value
    exact reads_iff.2 ⟨slot, old, before, hold, value, hb, congrArg OutputRef.node same⟩
  have insets : (graph.held version).InsetsFit := by
    intro ref input value found inset
    rw [input?_held, Option.map_eq_some_iff] at found
    obtain ⟨old, hold, rfl⟩ := found
    obtain ⟨port, same, -⟩ := heldInput_same version old
    rw [port]
    rw [same] at inset
    exact formed.insets ref old value hold inset
  exact formed.of_sound (formed.of_forms wired acyclic insets functions structs next
    (form?_held version graph)) functions structs

theorem Settled.held (settled : graph.Settled registry) (version : Int32) :
    (graph.held version).Settled registry := by
  obtain ⟨structs, functions⟩ := definitions_held version graph
  have schemas : (graph.held version).schemas = graph.schemas := by
    rw [Graph.schemas, structs, Graph.schemas]
  refine ⟨?_, ?_, ?_⟩
  · rw [schemas]
    exact settled.fields
  · rw [functions, schemas]
    exact settled.parameters
  · intro id form type found kind
    rw [form?_held] at found
    rw [schemas]
    exact settled.builtins id form type found kind

def heldRecord (version : Int32) (record : NodeRecord) : NodeRecord :=
  if version < withRelays then Step.addWireRelays.record record else record

theorem record?_heldNode (version : Int32) (ranks : Array (Option Nat)) (node : Node) :
    (graph.held version).record? ranks registry current (heldNode version node) =
      (graph.record? ranks registry current node).map (heldRecord version) := by
  obtain ⟨kind, config, position⟩ := kind_heldNode version node
  have configs : configBytes registry (heldNode version node) = configBytes registry node := by
    rw [configBytes, configBytes, kind, config]
  rw [record?, record?, kind, nameOf?_held, configs, position, insetsOf_heldNode,
    if_pos (by decide : withInsets ≤ current), Option.map_map]
  congr 1
  funext name
  rw [Function.comp_apply]
  unfold heldRecord heldNode
  split
  · rw [Node.withoutRelays, List.map_map, Step.record, List.map_map]
    congr 1
    exact List.map_congr_left fun input _ => numbered_withoutRelays ranks input
  · rfl

theorem items_held (version : Int32) (graph : Graph) : (graph.held version).items registry =
    (graph.items registry).map fun item =>
      (heldNode version item.1, heldRecord version item.2) := by
  rw [items, items, live_held, ranks_held, List.filterMap_map, List.map_filterMap]
  refine List.filterMap_congr fun entry _ => ?_
  obtain ⟨id, node⟩ := entry
  simp only [Function.comp_apply, record?_heldNode, Option.map_map]
  rfl

/-- The current layout can hold what an older one does. -/
theorem CountsFit.held (fit : graph.CountsFit registry) (version : Int32) :
    (graph.held version).CountsFit registry := by
  obtain ⟨structs, functions⟩ := definitions_held version graph
  refine ⟨?_, ?_, ?_, ?_, ?_, ?_, ?_⟩
  · rw [structs]
    exact fit.structs
  · rw [functions]
    exact fit.functions
  · rw [live_held, List.length_map]
    exact fit.nodes
  · rw [structs]
    exact fit.schemas
  · rw [functions]
    exact fit.signatures
  · rw [items_held]
    intro item mem
    obtain ⟨old, hold, rfl⟩ := List.mem_map.1 mem
    show (heldRecord version old.2).CountsFit
    unfold heldRecord
    split
    · exact Step.countsFit_addWireRelays (fit.records old hold)
    · exact fit.records old hold
  · rw [items_held]
    intro item mem
    obtain ⟨old, hold, rfl⟩ := List.mem_map.1 mem
    rw [insetsOf_heldNode]
    exact fit.insets old hold

theorem CountsFit.older (fit : graph.CountsFit registry) (version : Int32) :
    graph.CountsFitAs registry version where
  structs := fit.structs
  functions := fit.functions
  nodes := fit.nodes
  schemas := fit.schemas
  signatures := fit.signatures
  records := by
    intro records recorded record mem
    obtain ⟨⟨id, node⟩, live, made⟩ := Accepted.mem_of_mapM recorded mem
    obtain ⟨name, named, rfl⟩ := Option.map_eq_some_iff.1 (record_eq_ok_iff.1 made)
    have counts (record : NodeRecord)
        (made : graph.record? graph.ranks registry current node = some record) :
        record.CountsFit := fit.records (node, record) (mem_items.2 ⟨id, live, made⟩)
    have counts := counts _ (Option.map_eq_some_iff.2 ⟨name, named, rfl⟩)
    refine ⟨counts.name, Nat.le_trans ?_ counts.payload, counts.inputs, counts.wires, counts.each⟩
    rw [List.length_append, List.length_append, if_pos (by decide : withInsets ≤ Format.current)]
    split <;> simp

end Graph

namespace Format

variable {registry : Registry} {tables : Tables} {version : Int32}

private def readFile (registry : Registry) (version : Int32) : Decode Loaded := do
  let reached ← Decode.int32
  if reached != current then throw (.unsupportedVersion reached)
  let (graph, droppedNodes, droppedWires) ← readTables registry
  return { graph, version, droppedNodes, droppedWires }

private theorem decode_of_upgrade (known : isKnown version) {upgraded : Bytes}
    (steps : upgrade Step.all (tables.file version) = .ok upgraded) :
    decode registry (tables.file version) = (readFile registry version).result upgraded := by
  unfold decode decodeWith
  rw [Tables.version_file]
  simp only [bind, Except.bind, steps]
  rw [if_neg (by simp [known])]
  rfl

private theorem readFile_version (file : Bytes) {loaded : Loaded}
    (read : (readFile registry version).result file = .ok loaded) :
    (readFile registry current).result file = .ok { loaded with version := current } := by
  unfold readFile Decode.result at read ⊢
  rw [runAt_bind] at read ⊢
  generalize Decode.int32.runAt (Cursor.ofBytes file) = first at read ⊢
  obtain ⟨_ | reached, cursor⟩ := first
  · simp at read
  · dsimp only at read ⊢
    by_cases same : (reached != current) = true
    · rw [if_pos same, runAt_bind, runAt_throw] at read
      simp at read
    · rw [if_neg same, runAt_bind] at read ⊢
      generalize (readTables registry).runAt cursor = second at read ⊢
      obtain ⟨_ | tables, after⟩ := second
      · simp at read
      · obtain rfl := Except.ok.inj read
        rfl

end Format

namespace Graph

variable {registry : Registry} {graph : Graph} {version : Int32} {file : Bytes} {loaded : Loaded}

/-- What is read of a file of any version is read of the file in the current layout of what its
layout holds. -/
theorem decode_held (fit : graph.CountsFitAs registry version)
    (written : graph.encode registry version = .ok file)
    (read : decode registry file = .ok loaded) : ∃ upgraded,
    (graph.held version).encode registry current = .ok upgraded ∧
      decode registry upgraded = .ok { loaded with version := current } := by
  obtain ⟨fine, records, recorded, rfl⟩ := encode_eq_file_iff.1 written
  obtain ⟨upgrades, encoded⟩ := upgrades_tables fine fit recorded
  have known := (expressible_of_fault? fine).1.known
  have steps : upgrade Step.all ((graph.tables records).file version) =
      .ok (((graph.tables records).upgraded version).file current) := by
    by_cases old : version = current
    · subst old
      rw [Tables.upgraded_current]
      exact upgrade_file_current _ _
    · refine upgrades.gives (Classical.byContradiction fun deep => ?_)
      obtain ⟨e, failed⟩ := upgrades.fails deep old
      unfold decode decodeWith at read
      rw [Tables.version_file] at read
      simp [bind, Except.bind, failed, known] at read
  refine ⟨_, encoded, ?_⟩
  rw [decode_of_upgrade (by decide) (upgrade_file_current _ _)]
  rw [decode_of_upgrade known steps] at read
  exact readFile_version _ read

end Graph

end NodeScript
