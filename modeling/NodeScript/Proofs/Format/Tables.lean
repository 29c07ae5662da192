import NodeScript.Proofs.Catalog.Config
import NodeScript.Proofs.Format.Transcribed

/-!
What is made of the bytes of a graph when they are read: `Graph.reread` computes it from the graph
alone. The reader may know fewer types than the writer did (`Graph.rereadBy`). Main statements:
`Graph.decodeBy_encode` and `Graph.decode_encode`.
-/

set_option autoImplicit false
set_option relaxedAutoImplicit false

namespace NodeScript

open Decode Format

def Format.rereadNode (registry : Registry) (graph : Graph) (node : Node) (record : NodeRecord) :
    Option (Option (Node × List (Nat × Value))) :=
  if record.kind = 0 then
    match registry.behavior? record.name with
    | none => some none
    | some behavior => (rereadInsets (Graph.insetsOf node)).map fun insets =>
      match behavior.ports node.config graph.schemas with
      | .ok ports =>
        some (.ofPorts (.builtin record.name) node.config ports record.position, insets)
      | .error _ => none
  else
    match definedKind? graph record with
    | none => some none
    | some kind => (rereadInsets (Graph.insetsOf node)).map fun insets =>
      match graph.definedPorts kind with
      | .ok ports => some (.ofPorts kind .null ports record.position, insets)
      | .error _ => none

/-- A registry has no types but those of another one, as they are there. -/
def Registry.Within (reader registry : Registry) : Prop :=
  ∀ type behavior, reader.behavior? type = some behavior → registry.behavior? type = some behavior

theorem Registry.within_refl (registry : Registry) : registry.Within registry := by
  intro _ _ h
  exact h

def Graph.ConfigsReread (registry : Registry) (graph : Graph) : Prop :=
  ∀ id node, (id, node) ∈ graph.live → ∀ type behavior, node.kind = .builtin type →
    registry.behavior? type = some behavior → behavior.Rereads node.config

private theorem reads_within {α : Type} {read : Decode α} {bytes : Bytes} {answer : Option α}
    (reads : Reads read bytes answer) : Reads (Decode.within bytes read) [] answer := by
  cases answer with
  | none =>
    obtain ⟨e, failed⟩ := reads.result_none
    rw [Decode.within, failed]
    exact Reads.throw e []
  | some a =>
    rw [Decode.within, reads.result]
    exact Reads.pure a

private theorem reads_ports (ports? : Except GraphError Ports)
    (make : Ports → Node × List (Nat × Value)) :
    Reads (match ports? with | .ok ports => pure (some (make ports)) | .error _ => pure none) []
      (some (match ports? with | .ok ports => some (make ports) | .error _ => none)) := by
  cases ports? <;> exact Reads.pure _

theorem Format.reads_node {reader registry : Registry} (within : reader.Within registry)
    {graph : Graph} (read : Graph) {ranks : Array (Option Nat)} {node : Node} {record : NodeRecord}
    (recorded : graph.record? ranks registry current node = some record)
    (rereads : ∀ type behavior, node.kind = .builtin type →
      registry.behavior? type = some behavior → behavior.Rereads node.config)
    (fit : Format.InsetsFit (Graph.insetsOf node)) :
    Reads (readNode reader read record) [] (rereadNode reader read node record) := by
  obtain ⟨name, named, rfl⟩ := Option.map_eq_some_iff.1 recorded
  have insets := reads_insets fit
  rw [if_pos (by decide : withInsets ≤ current)]
  unfold readNode rereadNode
  by_cases builtin : node.kind.code = 0
  · rw [if_pos builtin, if_pos builtin]
    obtain ⟨type, kind⟩ : ∃ type, node.kind = .builtin type := by
      cases kind : node.kind with
      | builtin type => exact ⟨type, rfl⟩
      | _ => simp [kind, NodeKind.code] at builtin
    obtain rfl : type = name := by simpa [kind, Graph.nameOf?] using named
    cases known : reader.behavior? type with
    | none => exact Reads.pure none
    | some behavior =>
      have hb := within type behavior known
      have bytes : Graph.configBytes registry node = behavior.write node.config := by
        simp [Graph.configBytes, kind, hb]
      have both := insets.bind fun found _ =>
        (rereads type behavior kind hb read.schemas).map (f := (found, ·))
      have parts := (reads_within both).bind fun found _ =>
        reads_ports (behavior.ports found.2 read.schemas) fun ports =>
          (.ofPorts (.builtin type) found.2 ports node.position, found.1)
      dsimp only
      rw [bytes]
      cases found : rereadInsets (Graph.insetsOf node) with
      | none => rw [found] at parts; exact parts
      | some insets => rw [found] at parts; exact parts
  · rw [if_neg builtin, if_neg builtin]
    have bytes : Graph.configBytes registry node = [] := by
      cases kind : node.kind with
      | builtin type => simp [kind, NodeKind.code] at builtin
      | _ => simp [Graph.configBytes, kind]
    rw [bytes, List.append_nil]
    dsimp only
    generalize definedKind? read _ = kind?
    cases kind? with
    | none => exact Reads.pure none
    | some kind =>
      have parts := (reads_within insets).bind fun found _ =>
        reads_ports (read.definedPorts kind) fun ports =>
          (.ofPorts kind .null ports node.position, found)
      cases found : rereadInsets (Graph.insetsOf node) with
      | none => rw [found] at parts; exact parts
      | some insets => rw [found] at parts; exact parts

/-- The graph in the making after the next node, if its literals can be read. -/
def Format.Loading.reread (registry : Registry) (loading : Loading) (item : Node × NodeRecord) :
    Option Loading :=
  (rereadNode registry loading.graph item.1 item.2).map (loading.place item.2)

/-- The nodes of a graph with what is written of them. -/
def Graph.items (graph : Graph) (registry : Registry) : List (Node × NodeRecord) :=
  graph.live.filterMap fun (_, node) =>
    (graph.record? graph.ranks registry current node).map (node, ·)

/-- What a reader with its own types reads of a graph: the graph that results, and the numbers of
nodes and of wires that are left out of it. -/
def Graph.rereadBy (reader registry : Registry) (graph : Graph) : Option (Graph × Nat × Nat) := do
  let structs ← graph.schemas.foldlM rereadSchema .empty
  let definitions ← (graph.functions.map (·.signature)).foldlM rereadSignature structs
  let loading ← (graph.items registry).foldlM (Loading.reread reader) { graph := definitions }
  let (linked, droppedWires) :=
    loading.pending.foldl (connectNext loading.placed) (loading.graph, 0)
  match linked.completeDefinitions with
  | .ok completed => some (completed, loading.placed.countP Option.isNone, droppedWires)
  | .error _ => none

/-- What is read of a graph where its types are known. -/
def Graph.reread (registry : Registry) (graph : Graph) : Option (Graph × Nat × Nat) :=
  graph.rereadBy registry registry

/-- The format can hold the lengths and the numbers in a graph. -/
@[mk_iff] structure Graph.CountsFit (registry : Registry) (graph : Graph) : Prop where
  structs : IsCount graph.structs.length
  functions : IsCount graph.functions.length
  nodes : IsCount graph.live.length
  schemas : ∀ entry ∈ graph.structs, entry.schema.CountsFit
  signatures : ∀ entry ∈ graph.functions, entry.signature.CountsFit
  records : ∀ item ∈ graph.items registry, item.2.CountsFit
  insets : ∀ item ∈ graph.items registry, Format.InsetsFit (Graph.insetsOf item.1)

instance (registry : Registry) (graph : Graph) : Decidable (graph.CountsFit registry) :=
  decidable_of_iff _ (Graph.countsFit_iff registry graph).symm

variable {reader registry : Registry} {graph : Graph}

namespace Graph

theorem encode_eq_ok {file : Bytes} (accepted : graph.encode registry current = .ok file) :
    graph.fault? current = none ∧ ∃ records, graph.records registry current = .ok records ∧
      file = Encode.int32 current ++ (Encode.many encodeSchema graph.schemas ++
        (Encode.many encodeSignature (graph.functions.map (·.signature)) ++
          Encode.many (NodeRecord.encode current) records)) := by
  unfold encode at accepted
  cases fault : graph.fault? current with
  | some reason => simp [fault, throw, throwThe, MonadExceptOf.throw, bind, Except.bind] at accepted
  | none =>
    simp only [fault, Accepted.bind_iff, pure, Except.pure, Except.ok.injEq] at accepted
    obtain ⟨records, found, rfl⟩ := accepted
    refine ⟨rfl, records, found, ?_⟩
    rw [if_pos (by decide : withStructs ≤ current), if_pos (by decide : withFunctions ≤ current),
      List.append_assoc, List.append_assoc]

private theorem mapM_records {ranks : Array (Option Nat)} {nodes : List (NodeId × Node)}
    {records : List NodeRecord}
    (accepted : nodes.mapM (fun (id, node) =>
      match graph.record? ranks registry current node with
      | some record => Except.ok record
      | none => .error (FileError.unrepresentable current
          s!"node {id} is bound to a missing definition")) = .ok records) :
    records = (nodes.filterMap fun (_, node) =>
      (graph.record? ranks registry current node).map (node, ·)).map (·.2) ∧
    ∀ entry ∈ nodes, (graph.record? ranks registry current entry.2).isSome := by
  induction nodes generalizing records with
  | nil =>
    cases accepted
    exact ⟨rfl, fun _ h => by simp at h⟩
  | cons entry nodes ih =>
    obtain ⟨id, node⟩ := entry
    rw [List.mapM_cons, Accepted.bind_iff] at accepted
    obtain ⟨record, first, accepted⟩ := accepted
    obtain ⟨others, rest, accepted⟩ := Accepted.bind_iff.1 accepted
    cases accepted
    cases recorded : graph.record? ranks registry current node with
    | none => simp [recorded] at first
    | some found =>
      obtain rfl : found = record := by simpa [recorded] using first
      obtain ⟨same, all⟩ := ih rest
      refine ⟨?_, List.forall_mem_cons.2 ⟨by simp [recorded], all⟩⟩
      rw [List.filterMap_cons_some (b := (node, found)) (by simp [recorded]), List.map_cons, same]

theorem records_eq_ok {records : List NodeRecord}
    (accepted : graph.records registry current = .ok records) :
    records = (graph.items registry).map (·.2) ∧
    ∀ entry ∈ graph.live, (graph.record? graph.ranks registry current entry.2).isSome :=
  mapM_records accepted

theorem mem_items {item : Node × NodeRecord} : item ∈ graph.items registry ↔
    ∃ id, (id, item.1) ∈ graph.live ∧
      graph.record? graph.ranks registry current item.1 = some item.2 := by
  simp only [items, List.mem_filterMap, Option.map_eq_some_iff, Prod.exists]
  constructor
  · rintro ⟨id, node, mem, record, found, rfl⟩
    exact ⟨id, mem, found⟩
  · rintro ⟨id, mem, found⟩
    exact ⟨id, item.1, mem, item.2, found, rfl⟩

theorem fault?_eq_none (fine : graph.fault? current = none) :
    (∀ entry ∈ graph.structs, entry.schema.fields.length ≤ 255) ∧
      structOrderFault? [] graph.structs = none ∧ graph.functionFault? = none := by
  unfold fault? at fine
  rw [if_neg (by decide), if_neg (by simp [(by decide : ¬current < withStructs)]),
    if_neg (by simp [(by decide : ¬current < withFunctions)]),
    if_neg (by simp [(by decide : ¬current < withFunctions)]),
    if_neg (by simp [(by decide : ¬current < withInsets)])] at fine
  split at fine
  · simp at fine
  · rename_i few
    rw [Option.or_eq_none_iff] at fine
    refine ⟨fun entry he => ?_, fine⟩
    have short := List.find?_eq_none.1 few entry he
    simpa using short

theorem reads_tables (within : reader.Within registry) (rereads : graph.ConfigsReread registry)
    (fit : graph.CountsFit registry)
    (few : ∀ entry ∈ graph.structs, entry.schema.fields.length ≤ 255) :
    Decode.Reads (readTables reader) (Encode.many encodeSchema graph.schemas ++
        (Encode.many encodeSignature (graph.functions.map (·.signature)) ++
          Encode.many (NodeRecord.encode current) ((graph.items registry).map (·.2))))
      (graph.rereadBy reader registry) := by
  have schemas : ∀ schema ∈ graph.schemas, ∀ read,
      Decode.Reads (readSchema read) (encodeSchema schema) (read.rereadSchema schema) := by
    intro schema hs read
    obtain ⟨entry, he, rfl⟩ := List.mem_map.1 hs
    exact reads_schema read (fit.schemas entry he) (few entry he)
  have signatures : ∀ signature ∈ graph.functions.map (·.signature), ∀ read,
      Decode.Reads (readSignature read) (encodeSignature signature)
        (read.rereadSignature signature) := by
    intro signature hs read
    obtain ⟨entry, he, rfl⟩ := List.mem_map.1 hs
    exact reads_signature read (fit.signatures entry he)
  have nodes : ∀ item ∈ graph.items registry, ∀ loading : Loading,
      Decode.Reads (loading.readNext reader) (item.2.encode current)
        (loading.reread reader item) := by
    intro item hi loading
    obtain ⟨id, mem, recorded⟩ := mem_items.1 hi
    have node := reads_node within loading.graph recorded (rereads id item.1 mem)
      (fit.insets item hi)
    have both : Decode.Reads (loading.readNext reader) (item.2.encode current ++ [])
        (loading.reread reader item) :=
      (NodeRecord.reads (fit.records item hi)).andThen (node.map (f := loading.place item.2))
    rwa [List.append_nil] at both
  have few : IsCount (graph.items registry).length :=
    Nat.le_trans (List.length_filterMap_le _ _) fit.nodes
  have bytes : Encode.many (NodeRecord.encode current) ((graph.items registry).map (·.2)) =
      Encode.count (graph.items registry).length ++
        ((graph.items registry).flatMap (fun item => item.2.encode current) ++ []) := by
    rw [Encode.many, List.length_map, List.flatMap_map, List.append_nil]
  have schemaCount : IsCount graph.schemas.length := by
    rw [Graph.schemas, List.length_map]
    exact fit.structs
  have signatureCount : IsCount (graph.functions.map (·.signature)).length := by
    rw [List.length_map]
    exact fit.functions
  rw [bytes, Encode.many, Encode.many, List.append_assoc, List.append_assoc]
  refine (Reads.count schemaCount).andThen ((Reads.iterate schemas _).bind fun structs _ => ?_)
  refine (Reads.count signatureCount).andThen ((Reads.iterate signatures _).bind
    fun definitions _ => ?_)
  refine (Reads.count few).andThen ((Reads.iterate nodes _).bind fun loading _ => ?_)
  dsimp only
  generalize loading.pending.foldl (connectNext loading.placed) (loading.graph, 0) = linked
  cases linked.1.completeDefinitions with
  | ok completed => exact Reads.pure _
  | error reason => exact Reads.throw _ _

/-- What is read of the file of a graph where no other types are known than its own. -/
theorem decodeBy_encode {file : Bytes} (within : reader.Within registry)
    (accepted : graph.encode registry current = .ok file)
    (rereads : graph.ConfigsReread registry) (fit : graph.CountsFit registry) :
    (∀ read, graph.rereadBy reader registry = some read → decode reader file = .ok
      { graph := read.1, version := current, droppedNodes := read.2.1, droppedWires := read.2.2 }) ∧
    (graph.rereadBy reader registry = none → ∃ e, decode reader file = .error e) := by
  obtain ⟨fine, records, recorded, rfl⟩ := encode_eq_ok accepted
  obtain ⟨few, -, -⟩ := fault?_eq_none fine
  obtain ⟨rfl, -⟩ := records_eq_ok recorded
  have tables := reads_tables within rereads fit few
  have whole : Decode.Reads (do
      let reached ← Decode.int32
      if reached != current then throw (.unsupportedVersion reached)
      let read ← readTables reader
      return (⟨read.1, current, read.2.1, read.2.2⟩ : Loaded)) _ _ :=
    (Reads.int32 current).andThen tables.map
  have steps (rest : Bytes) : decode reader (Encode.int32 current ++ rest) =
      Decode.result (do
        let reached ← Decode.int32
        if reached != current then throw (.unsupportedVersion reached)
        let read ← readTables reader
        return (⟨read.1, current, read.2.1, read.2.2⟩ : Loaded))
        (Encode.int32 current ++ rest) := by
    have version : Decode.int32.result (Encode.int32 current ++ rest) = .ok current :=
      congrArg Prod.fst ((Reads.int32 current).gives current rfl rest 0)
    rw [decode, decodeWith, version]
    simp only [bind, Except.bind, upgrade_of_current version]
    rw [if_neg (by decide)]
  rw [steps]
  constructor
  · intro read found
    rw [found] at whole
    exact whole.result
  · intro absent
    rw [absent] at whole
    exact whole.result_none

/-- What is read of the file of a graph. -/
theorem decode_encode {file : Bytes} (accepted : graph.encode registry current = .ok file)
    (rereads : graph.ConfigsReread registry) (fit : graph.CountsFit registry) :
    (∀ read, graph.reread registry = some read → decode registry file = .ok
      { graph := read.1, version := current, droppedNodes := read.2.1, droppedWires := read.2.2 }) ∧
    (graph.reread registry = none → ∃ e, decode registry file = .error e) :=
  decodeBy_encode registry.within_refl accepted rereads fit

end Graph

end NodeScript
