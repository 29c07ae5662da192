import NodeScript.Proofs.Accepted
import NodeScript.Proofs.Format.Numbered
import NodeScript.Proofs.Format.Upgraded
import NodeScript.Proofs.Graph.Edit

/-!
Graphs in the layouts of older versions. A layout that a graph is written in holds all of it but
the relays, so the steps to the current layout lead to the file that the graph has there. Main
statement: `Graph.upgrade_encode`.
-/

set_option autoImplicit false
set_option relaxedAutoImplicit false

namespace NodeScript

open Decode Format

namespace Graph

variable {registry : Registry} {graph : Graph} {version : Int32}

/-- What a version has to have for a graph. -/
structure Expressible (version : Int32) (graph : Graph) : Prop where
  known : isKnown version
  structs : version < withStructs → graph.structs = []
  functions : version < withFunctions → graph.functions = []
  kinds : version < withFunctions → ∀ entry ∈ graph.live, entry.2.kind.code = 0
  insets : version < withInsets → ∀ entry ∈ graph.live, insetsOf entry.2 = []
  few : ∀ entry ∈ graph.structs, entry.schema.fields.length ≤ 255

/-- Why the definitions of a graph cannot be written in any layout. -/
def definitionFault? (graph : Graph) : Option String :=
  match graph.structs.find? (255 < ·.schema.fields.length) with
  | some entry => some s!"struct {entry.schema.name} has too many fields"
  | none => (structOrderFault? [] graph.structs).or graph.functionFault?

theorem fault?_current (graph : Graph) : graph.fault? current = graph.definitionFault? := by
  unfold fault?
  rw [if_neg (by decide), if_neg (by simp [(by decide : ¬current < withStructs)]),
    if_neg (by simp [(by decide : ¬current < withFunctions)]),
    if_neg (by simp [(by decide : ¬current < withFunctions)]),
    if_neg (by simp [(by decide : ¬current < withInsets)])]
  rfl

theorem few_of_definitionFault? (fine : graph.definitionFault? = none) :
    ∀ entry ∈ graph.structs, entry.schema.fields.length ≤ 255 := by
  unfold definitionFault? at fine
  split at fine
  · simp at fine
  · rename_i few
    intro entry he
    have short := List.find?_eq_none.1 few entry he
    simpa using short

theorem expressible_of_fault? (fine : graph.fault? version = none) :
    graph.Expressible version ∧ graph.definitionFault? = none := by
  unfold fault? at fine
  dsimp only at fine
  split_ifs at fine with known structs functions kinds insets
  have fine : graph.definitionFault? = none := fine
  refine ⟨⟨by simpa using known, ?_, ?_, ?_, ?_, few_of_definitionFault? fine⟩, fine⟩
  · intro old
    simpa [old] using structs
  · intro old
    simpa [old] using functions
  · intro old entry he
    have builtin := kinds
    simp only [old, decide_true, Bool.true_and, List.any_eq_true, not_exists, not_and] at builtin
    have builtin := builtin entry.2 (List.mem_map_of_mem he)
    cases kind : entry.2.kind with
    | builtin id => rfl
    | _ => simp [kind] at builtin
  · intro old entry he
    have bare := insets
    simp only [old, decide_true, Bool.true_and, List.any_eq_true, not_exists, not_and] at bare
    refine insetsOf_eq_nil fun input hi => ?_
    have absent := bare entry.2 (List.mem_map_of_mem he) input hi
    simpa using absent

end Graph

def Input.withoutRelays (input : Input) : Input :=
  { input with wires := input.wires.map fun wire => { wire with relays := [] } }

def Node.withoutRelays (node : Node) : Node :=
  { node with inputs := node.inputs.map Input.withoutRelays }

namespace Graph

/-- The graph with its wires drawn straight. -/
def withoutRelays (graph : Graph) : Graph :=
  { graph with arena := graph.arena.map (·.map Node.withoutRelays) }

theorem insetsOf_withoutRelays (node : Node) : insetsOf node.withoutRelays = insetsOf node := by
  rw [insetsOf, insetsOf, Node.withoutRelays, List.zipIdx_map, List.filterMap_map]
  rfl

theorem numbered_withoutRelays (ranks : Array (Option Nat)) (input : Input) :
    numbered ranks (fun source wire => (⟨source, wire.source.slot, wire.relays⟩ : WireRecord))
        input.withoutRelays =
      (numbered ranks (fun source wire => (⟨source, wire.source.slot, wire.relays⟩ : WireRecord))
        input).map WireRecord.bare := by
  rw [numbered, numbered, Input.withoutRelays, List.filterMap_map, List.map_filterMap]
  refine List.filterMap_congr fun wire _ => ?_
  simp only [Function.comp_apply, Option.map_map]
  rfl

def heldNode (version : Int32) (node : Node) : Node :=
  if version < withRelays then node.withoutRelays else node

/-- The graph as the layout of a version holds it. -/
def held (version : Int32) (graph : Graph) : Graph :=
  if version < withRelays then graph.withoutRelays else graph

section Variables

variable {registry : Registry} {graph : Graph} {version : Int32}

theorem live_held (version : Int32) (graph : Graph) : (graph.held version).live =
    graph.live.map fun entry => (entry.1, heldNode version entry.2) := by
  unfold held heldNode
  split
  · exact live_mapNodes Node.withoutRelays graph
  · simp

theorem ranks_held (version : Int32) (graph : Graph) :
    (graph.held version).ranks = graph.ranks := by
  unfold held
  split
  · exact ranks_mapNodes Node.withoutRelays graph
  · rfl

theorem definitions_held (version : Int32) (graph : Graph) :
    (graph.held version).structs = graph.structs ∧
      (graph.held version).functions = graph.functions := by
  unfold held
  split <;> exact ⟨rfl, rfl⟩

theorem kind_heldNode (version : Int32) (node : Node) :
    (heldNode version node).kind = node.kind ∧ (heldNode version node).config = node.config ∧
      (heldNode version node).position = node.position := by
  unfold heldNode
  split <;> exact ⟨rfl, rfl, rfl⟩

theorem nameOf?_held (version : Int32) (graph : Graph) (kind : NodeKind) :
    (graph.held version).nameOf? kind = graph.nameOf? kind := by
  obtain ⟨structs, functions⟩ := definitions_held version graph
  cases kind <;> simp only [nameOf?, function?, struct?, structs, functions]

theorem insetsOf_heldNode (version : Int32) (node : Node) :
    insetsOf (heldNode version node) = insetsOf node := by
  unfold heldNode
  split
  · exact insetsOf_withoutRelays node
  · rfl

theorem record?_held {ranks : Array (Option Nat)} {node : Node} {record : NodeRecord}
    (room : version < withInsets → insetsOf node = [])
    (recorded : graph.record? ranks registry version node = some record) :
    (graph.held version).record? ranks registry current (heldNode version node) =
      some (record.upgraded version) := by
  obtain ⟨name, named, rfl⟩ := Option.map_eq_some_iff.1 recorded
  obtain ⟨kind, config, position⟩ := kind_heldNode version node
  have configs : configBytes registry (heldNode version node) = configBytes registry node := by
    rw [configBytes, configBytes, kind, config]
  have payload : encodeInsets (insetsOf node) =
      (if version < withInsets then Encode.count 0 else []) ++
        (if withInsets ≤ version then encodeInsets (insetsOf node) else []) := by
    by_cases old : version < withInsets
    · rw [if_pos old, if_neg (Int32.not_le.2 old), room old]
      rfl
    · rw [if_neg old, if_pos (Int32.not_lt.1 old), List.nil_append]
  have inputs : (heldNode version node).inputs.map (numbered ranks fun source wire =>
        (⟨source, wire.source.slot, wire.relays⟩ : WireRecord)) =
      if version < withRelays then (node.inputs.map (numbered ranks fun source wire =>
          (⟨source, wire.source.slot, wire.relays⟩ : WireRecord))).map (·.map WireRecord.bare)
        else node.inputs.map (numbered ranks fun source wire =>
          (⟨source, wire.source.slot, wire.relays⟩ : WireRecord)) := by
    unfold heldNode
    split
    · rw [Node.withoutRelays, List.map_map, List.map_map]
      exact List.map_congr_left fun input _ => numbered_withoutRelays ranks input
    · rfl
  rw [record?, kind, nameOf?_held, named, Option.map_some, NodeRecord.upgraded, configs, position,
    insetsOf_heldNode, if_pos (by decide : withInsets ≤ current), inputs, ← List.append_assoc,
    ← payload]

theorem record_eq_ok_iff {id : NodeId} {node : Node} {record : NodeRecord} :
    (match graph.record? graph.ranks registry version node with
      | some record => Except.ok record
      | none => .error (FileError.unrepresentable version
          s!"node {id} is bound to a missing definition")) = .ok record ↔
      graph.record? graph.ranks registry version node = some record := by
  cases graph.record? graph.ranks registry version node <;> simp

theorem records_iff {records : List NodeRecord} : graph.records registry version = .ok records ↔
    List.Forall₂ (fun entry record =>
      graph.record? graph.ranks registry version entry.2 = some record) graph.live records := by
  rw [Graph.records, Accepted.mapM_iff]
  refine iff_of_eq (congrArg (List.Forall₂ · graph.live records) ?_)
  funext ⟨id, node⟩ record
  exact propext record_eq_ok_iff

theorem records_held {records : List NodeRecord} (fine : graph.Expressible version)
    (recorded : graph.records registry version = .ok records) :
    (graph.held version).records registry current =
      .ok (records.map (NodeRecord.upgraded version)) := by
  have each := (List.forall₂_and_left _ _).2
    ⟨fun entry he old => fine.insets old entry he, records_iff.1 recorded⟩
  rw [records_iff, live_held, ranks_held, List.forall₂_map_left_iff, List.forall₂_map_right_iff]
  exact each.imp fun entry record made => record?_held made.1 made.2

/-- The tables of a file with the given records. -/
def tables (graph : Graph) (records : List NodeRecord) : Tables where
  schemas := graph.schemas
  signatures := graph.functions.map (·.signature)
  records

theorem encode_eq_file_iff {file : Bytes} : graph.encode registry version = .ok file ↔
    graph.fault? version = none ∧ ∃ records, graph.records registry version = .ok records ∧
      file = (graph.tables records).file version := by
  have bytes (records : List NodeRecord) : (graph.tables records).file version =
      Encode.int32 version ++
        (if withStructs ≤ version then Encode.many encodeSchema graph.schemas else []) ++
        (if withFunctions ≤ version then
          Encode.many encodeSignature (graph.functions.map (·.signature)) else []) ++
        Encode.many (NodeRecord.encode version) records := by
    simp only [Tables.file, Tables.encode, tables, List.append_assoc]
  unfold encode
  simp only [← bytes]
  cases graph.fault? version with
  | some reason => simp [throw, throwThe, MonadExceptOf.throw, bind, Except.bind]
  | none =>
    rw [Accepted.bind_iff]
    simp only [pure, Except.pure, Except.ok.injEq, true_and, eq_comm]

/-- The format can hold the lengths and the numbers in the file of a graph in the layout of a
version. -/
structure CountsFitAs (registry : Registry) (version : Int32) (graph : Graph) : Prop where
  structs : IsCount graph.structs.length
  functions : IsCount graph.functions.length
  nodes : IsCount graph.live.length
  schemas : ∀ entry ∈ graph.structs, entry.schema.CountsFit
  signatures : ∀ entry ∈ graph.functions, entry.signature.CountsFit
  records : ∀ records, graph.records registry version = .ok records →
    ∀ record ∈ records, record.CountsFit

theorem fits_tables {records : List NodeRecord} (fit : graph.CountsFitAs registry version)
    (fine : graph.Expressible version) (recorded : graph.records registry version = .ok records) :
    (graph.tables records).Fits where
  schemas := by
    rw [tables, schemas, List.length_map]
    exact fit.structs
  signatures := by
    rw [tables, List.length_map]
    exact fit.functions
  records := by
    have length := (records_iff.1 recorded).length_eq
    rw [tables, ← length]
    exact fit.nodes
  eachSchema := by
    intro schema hs
    obtain ⟨entry, he, rfl⟩ := List.mem_map.1 hs
    exact ⟨fit.schemas entry he, fine.few entry he⟩
  eachSignature := by
    intro signature hs
    obtain ⟨entry, he, rfl⟩ := List.mem_map.1 hs
    exact fit.signatures entry he
  eachRecord := fit.records records recorded

theorem kind_of_record? {ranks : Array (Option Nat)} {node : Node} {record : NodeRecord}
    (recorded : graph.record? ranks registry version node = some record) :
    record.kind = node.kind.code := by
  obtain ⟨name, -, rfl⟩ := Option.map_eq_some_iff.1 recorded
  rfl

theorem isShallow_tables {records : List NodeRecord}
    (fields : ∀ entry ∈ graph.structs, ∀ field ∈ entry.schema.fields,
      field.type.levels ≤ maxNesting)
    (parameters : ∀ entry ∈ graph.functions, ∀ type ∈ entry.signature.types,
      type.levels ≤ maxNesting) : (graph.tables records).IsShallow := by
  constructor
  · intro schema hs
    obtain ⟨entry, he, rfl⟩ := List.mem_map.1 hs
    exact fields entry he
  · intro signature hs
    obtain ⟨entry, he, rfl⟩ := List.mem_map.1 hs
    have types (field : Field) (hf : field ∈ entry.signature.inputs ++ entry.signature.outputs) :
        field.type.levels ≤ maxNesting :=
      parameters entry he field.type (List.mem_map_of_mem hf)
    exact ⟨fun field hf => types field (List.mem_append_left _ hf),
      fun field hf => types field (List.mem_append_right _ hf)⟩

theorem upgrades_tables {records : List NodeRecord} (fine : graph.fault? version = none)
    (fit : graph.CountsFitAs registry version)
    (recorded : graph.records registry version = .ok records) :
    Upgrades Step.all version (graph.tables records) ∧
      (graph.held version).encode registry current =
        .ok (((graph.tables records).upgraded version).file current) := by
  obtain ⟨expressible, sound⟩ := expressible_of_fault? fine
  obtain ⟨structs, functions⟩ := definitions_held version graph
  constructor
  · refine upgrades_all expressible.known (fits_tables fit expressible recorded) ?_ ?_ ?_
    · intro old
      rw [tables, schemas, expressible.structs old, List.map_nil]
    · intro old
      rw [tables, expressible.functions old, List.map_nil]
    · intro old record hr
      obtain ⟨⟨id, node⟩, he, made⟩ := Accepted.mem_of_mapM recorded hr
      rw [kind_of_record? (record_eq_ok_iff.1 made)]
      exact expressible.kinds old (id, node) he
  · refine encode_eq_file_iff.2 ⟨?_, _, records_held expressible recorded, ?_⟩
    · rw [fault?_current, definitionFault?, functionFault?, Graph.schemas, structs, functions]
      exact sound
    · rw [tables, tables, Graph.schemas, Graph.schemas, structs, functions]
      rfl

/-- The file of a graph in the layout of an older version becomes, step by step, the file of the
graph in the current layout; relays are lost where the older layout has none. -/
theorem upgrade_encode {file : Bytes} (written : graph.encode registry version = .ok file)
    (fit : graph.CountsFitAs registry version)
    (fields : ∀ entry ∈ graph.structs, ∀ field ∈ entry.schema.fields, field.type.levels ≤ 64)
    (parameters : ∀ entry ∈ graph.functions, ∀ type ∈ entry.signature.types, type.levels ≤ 64) :
    ∃ upgraded, upgrade Step.all file = .ok upgraded ∧
      (if version < withRelays then graph.withoutRelays else graph).encode registry current =
        .ok upgraded := by
  obtain ⟨fine, records, recorded, rfl⟩ := encode_eq_file_iff.1 written
  obtain ⟨upgrades, encoded⟩ := upgrades_tables fine fit recorded
  exact ⟨_, upgrades.gives (isShallow_tables fields parameters), encoded⟩

end Variables

end Graph

def Edit.bending : List Edit := [
  .defineFunction { name := "f", inputs := [("x", .list .number)], outputs := [] } .zero,
  .addBuiltin "event/On" (.obj [("event", .str "go")]) .zero,
  .addBuiltin "flow/Branch" .null .zero,
  .connect ⟨⟨2⟩, 0⟩ ⟨⟨3⟩, 0⟩ [.zero]]

theorem bending_upgraded : ∃ graph file upgraded,
    Edit.bending.foldlM (Edit.apply Registry.builtin) .empty = .ok graph ∧
      graph.encode Registry.builtin 1 = .ok file ∧ upgrade Step.all file = .ok upgraded ∧
      graph.withoutRelays.encode Registry.builtin current = .ok upgraded ∧
      graph.encode Registry.builtin current ≠ .ok upgraded := by
  have facts : ∃ graph ∈ (Edit.bending.foldlM (Edit.apply Registry.builtin) .empty).toOption,
      (graph.encode Registry.builtin 1).toOption.isSome ∧
        (IsCount graph.structs.length ∧ IsCount graph.functions.length ∧
          IsCount graph.live.length) ∧
        (∀ entry ∈ graph.structs, entry.schema.CountsFit) ∧
        (∀ entry ∈ graph.functions, entry.signature.CountsFit) ∧
        (∃ records ∈ (graph.records Registry.builtin 1).toOption,
          ∀ record ∈ records, record.CountsFit) ∧
        (∀ entry ∈ graph.structs, ∀ field ∈ entry.schema.fields, field.type.levels ≤ 64) ∧
        (∀ entry ∈ graph.functions, ∀ type ∈ entry.signature.types, type.levels ≤ 64) ∧
        (graph.encode Registry.builtin current).toOption ≠
          (graph.withoutRelays.encode Registry.builtin current).toOption := by decide +kernel
  obtain ⟨graph, built, written, ⟨structs, functions, nodes⟩, schemas, signatures,
    ⟨records, recorded, small⟩, fields, parameters, lost⟩ := facts
  have recorded := Accepted.toOption_eq_some_iff.1 recorded
  have fit : graph.CountsFitAs Registry.builtin 1 := by
    refine ⟨structs, functions, nodes, schemas, signatures, fun found same => ?_⟩
    obtain rfl := Except.ok.inj (recorded.symm.trans same)
    exact small
  obtain ⟨file, written⟩ := Option.isSome_iff_exists.1 written
  have written := Accepted.toOption_eq_some_iff.1 written
  obtain ⟨upgraded, became, same⟩ := Graph.upgrade_encode written fit fields parameters
  rw [if_pos (by decide)] at same
  refine ⟨graph, file, upgraded, Accepted.toOption_eq_some_iff.1 built, written, became, same,
    fun kept => lost ?_⟩
  rw [same, kept]

end NodeScript
