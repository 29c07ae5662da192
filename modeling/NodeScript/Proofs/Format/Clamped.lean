import NodeScript.Proofs.Format.Readable

/-!
Graphs whose sequences have numbers of outputs within bounds. A file may give a sequence any number
of outputs, and the graph keeps it, but what is written is a number within bounds. So the graph is
written in the same bytes once all numbers are brought within bounds, and then its configurations
are read back as they are. Main statements: `Graph.encode_clamped`, `Readable.configsReread` and
`Graph.summary_clamped`.
-/

set_option autoImplicit false
set_option relaxedAutoImplicit false

namespace NodeScript

open Decode

def NodeKind.clamp (kind : NodeKind) (config : Json) : Json :=
  match kind with
  | .builtin type => Catalog.clampConfig type config
  | _ => config

def Node.clamped (node : Node) : Node := { node with config := node.kind.clamp node.config }

def Form.clamped (form : Form) : Form := { form with config := form.kind.clamp form.config }

/-- What there is to see, with the number of outputs of every sequence brought within bounds. -/
def Summary.Node.clamped (seen : Summary.Node) : Summary.Node :=
  if seen.kind = "builtin" then { seen with config := Catalog.clampConfig seen.id seen.config }
  else seen

def Summary.clamped (seen : Summary) : Summary :=
  { seen with nodes := seen.nodes.map Summary.Node.clamped }

namespace Graph

/-- The graph with the number of outputs of every sequence brought within bounds. -/
def clamped (graph : Graph) : Graph := graph.mapNodes Node.clamped

variable {graph : Graph}

theorem node?_clamped (graph : Graph) (id : NodeId) :
    graph.clamped.node? id = (graph.node? id).map Node.clamped :=
  node?_mapNodes Node.clamped graph id

theorem input?_clamped (graph : Graph) (ref : InputRef) :
    graph.clamped.input? ref = graph.input? ref := by
  rw [input?, input?, node?_clamped]
  cases graph.node? ref.node <;> rfl

theorem output?_clamped (graph : Graph) (ref : OutputRef) :
    graph.clamped.output? ref = graph.output? ref := by
  rw [output?, output?, node?_clamped]
  cases graph.node? ref.node <;> rfl

theorem form?_clamped (graph : Graph) (id : NodeId) :
    graph.clamped.form? id = (graph.form? id).map Form.clamped := by
  rw [form?, form?, node?_clamped]
  cases graph.node? id <;> rfl

theorem live_clamped (graph : Graph) :
    graph.clamped.live = graph.live.map fun entry => (entry.1, entry.2.clamped) :=
  live_mapNodes Node.clamped graph

theorem ranks_clamped (graph : Graph) : graph.clamped.ranks = graph.ranks :=
  ranks_mapNodes Node.clamped graph

theorem HasKind.clamped {id : NodeId} {kind : NodeKind} (has : graph.HasKind id kind) :
    graph.clamped.HasKind id kind := by
  obtain ⟨form, hf, same⟩ := has
  exact ⟨form.clamped, by rw [form?_clamped, hf]; rfl, same⟩

theorem Fits.clamped {form : Form} (fits : graph.Fits Registry.builtin.Declares form) :
    graph.clamped.Fits Registry.builtin.Declares form.clamped := by
  obtain ⟨kind, config, ports⟩ := form
  have defined : graph.clamped.definedPorts kind = graph.definedPorts kind :=
    definedPorts_of_definitions rfl rfl kind
  cases kind with
  | builtin type =>
    obtain ⟨behavior, known, found, declared⟩ := fits
    exact ⟨behavior, known, found, ((Registry.builtin_clamped found config).1 known).trans declared⟩
  | call f | functionInput f | functionOutput f | construct s =>
    exact ⟨defined.trans fits.1, fits.2⟩

theorem WellFormed.clamped (formed : graph.WellFormed Registry.builtin.Declares) :
    graph.clamped.WellFormed Registry.builtin.Declares where
  wired := formed.wired.of_inputs (fun ref => (input?_clamped graph ref).trans Option.map_id'.symm)
    (output?_clamped graph) (fun _ _ => rfl) fun _ _ => rfl
  acyclic := by
    refine formed.acyclic.of_inputs fun ref input found _ => ?_
    rw [input?_clamped] at found
    exact ⟨input, found, rfl, fun _ mem => mem⟩
  insets := by
    refine formed.insets.of_inputs fun ref input found _ _ => ?_
    rw [input?_clamped] at found
    exact .inl ⟨input, found, rfl, rfl⟩
  declared := formed.declared.congr rfl rfl rfl
  fits id form found := by
    rw [form?_clamped, Option.map_eq_some_iff] at found
    obtain ⟨old, hold, rfl⟩ := found
    exact .inr (formed.fit hold).clamped
  owned :=
    { inputs := fun entry mem id own => (formed.owned.inputs entry mem id own).clamped
      outputs := fun entry mem id own => (formed.owned.outputs entry mem id own).clamped
      constructors := fun entry mem id own => (formed.owned.constructors entry mem id own).clamped }
  complete := formed.complete.congr rfl rfl

theorem Settled.clamped (settled : graph.Settled Registry.builtin) :
    graph.clamped.Settled Registry.builtin where
  fields := settled.fields
  parameters := settled.parameters
  builtins id form type found kind := by
    rw [form?_clamped, Option.map_eq_some_iff] at found
    obtain ⟨old, hold, rfl⟩ := found
    have kind : old.kind = .builtin type := kind
    obtain ⟨behavior, known, declared⟩ := settled.builtins id old type hold kind
    refine ⟨behavior, known, ?_⟩
    simp only [Form.clamped, kind, NodeKind.clamp]
    exact ((Registry.builtin_clamped known old.config).1 graph.schemas).trans declared

theorem NestedWithin.clamped {n : Nat} (nested : graph.NestedWithin n) :
    graph.clamped.NestedWithin n where
  fields := nested.fields
  parameters := nested.parameters
  insets ref input v found own := by
    rw [input?_clamped] at found
    exact nested.insets ref input v found own

theorem configBytes_clamped (node : Node) :
    configBytes Registry.builtin node.clamped = configBytes Registry.builtin node := by
  unfold configBytes
  simp only [Node.clamped]
  cases node.kind with
  | builtin type =>
    cases known : Registry.builtin.behavior? type with
    | none => simp only [known]
    | some behavior =>
      simp only [known]
      exact (Registry.builtin_clamped known node.config).2
  | _ => rfl

theorem record?_clamped (ranks : Array (Option Nat)) (node : Node) :
    graph.clamped.record? ranks Registry.builtin Format.current node.clamped =
      graph.record? ranks Registry.builtin Format.current node := by
  have named : graph.clamped.nameOf? node.clamped.kind = graph.nameOf? node.kind := rfl
  rw [record?, record?, named, configBytes_clamped]
  rfl

/-- The graph is written in the same bytes. -/
theorem encode_clamped {file : Bytes}
    (written : graph.encode Registry.builtin Format.current = .ok file) :
    graph.clamped.encode Registry.builtin Format.current = .ok file := by
  obtain ⟨fine, records, recorded, rfl⟩ := encode_eq_file_iff.1 written
  rw [fault?_current] at fine
  refine encode_eq_file_iff.2 ⟨(fault?_current graph.clamped).trans fine, records, ?_, rfl⟩
  rw [records_iff, live_clamped, ranks_clamped, List.forall₂_map_left_iff]
  exact (records_iff.1 recorded).imp fun entry record made => (record?_clamped ..).trans made

theorem items_clamped (graph : Graph) : graph.clamped.items Registry.builtin =
    (graph.items Registry.builtin).map fun item => (item.1.clamped, item.2) := by
  rw [items, items, live_clamped, ranks_clamped, List.filterMap_map, List.map_filterMap]
  refine List.filterMap_congr fun entry _ => ?_
  simp only [Function.comp_apply, record?_clamped, Option.map_map]
  rfl

theorem CountsFit.clamped (fit : graph.CountsFit Registry.builtin) :
    graph.clamped.CountsFit Registry.builtin where
  structs := fit.structs
  functions := fit.functions
  nodes := by
    rw [live_clamped, List.length_map]
    exact fit.nodes
  schemas := fit.schemas
  signatures := fit.signatures
  records := by
    rw [items_clamped, List.forall_mem_map]
    exact fit.records
  insets := by
    rw [items_clamped, List.forall_mem_map]
    exact fit.insets

private theorem any_clamped (places : Array (Option Node)) {test : Node → Bool}
    (same : ∀ node : Node, test node.clamped = test node) :
    (places.map (·.map Node.clamped)).any (fun place => place.any test) =
      places.any fun place => place.any test := by
  rw [Array.any_map]
  congr 1
  funext place
  cases place with
  | none => rfl
  | some node => exact same node

theorem functionInUse_clamped (graph : Graph) (f : FunctionId) :
    graph.clamped.functionInUse f = graph.functionInUse f := by
  exact any_clamped graph.arena fun _ => rfl

theorem structInUse_clamped (graph : Graph) (s : StructId) :
    graph.clamped.structInUse s = graph.structInUse s := by
  have lookup : graph.clamped.struct? s = graph.struct? s := rfl
  unfold structInUse
  rw [lookup]
  cases graph.struct? s with
  | none => rfl
  | some entry =>
    have test (node : Node) : (node.clamped.kind == .construct s ||
        node.clamped.mentions entry.schema.name) =
      (node.kind == .construct s || node.mentions entry.schema.name) := rfl
    dsimp only
    cases entry.boundary with
    | none =>
      dsimp only
      rw [clamped, mapNodes, any_clamped graph.arena test]
    | some boundary =>
      have others : (graph.arena.map (·.map Node.clamped)).setIfInBounds boundary.index none =
          (graph.arena.setIfInBounds boundary.index none).map (·.map Node.clamped) := by
        rw [Array.map_setIfInBounds]
        rfl
      dsimp only
      rw [clamped, mapNodes, others, any_clamped _ test]

theorem summaryOfNode_clamped (graph : Graph) (ranks : Array (Option Nat)) (index : Nat)
    (node : Node) : graph.clamped.summaryOfNode ranks index node.clamped =
      (graph.summaryOfNode ranks index node).clamped := by
  obtain ⟨kind, config, position, inputs, outputs⟩ := node
  cases kind <;> rfl

/-- A graph looks the same, but for the numbers of outputs. -/
theorem summary_clamped (graph : Graph) : graph.clamped.summary = graph.summary.clamped := by
  rw [summary, summary, Summary.clamped, Summary.mk.injEq]
  refine ⟨List.map_congr_left fun entry _ => ?_, List.map_congr_left fun entry _ => ?_, ?_⟩
  · rw [structInUse_clamped]
  · rw [functionInUse_clamped]
  · dsimp only
    rw [live_clamped, ranks_clamped, List.zipIdx_map, List.map_map, List.map_map]
    exact List.map_congr_left fun place _ => summaryOfNode_clamped ..

end Graph

/-- The configurations of a graph that files give are read back once all numbers of outputs are
within bounds. -/
theorem Format.Readable.configsReread {graph : Graph}
    (readable : Format.Readable Registry.builtin graph) :
    graph.clamped.ConfigsReread Registry.builtin := by
  intro id node mem type behavior kind known
  rw [Graph.live_clamped] at mem
  obtain ⟨⟨_, old⟩, live, same⟩ := List.mem_map.1 mem
  obtain ⟨rfl, rfl⟩ := Prod.mk.inj same
  have kind : old.kind = .builtin type := kind
  have form := Graph.form?_eq_of_node? (Graph.mem_live.1 live)
  obtain ⟨_, known', declared⟩ := readable.settled.builtins _ _ type form kind
  obtain rfl := Option.some.inj (known.symm.trans known')
  obtain ⟨_, given⟩ := readable.configs _ _ type behavior form kind known
  have reads := Registry.builtin_rereads_clamped known given declared
  simp only [Node.clamped, kind, NodeKind.clamp]
  exact reads

theorem Summary.Node.clamped_eq_self_iff {seen : Summary.Node} : seen.clamped = seen ↔
    (seen.kind = "builtin" → seen.id = Catalog.sequence.id →
      ∃ n, 1 ≤ n ∧ n ≤ 16 ∧ seen.config = Catalog.sequenceConfig n) := by
  obtain ⟨index, kind, id, position, config, inputs, outputs⟩ := seen
  dsimp only
  rw [← Catalog.clampConfig_eq_self_iff, Summary.Node.clamped]
  split <;> simp_all

theorem Summary.clamped_eq_self_iff {seen : Summary} : seen.clamped = seen ↔
    ∀ node ∈ seen.nodes, node.kind = "builtin" → node.id = Catalog.sequence.id →
      ∃ n, 1 ≤ n ∧ n ≤ 16 ∧ node.config = Catalog.sequenceConfig n := by
  obtain ⟨structs, functions, nodes⟩ := seen
  simp only [← Summary.Node.clamped_eq_self_iff]
  have nodes_id : nodes.map Summary.Node.clamped = nodes ↔
      nodes.map Summary.Node.clamped = nodes.map id := by rw [List.map_id]
  rw [Summary.clamped, Summary.mk.injEq, nodes_id, List.map_inj_left]
  exact ⟨fun same => same.2.2, fun same => ⟨rfl, rfl, same⟩⟩

end NodeScript
