import NodeScript.Proofs.Format.Gapped
import NodeScript.Proofs.Format.Loaded
import NodeScript.Proofs.Format.Nesting
import NodeScript.Proofs.Format.Renumbered

/-!
Graphs that are written and read again. Main statement: what there is to see of a graph is the same
afterwards, if structs are mentioned as they are declared and nothing is nested deeper than the
reader goes. `rereadBy_eq` says what another registry makes of the same records.
-/

set_option autoImplicit false
set_option relaxedAutoImplicit false

namespace NodeScript

open Relation Format NodeScript.Graph

variable {registry : Registry} {admits : Admits} {graph next : Graph}

namespace Graph

/-- The definitions of a graph without any nodes. -/
def definitions (graph : Graph) : Graph :=
  (empty.withStructs graph.schemas).withFunctions (graph.functions.map (·.signature))

theorem Declared.rereadSchemas (declared : graph.Declared) {schemas : List Schema}
    (read : schemas.foldlM rereadSchema graph = some next) : next.Declared := by
  induction schemas generalizing graph with
  | nil =>
    obtain rfl := Option.some.inj read
    exact declared
  | cons schema schemas ih =>
    rw [List.foldlM_cons] at read
    obtain ⟨middle, first, rest⟩ := Option.bind_eq_some_iff.1 read
    obtain ⟨fields, -, fresh, rfl⟩ := rereadSchema_eq_some_iff.1 first
    have later : (graph.withStruct ⟨schema.name, fields⟩).Declared := declared.withStruct fresh
    exact ih later rest

theorem Declared.rereadSignatures (declared : graph.Declared) {signatures : List Signature}
    (read : signatures.foldlM rereadSignature graph = some next) : next.Declared := by
  induction signatures generalizing graph with
  | nil =>
    obtain rfl := Option.some.inj read
    exact declared
  | cons signature signatures ih =>
    rw [List.foldlM_cons] at read
    obtain ⟨middle, first, rest⟩ := Option.bind_eq_some_iff.1 read
    obtain ⟨inputs, outputs, -, -, fresh, rfl⟩ := rereadSignature_eq_some_iff.1 first
    have later : (graph.withFunction ⟨signature.name, inputs, outputs⟩).Declared :=
      declared.withFunction fresh
    exact ih later rest

theorem withStructs_functions (graph : Graph) (schemas : List Schema) :
    (graph.withStructs schemas).functions = graph.functions ∧
      (graph.withStructs schemas).arena = graph.arena := by
  induction schemas generalizing graph with
  | nil => exact ⟨rfl, rfl⟩
  | cons schema schemas ih => exact ih (graph.withStruct schema)

theorem withFunctions_structs (graph : Graph) (signatures : List Signature) :
    (graph.withFunctions signatures).structs = graph.structs ∧
      (graph.withFunctions signatures).arena = graph.arena := by
  induction signatures generalizing graph with
  | nil => exact ⟨rfl, rfl⟩
  | cons signature signatures ih => exact ih (graph.withFunction signature)

theorem arena_definitions (graph : Graph) : graph.definitions.arena = #[] := by
  rw [definitions, (withFunctions_structs _ _).2, (withStructs_functions _ _).2]
  rfl

theorem Settled.rereadDefinitions (settled : graph.Settled registry) (declared : graph.Declared)
    (fine : graph.fault? current = none) (shallow : graph.NestedWithin maxNesting) :
    ∃ structs, graph.schemas.foldlM rereadSchema .empty = some structs ∧
      (graph.functions.map (·.signature)).foldlM rereadSignature structs = some graph.definitions ∧
      graph.SameDeclarations graph.definitions := by
  obtain ⟨-, ordered, -⟩ := fault?_eq_none fine
  have structs : graph.schemas.foldlM rereadSchema empty = some (empty.withStructs graph.schemas) :=
    rereadSchemas_eq (fun _ h => h) ordered
      (by simpa [schemas, empty, Function.comp_def] using declared.structNames)
      (fun entry he => settled.fields entry.schema (List.mem_map_of_mem he)) shallow.fields
  have known : (empty.withStructs graph.schemas).schemas = graph.schemas := by
    rw [schemas_withStructs]
    rfl
  have none : (empty.withStructs graph.schemas).functions = [] := (withStructs_functions _ _).1
  have functions : (graph.functions.map (·.signature)).foldlM rereadSignature
      (empty.withStructs graph.schemas) = some graph.definitions :=
    rereadSignatures_eq (by rw [none]; exact declared.functionNames)
      (by rw [known]; exact settled.parameters) shallow.parameters
  refine ⟨_, structs, functions,
    (declared_empty.rereadSchemas structs).rereadSignatures functions, ?_, ?_⟩
  · rw [definitions, signatures_withFunctions, none]
    rfl
  · rw [definitions, schemas, (withFunctions_structs _ _).1]
    exact known

end Graph

theorem Node.bare_bare (node : Node) : node.bare.bare = node.bare := by
  simp [Node.bare, Function.comp_def]

theorem Format.holding_bare (bare : ∀ id node, graph.node? id = some node → node.bare = node) :
    Holding graph [] graph := by
  have wires {ref : InputRef} {input : Input} (hi : graph.input? ref = some input) :
      input.wires = [] := by
    obtain ⟨node, hn, hi⟩ := Option.bind_eq_some_iff.1 hi
    rw [← bare _ node hn, Node.bare, List.getElem?_map, Option.map_eq_some_iff] at hi
    obtain ⟨old, -, rfl⟩ := hi
    rfl
  have targets {ref : OutputRef} {output : Output} (ho : graph.output? ref = some output) :
      output.targets = [] := by
    obtain ⟨node, hn, ho⟩ := Option.bind_eq_some_iff.1 ho
    rw [← bare _ node hn, Node.bare, List.getElem?_map, Option.map_eq_some_iff] at ho
    obtain ⟨old, -, rfl⟩ := ho
    rfl
  refine ⟨?_, fun id loop => ?_, rfl, rfl, rfl, fun _ => rfl, fun ref input hi => wires hi⟩
  · constructor
    · intro target input wire hi hw
      simp [wires hi] at hw
    · intro source output target ho ht
      simp [targets ho] at ht
    · intro target input hi
      simp [wires hi]
    · intro source output ho
      simp [targets ho]
    · intro target input hi _
      simp [wires hi]
    · intro source output ho _
      simp [targets ho]
  · obtain ⟨other, reads, -⟩ := TransGen.head'_iff.1 loop
    obtain ⟨slot, input, wire, hi, -, hw, -⟩ := reads_iff.1 reads
    simp [wires hi] at hw

theorem Graph.items_nodes (graph : Graph)
    (all : ∀ entry ∈ graph.live, (graph.record? graph.ranks registry current entry.2).isSome) :
    (graph.items registry).map (·.1) = graph.live.map (·.2) := by
  apply List.ext_getElem?
  intro i
  rw [List.getElem?_map, List.getElem?_map, items,
    getElem?_filterMap fun entry he => by simpa using all entry he]
  cases here : graph.live[i]? with
  | none => rfl
  | some entry =>
    obtain ⟨record, recorded⟩ := Option.isSome_iff_exists.1 (all entry (List.mem_of_getElem? here))
    simp [recorded]

theorem Graph.SameDefinitions.lookup (same : graph.SameDefinitions next) :
    (∀ f, next.signature? f = graph.signature? f) ∧ ∀ s, next.schemaAt? s = graph.schemaAt? s := by
  refine ⟨fun f => ?_, fun s => ?_⟩
  · rw [signature?, function?, same.1]
    rfl
  · rw [schemaAt?, struct?, same.2]
    rfl

/-- The nodes of a graph are read back at the places of their numbers, without wires. -/
theorem Format.mirrored_of_copied {copies : List Node}
    (all : ∀ entry ∈ graph.live, (graph.record? graph.ranks registry current entry.2).isSome)
    (same : graph.definitions.SameDefinitions next)
    (copied : List.Forall₂ (graph.Copied graph.definitions) ((graph.items registry).map (·.1))
      copies)
    (arena : next.arena.toList = copies.map some) :
    Mirrored graph next ∧ ∀ id node, next.node? id = some node → node.bare = node := by
  have place (id : NodeId) : next.node? id = copies[id.index]? := by
    rw [node?, ← Array.getElem?_toList, arena, List.getElem?_map]
    cases copies[id.index]? <;> rfl
  have nodes := graph.items_nodes all
  rw [nodes] at copied
  have length : copies.length = graph.live.length := by
    rw [← copied.length_eq, List.length_map]
  have copy (i : Nat) {id : NodeId} {node : Node} (number : graph.live[i]? = some (id, node)) :
      ∃ kind, graph.Alike graph.definitions node.kind kind ∧
        copies[i]? = some { node.bare with kind } := by
    have inside : i < copies.length := by
      rw [length]
      exact (List.getElem?_eq_some_iff.1 number).1
    have related := copied.get (by simpa [length] using inside) inside
    have here : (graph.live.map (·.2))[i]? = some node := by rw [List.getElem?_map, number]; rfl
    rw [List.get_eq_getElem, (List.getElem?_eq_some_iff.1 here).2] at related
    obtain ⟨kind, alike, same⟩ := related
    exact ⟨kind, alike, List.getElem?_eq_some_iff.2 ⟨inside, same⟩⟩
  refine ⟨⟨?_, fun i id node number => ?_⟩, fun id node found => ?_⟩
  · rw [← Array.length_toList, arena, List.length_map, length]
  · obtain ⟨kind, alike, found⟩ := copy i number
    refine ⟨kind, alike.congr same.lookup.1 same.lookup.2, ?_⟩
    rw [bare?, place, found, Option.map_some]
    exact congrArg some (congrArg (fun bare => { bare with kind }) node.bare_bare)
  · rw [place] at found
    have inside : id.index < graph.live.length := by
      rw [← length]
      exact (List.getElem?_eq_some_iff.1 found).1
    obtain ⟨kind, -, same⟩ := copy id.index (List.getElem?_eq_getElem inside)
    rw [same, Option.some.injEq] at found
    subst found
    exact congrArg (fun bare => { bare with kind }) (Node.bare_bare _)

def Format.Rewired (registry : Registry) (graph next : Graph) : Prop :=
  ∀ ref input, next.input? ref = some input →
    input.wires = wiresTo (wiresFrom 0 ((graph.items registry).map (·.2))) ref

/-- There is a node of each kind that a definition of the graph needs. -/
private theorem present_of_complete (formed : graph.WellFormed admits)
    (same : graph.SameDeclarations graph.definitions)
    (definitions : graph.definitions.SameDefinitions next) (mirrored : Mirrored graph next) :
    (∀ entry ∈ next.functions,
      next.Present (.functionInput entry.id) ∧ next.Present (.functionOutput entry.id)) ∧
    ∀ entry ∈ next.structs, next.Present (.construct entry.id) := by
  have exact {kind kind' : NodeKind} (alike : graph.Alike graph.definitions kind kind')
      (present : graph.Present kind) : next.Present kind' := by
    obtain ⟨id, has⟩ := present
    obtain ⟨node, hn, rfl⟩ := hasKind_iff.1 has
    obtain ⟨i, number⟩ := exists_number hn
    obtain ⟨other, alike', found⟩ := mirrored.form? number
    have back : graph.Alike graph.definitions node.kind other :=
      alike'.congr (fun f => (definitions.lookup.1 f).symm) fun s => (definitions.lookup.2 s).symm
    exact ⟨⟨i⟩, _, found, back.unique same.declared alike⟩
  rw [definitions.1, definitions.2]
  constructor
  · intro entry' he'
    have mem : entry'.signature ∈ graph.functions.map (·.signature) := by
      rw [← same.signatures]
      exact List.mem_map_of_mem he'
    obtain ⟨entry, he, equal⟩ := List.mem_map.1 mem
    have here := formed.declared.signature?_eq_some_iff.2 ⟨entry, he, rfl, equal⟩
    have there := same.declared.signature?_eq_some_iff.2 ⟨entry', he', rfl, rfl⟩
    obtain ⟨input, hinput⟩ := Option.isSome_iff_exists.1 (formed.complete.inputs entry he)
    obtain ⟨output, houtput⟩ := Option.isSome_iff_exists.1 (formed.complete.outputs entry he)
    exact ⟨exact (.functionInput here there) ⟨input, formed.owned.inputs entry he input hinput⟩,
      exact (.functionOutput here there) ⟨output, formed.owned.outputs entry he output houtput⟩⟩
  · intro entry' he'
    have mem : entry'.schema ∈ graph.schemas := by
      rw [← same.schemas]
      exact List.mem_map_of_mem he'
    obtain ⟨entry, he, equal⟩ := List.mem_map.1 mem
    have here := formed.declared.schemaAt?_eq_some_iff.2 ⟨entry, he, rfl, equal⟩
    have there := same.declared.schemaAt?_eq_some_iff.2 ⟨entry', he', rfl, rfl⟩
    obtain ⟨boundary, hb⟩ := Option.isSome_iff_exists.1 (formed.complete.constructors entry he)
    exact exact (.construct here there) ⟨boundary, formed.owned.constructors entry he boundary hb⟩

theorem Graph.record_withoutNodes (gone : List NodeId)
    (all : ∀ entry ∈ graph.live, (graph.record? graph.ranks registry current entry.2).isSome) :
    ∀ entry ∈ (graph.withoutNodes gone).live, ((graph.withoutNodes gone).record?
      (graph.withoutNodes gone).ranks registry current entry.2).isSome := by
  intro entry he
  rw [live_withoutNodes] at he
  obtain ⟨before, hbefore, rfl⟩ := List.mem_map.1 he
  have named := all before (List.mem_filter.1 hbefore).1
  rw [record?, Option.isSome_map] at named ⊢
  exact named

private theorem copied_withoutNodes {reader : Registry} {gone : List NodeId}
    (gapped : graph.Gapped reader gone)
    (all : ∀ entry ∈ graph.live, (graph.record? graph.ranks registry current entry.2).isSome)
    {copies : List Node} (copied : List.Forall₂ (graph.Copied next)
      (((graph.items registry).map (·.1)).filter fun node => !reader.lacks node) copies) :
    List.Forall₂ ((graph.withoutNodes gone).Copied next)
      (((graph.withoutNodes gone).items registry).map (·.1)) copies := by
  rw [graph.items_nodes all, List.filter_map, List.forall₂_map_left_iff] at copied
  rw [items_nodes _ (record_withoutNodes gone all), live_withoutNodes, gapped.filter_live,
    List.map_map, List.forall₂_map_left_iff]
  refine copied.imp fun entry copy ⟨kind, alike, same⟩ => ?_
  have back : next.Alike (graph.withoutNodes gone) kind entry.2.kind :=
    alike.symm.congr (fun _ => rfl) fun _ => rfl
  exact ⟨kind, back.symm, by rw [same, Function.comp_apply, Node.bare_restrictEnds]⟩

private theorem reread_nodes (formed : graph.WellFormed admits) (settled : graph.Settled registry)
    (shallow : graph.NestedWithin maxNesting)
    (all : ∀ entry ∈ graph.live, (graph.record? graph.ranks registry current entry.2).isSome)
    (same : graph.SameDeclarations graph.definitions) {reader : Registry}
    (within : reader.Within registry) {gone : List NodeId} (gapped : graph.Gapped reader gone) :
    ∃ loading : Loading, (graph.items registry).foldlM (Loading.reread reader)
        { graph := graph.definitions } = some loading ∧
      Mirrored (graph.withoutNodes gone) loading.graph ∧
      (∀ id node, loading.graph.node? id = some node → node.bare = node) ∧
      graph.definitions.SameDefinitions loading.graph ∧
      loading.placed.toList = places reader 0 (graph.live.map (·.2)) ∧
      loading.pending.toList = graph.wires.filterMap (asPending? graph.ranks) := by
  let start : Loading := { graph := graph.definitions }
  have defined : graph.definitions.SameDefinitions start.graph := ⟨rfl, rfl⟩
  obtain ⟨loading, copies, read, copied, definitions, arena, placed, pending⟩ :=
    rereadNodes_eq formed settled same within (fun _ h => h)
      ((nested_items_iff all).2 shallow.insets) defined
  rw [arena_definitions] at arena placed
  rw [graph.items_nodes all] at placed
  obtain ⟨mirrored, bare⟩ := mirrored_of_copied (record_withoutNodes gone all) definitions
    (copied_withoutNodes gapped all copied) arena
  exact ⟨loading, read, mirrored, bare, definitions, placed, pending.trans (wiresFrom_items all)⟩

/-- The nodes of a graph whose types are known are read back with the wires among them, and no
others are put in. -/
theorem Graph.WellFormed.rereadBy_eq (formed : graph.WellFormed admits)
    (settled : graph.Settled registry) (shallow : graph.NestedWithin maxNesting) {file : Bytes}
    (written : graph.encode registry current = .ok file) {reader : Registry}
    (within : reader.Within registry) {gone : List NodeId} (gapped : graph.Gapped reader gone)
    (left : (graph.withoutNodes gone).WellFormed admits) :
    ∃ next, graph.rereadBy reader registry = some (next,
        graph.live.countP (fun entry => gone.contains entry.1),
        graph.wires.countP fun (target, wire) =>
          gone.contains wire.source.node || gone.contains target.node) ∧
      Mirrored (graph.withoutNodes gone) next ∧ Rewired registry (graph.withoutNodes gone) next ∧
      next.functions.map (·.signature) = graph.functions.map (·.signature) ∧
      next.schemas = graph.schemas := by
  obtain ⟨fine, records, recorded, -⟩ := encode_eq_ok written
  obtain ⟨-, all⟩ := records_eq_ok recorded
  have all' := record_withoutNodes gone all
  obtain ⟨structs, first, second, same⟩ :=
    settled.rereadDefinitions formed.declared fine shallow
  have same' : (graph.withoutNodes gone).SameDeclarations (graph.withoutNodes gone).definitions :=
    ⟨same.declared, same.signatures, same.schemas⟩
  obtain ⟨loading, third, mirrored, bare, definitions, placed, pending⟩ :=
    reread_nodes formed settled shallow all same within gapped
  have connectable := mirrored.connectable left.wired left.acyclic all'
  have table := gapped.replaced_wires placed formed.wired
  rw [wiresFrom_items all', ← table] at connectable
  obtain ⟨linked, connected, holding⟩ := connectable.connectAll (holding_bare bare)
  rw [gapped.count_wires placed formed.wired] at connected
  have kept : loading.graph.SameDefinitions linked := ⟨holding.functions, holding.structs⟩
  have mirrored := mirrored.congr holding.size kept.lookup.1 kept.lookup.2 holding.bare
  have present := present_of_complete left same' (definitions.trans kept) mirrored
  obtain ⟨next, completed, upkeep, arena'⟩ := linked.completeDefinitions_isOk
  have stays := arena' present.1 present.2
  have nodes (id : NodeId) : next.node? id = linked.node? id := by rw [node?, stays, node?]
  refine ⟨next, ?_, ?_, ?_, ?_, ?_⟩
  · rw [rereadBy, first]
    simp only [Option.bind_eq_bind, Option.bind_some, second]
    rw [third]
    simp only [Option.bind_some, ← Array.foldl_toList, pending, connected, completed,
      gapped.count_gaps placed]
  · refine mirrored.congr (by rw [stays]) upkeep.signature? upkeep.schemaAt? fun id => ?_
    rw [bare?, nodes, bare?]
  · intro ref input hi
    rw [input?, nodes] at hi
    rw [holding.wires ref input hi, wiresFrom_items all', table]
  · have signatures := congrArg (List.map Prod.snd) upkeep.functions
    rw [List.map_map, List.map_map] at signatures
    exact signatures.trans (by rw [(definitions.trans kept).1]; exact same.signatures)
  · have schemas := congrArg (List.map Prod.snd) upkeep.structs
    rw [List.map_map, List.map_map] at schemas
    refine schemas.trans ?_
    rw [(definitions.trans kept).2]
    exact same.schemas

theorem Graph.WellFormed.reread_eq (formed : graph.WellFormed admits)
    (settled : graph.Settled registry) (shallow : graph.NestedWithin maxNesting) {file : Bytes}
    (written : graph.encode registry current = .ok file) :
    ∃ next, graph.reread registry = some (next, 0, 0) ∧ Mirrored graph next ∧
      Rewired registry graph next ∧
      next.functions.map (·.signature) = graph.functions.map (·.signature) ∧
      next.schemas = graph.schemas := by
  have gapped : graph.Gapped registry [] := by
    intro id node found
    rw [List.contains_nil, eq_comm, Registry.lacks]
    split
    · rename_i type kind
      obtain ⟨behavior, known, -⟩ := settled.builtins id node.form type
        (form?_eq_of_node? found) kind
      rw [known]
      rfl
    · rfl
  have whole := formed.rereadBy_eq settled shallow written registry.within_refl gapped
    (by rw [graph.withoutNodes_nil]; exact formed)
  simpa [graph.withoutNodes_nil, reread] using whole

def Graph.wiresOf {α : Type} (graph : Graph) (make : Nat → Nat → List Position → α)
    (input : Input) : List α :=
  numbered graph.ranks (fun source wire => make source wire.source.slot wire.relays) input

/-- A node looks like another one, but for its address and those of definitions and of the nodes
that it is wired to. -/
structure Format.Resembles (graph next : Graph) (node copy : Node) : Prop where
  kind : graph.Alike next node.kind copy.kind
  position : copy.position = node.position
  config : copy.config = node.config
  inputs : ∀ {α : Type} (make : Nat → Nat → List Position → α),
    copy.inputs.map (fun input => (input.port, input.inset, next.wiresOf make input)) =
      node.inputs.map fun input => (input.port, input.inset, graph.wiresOf make input)
  outputs : copy.outputs.map (·.port) = node.outputs.map (·.port)

private theorem wiresOf_eq {α : Type} (make : Nat → Nat → List Position → α) {input copy : Input}
    (mirrored : Mirrored graph next)
    (wires : copy.wires = numbered graph.ranks
      (fun source wire => ⟨⟨⟨source⟩, wire.source.slot⟩, wire.relays⟩) input) :
    next.wiresOf make copy = graph.wiresOf make input := by
  unfold wiresOf
  rw [numbered, wires, numbered, List.filterMap_filterMap, numbered]
  refine List.filterMap_congr fun wire _ => ?_
  cases rank : graph.ranks[wire.source.node.index]?.join with
  | none => rfl
  | some i =>
    obtain ⟨node, number⟩ := ranks_eq_some_iff.1 rank
    have inside : i < next.arena.size := by
      rw [mirrored.size]
      exact (List.getElem?_eq_some_iff.1 number).1
    simp [mirrored.full.ranks_eq inside]

theorem Format.Rewired.resembles
    (all : ∀ entry ∈ graph.live, (graph.record? graph.ranks registry current entry.2).isSome)
    (mirrored : Mirrored graph next) (rewired : Rewired registry graph next) {i : Nat}
    {id : NodeId} {node copy : Node} (number : graph.live[i]? = some (id, node))
    (found : next.node? ⟨i⟩ = some copy) : Resembles graph next node copy := by
  obtain ⟨kind, alike, bare⟩ := mirrored.node i id node number
  rw [bare?, found, Option.map_some, Option.some.injEq] at bare
  simp only [Node.bare, Node.mk.injEq] at bare
  obtain ⟨rfl, position, config, inputs, outputs⟩ := bare
  refine ⟨alike, position, config, fun make => ?_, ?_⟩
  · apply List.ext_getElem?
    intro slot
    have both := congrArg (·[slot]?) inputs
    simp only [List.getElem?_map] at both ⊢
    cases here : node.inputs[slot]? with
    | none => simpa [here] using both
    | some input =>
      obtain ⟨input', there, same⟩ : ∃ input', copy.inputs[slot]? = some input' ∧
          ({ input' with wires := [] } : Input) = { input with wires := [] } := by
        simpa [here] using both
      have wires := wiresOf_eq make mirrored ((rewired ⟨⟨i⟩, slot⟩ input'
        (by rw [input?, found]; exact there)).trans (wiresTo_eq all number here))
      simp only [Input.mk.injEq, true_and] at same
      rw [there, Option.map_some, Option.map_some, same.1, same.2, wires]
  · have ports := congrArg (List.map fun output : Output => output.port) outputs
    simpa [Function.comp_def] using ports

theorem Format.Resembles.summaryOfNode_eq {node copy : Node}
    (resembles : Resembles graph next node copy) (i : Nat) :
    next.summaryOfNode next.ranks i copy = graph.summaryOfNode graph.ranks i node := by
  have inputs := congrArg (List.map fun (port, inset, wires) =>
    Summary.Input.mk port.name port.type.displayName inset wires)
    (resembles.inputs Summary.Wire.mk)
  have outputs := congrArg (List.map Summary.Entry.ofPort) resembles.outputs
  rw [List.map_map, List.map_map] at inputs outputs
  simp only [summaryOfNode, resembles.kind.word, resembles.kind.nameOf?, resembles.position,
    resembles.config, Summary.Node.mk.injEq, true_and]
  exact ⟨inputs, outputs⟩

theorem map_eq_map {α β κ γ : Type} {key : α → κ} {key' : β → κ} {view : α → γ}
    {view' : β → γ} {items : List α} {items' : List β} (same : items.map key = items'.map key')
    (each : ∀ a ∈ items, ∀ b ∈ items', key a = key' b → view a = view' b) :
    items.map view = items'.map view' := by
  induction items generalizing items' with
  | nil =>
    rw [List.map_nil, eq_comm, List.map_eq_nil_iff] at same
    rw [same, List.map_nil, List.map_nil]
  | cons a items ih =>
    cases items' with
    | nil => simp at same
    | cons b items' =>
      rw [List.map_cons, List.map_cons, List.cons.injEq] at same
      rw [List.map_cons, List.map_cons, each a List.mem_cons_self b List.mem_cons_self same.1,
        ih same.2 fun a ha b hb => each a (List.mem_cons_of_mem _ ha) b (List.mem_cons_of_mem _ hb)]

theorem Format.Rewired.summary_eq {admits' : Admits}
    (all : ∀ entry ∈ graph.live, (graph.record? graph.ranks registry current entry.2).isSome)
    (mirrored : Mirrored graph next) (rewired : Rewired registry graph next)
    (signatures : next.functions.map (·.signature) = graph.functions.map (·.signature))
    (schemas : next.schemas = graph.schemas) (formed : graph.WellFormed admits)
    (formed' : next.WellFormed admits') : next.summary = graph.summary := by
  rw [summary, summary, Summary.mk.injEq]
  refine ⟨map_eq_map schemas fun entry' he' entry he same => ?_,
    map_eq_map signatures fun entry' he' entry he same => ?_, ?_⟩
  · have here := formed.declared.schemaAt?_eq_some_iff.2 ⟨entry, he, rfl, rfl⟩
    have there := formed'.declared.schemaAt?_eq_some_iff.2 ⟨entry', he', rfl, same⟩
    rw [mirrored.structInUse_eq formed formed' signatures schemas here there, same]
  · have here := formed.declared.signature?_eq_some_iff.2 ⟨entry, he, rfl, rfl⟩
    have there := formed'.declared.signature?_eq_some_iff.2 ⟨entry', he', rfl, same⟩
    rw [mirrored.functionInUse_eq formed.declared formed'.declared here there, same]
  · apply List.ext_getElem?
    intro i
    rw [List.getElem?_map, List.getElem?_map, List.getElem?_zipIdx, List.getElem?_zipIdx,
      mirrored.full.live_eq]
    cases number : graph.live[i]? with
    | none =>
      have outside : next.arena.size ≤ i := by
        rw [mirrored.size]
        exact List.getElem?_eq_none_iff.1 number
      rw [node?_eq_none_of_size_le outside]
      rfl
    | some entry =>
      have inside : i < next.arena.size := by
        rw [mirrored.size]
        exact (List.getElem?_eq_some_iff.1 number).1
      obtain ⟨copy, found⟩ := Option.isSome_iff_exists.1 (mirrored.full i inside)
      rw [found]
      simpa using (rewired.resembles all mirrored number found).summaryOfNode_eq i

/-- A graph whose structs are mentioned as they are declared looks the same after it is written and
read. -/
theorem Reached.round_trip {file : Bytes}
    (reached : Reached (· = .empty) (Edit.Leads (· = Registry.builtin)
      fun graph edit => edit.IsGuarded graph ∧ edit.IsCurrent graph) graph)
    (fit : graph.CountsFit Registry.builtin) (shallow : graph.NestedWithin 64)
    (written : graph.encode Registry.builtin current = .ok file) :
    ∃ loaded, decode Registry.builtin file = .ok loaded ∧ loaded.version = 4 ∧
      loaded.droppedNodes = 0 ∧ loaded.droppedWires = 0 ∧
      loaded.graph.summary = graph.summary := by
  obtain ⟨formed, settled⟩ := reached.settled Registry.builtin_steady fun _ h => h
  obtain ⟨next, reread, mirrored, rewired, signatures, schemas⟩ :=
    formed.reread_eq settled shallow written
  have decoded := (decode_encode written formed.configsReread fit).1 _ reread
  obtain ⟨-, records, recorded, -⟩ := encode_eq_ok written
  exact ⟨_, decoded, rfl, rfl, rfl, rewired.summary_eq
    (records_eq_ok recorded).2 mirrored signatures
    schemas formed (decode_wellFormed decoded)⟩

def Edit.branching : List Edit := [
  .addBuiltin "event/On" (.obj [("event", .str "go")]) .zero,
  .addBuiltin "flow/Branch" .null .zero,
  .connect ⟨⟨0⟩, 0⟩ ⟨⟨1⟩, 0⟩ [.zero],
  .setInset ⟨⟨1⟩, 1⟩ (some (.boolean true))]

theorem Edit.reached_branching {graph : Graph}
    (built : Edit.branching.foldlM (Edit.apply Registry.builtin) .empty = .ok graph) :
    Reached (· = .empty) (Edit.Leads (· = Registry.builtin)
      fun graph edit => edit.IsGuarded graph ∧ edit.IsCurrent graph) graph := by
  refine Reached.foldlM rfl (.first rfl) (fun edit he graph => ?_) built
  simp only [Edit.branching, List.mem_cons, List.not_mem_nil, or_false] at he
  rcases he with rfl | rfl | rfl | rfl <;> exact ⟨trivial, trivial⟩

theorem branching_round_trip : ∃ graph file loaded,
    Edit.branching.foldlM (Edit.apply Registry.builtin) .empty = .ok graph ∧
      graph.wireCount = 1 ∧ graph.encode Registry.builtin current = .ok file ∧
      decode Registry.builtin file = .ok loaded ∧ loaded.graph.summary = graph.summary := by
  have facts : ∃ graph ∈ (Edit.branching.foldlM (Edit.apply Registry.builtin) .empty).toOption,
      graph.wireCount = 1 ∧ (graph.encode Registry.builtin current).toOption.isSome ∧
        graph.CountsFit Registry.builtin ∧ graph.NestedWithin 64 := by decide +kernel
  obtain ⟨graph, built, one, written, fit, shallow⟩ := facts
  have built := Accepted.toOption_eq_some_iff.1 built
  have reached := Edit.reached_branching built
  obtain ⟨file, written⟩ := Option.isSome_iff_exists.1 written
  have written := Accepted.toOption_eq_some_iff.1 written
  obtain ⟨loaded, decoded, -, -, -, same⟩ := reached.round_trip fit shallow written
  exact ⟨graph, file, loaded, built, one, written, decoded, same⟩

end NodeScript
