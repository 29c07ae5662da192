import NodeScript.Proofs.Graph.Edit
import NodeScript.Proofs.Graph.Usage

/-!
What a struct leaves behind that is changed or removed while it is not in use. Its constructor is
taken out with its wires, whatever they lead to, and all other nodes stay. Main statements:
`WellFormed.vacated_removeStruct` and `WellFormed.vacated_redefineStruct`.
-/

set_option autoImplicit false
set_option relaxedAutoImplicit false

namespace NodeScript.Graph

variable {admits : Admits} {graph next : Graph}

/-- The graph without the wires of a node. -/
def cut (graph : Graph) (id : NodeId) : Graph := graph.restrict (Keep.apart id)

/-- A constructor is taken out with its wires. New nodes are constructors, and what the nodes that
are left were made from stays. -/
structure Vacated (graph next : Graph) (boundary : NodeId) : Prop where
  nodes : ∀ id, id ≠ boundary → (graph.node? id).isSome →
    next.node? id = (graph.cut boundary).node? id
  others : ∀ id form, next.form? id = some form →
    id ≠ boundary ∧ (graph.node? id).isSome ∨ ∃ s, form.kind = .construct s
  functions : next.functions = graph.functions
  schemas : ∀ id s schema, id ≠ boundary → graph.HasKind id (.construct s) →
    graph.schemaAt? s = some schema → next.schemaAt? s = some schema

theorem WellFormed.only_constructor (formed : graph.WellFormed admits) {s : StructId}
    {entry : StructEntry} (found : graph.struct? s = some entry)
    (unused : graph.structInUse s = false) :
    ∃ boundary, entry.boundary = some boundary ∧ graph.HasKind boundary (.construct s) ∧
      ∀ id, graph.HasKind id (.construct s) → id = boundary := by
  obtain ⟨mem, rfl⟩ := formed.declared.struct?_iff.1 found
  obtain ⟨boundary, hb⟩ := Option.isSome_iff_exists.1 (formed.complete.constructors entry mem)
  have own := formed.owned.constructors entry mem boundary hb
  refine ⟨boundary, hb, own, fun id has => Classical.byContradiction fun apart => ?_⟩
  have schema : graph.schemaAt? entry.id = some entry.schema := by rw [schemaAt?, found]; rfl
  rw [(formed.structInUse_iff schema).2 (.inr (.inl ⟨id, boundary, apart, has, own⟩))] at unused
  simp at unused

theorem nodesOfKind_eq_singleton {kind : NodeKind} {id : NodeId} (has : graph.HasKind id kind)
    (only : ∀ other, graph.HasKind other kind → other = id) :
    graph.nodesOfKind (· == kind) = [id] := by
  have mem (other : NodeId) : other ∈ graph.nodesOfKind (· == kind) ↔ other = id := by
    rw [mem_nodesOfKind]
    constructor
    · rintro ⟨form, hf, hk⟩
      exact only other ⟨form, hf, by simpa using hk⟩
    · rintro rfl
      obtain ⟨form, hf, hk⟩ := has
      exact ⟨form, hf, by simpa using hk⟩
  have nodup := graph.nodesOfKind_nodup (· == kind)
  generalize graph.nodesOfKind (· == kind) = ids at mem nodup
  rcases ids with _ | ⟨a, _ | ⟨b, ids⟩⟩
  · simpa using mem id
  · rw [(mem a).1 (by simp)]
  · rw [(mem a).1 (by simp), (mem b).1 (by simp)] at nodup
    simp at nodup

private theorem node?_detached (graph : Graph) {boundary id : NodeId} (apart : id ≠ boundary) :
    ((graph.restrict (Keep.apart boundary)).clear boundary).node? id =
      (graph.restrict (Keep.apart boundary)).node? id := by
  rw [node?_clear, if_neg apart]

private theorem isSome_of_node?_detached {boundary id : NodeId} {node : Node}
    (found : ((graph.restrict (Keep.apart boundary)).clear boundary).node? id = some node) :
    id ≠ boundary ∧ (graph.node? id).isSome := by
  rw [node?_clear] at found
  split at found
  · simp at found
  · rw [restrict, node?_restrictEnds, Option.map_eq_some_iff] at found
    obtain ⟨before, here, -⟩ := found
    exact ⟨‹_›, Option.isSome_of_eq_some here⟩

theorem WellFormed.vacated_removeStruct (formed : graph.WellFormed admits) {s : StructId}
    {entry : StructEntry} (found : graph.struct? s = some entry)
    (unused : graph.structInUse s = false) :
    ∃ boundary, graph.HasKind boundary (.construct s) ∧
      graph.Vacated (graph.removeStruct s).2 boundary := by
  obtain ⟨boundary, -, own, only⟩ := formed.only_constructor found unused
  have later := (formed.removeStruct s).declared
  have sound := formed.withoutStruct s
  have removed : (graph.removeStruct s).2 =
      ((graph.withoutStruct s).restrict (Keep.apart boundary)).clear boundary := by
    obtain ⟨node, here, -⟩ := hasKind_iff.1 own
    rw [Graph.removeStruct, found]
    dsimp only
    rw [nodesOfKind_eq_singleton own only]
    show (graph.withoutStruct s).detach boundary = _
    rw [sound.wired.detach_eq, if_pos]
    exact Option.isSome_of_eq_some here
  refine ⟨boundary, own, ?_⟩
  rw [removed] at later ⊢
  refine ⟨fun id apart _ => node?_detached _ apart, fun id form hf => .inl ?_, rfl,
    fun id s' schema apart has known => ?_⟩
  · obtain ⟨node, here, -⟩ := node?_of_form? hf
    exact isSome_of_node?_detached here
  · obtain ⟨other, mem, rfl, rfl⟩ := formed.declared.schemaAt?_eq_some_iff.1 known
    refine later.schemaAt?_eq_some_iff.2 ⟨other, mem_withoutStruct.2 ⟨mem, ?_⟩, rfl, rfl⟩
    rintro rfl
    exact apart (only id has)

/-- Definitions that lack no node are given none. -/
theorem Complete.completeDefinitions (complete : graph.Complete) :
    graph.completeDefinitions = .ok graph := by
  have functions (f : FunctionId) : graph.completeFunction f = .ok graph := by
    unfold Graph.completeFunction
    split
    · rfl
    · rename_i entry found
      have mem := List.mem_of_find?_eq_some found
      have input : entry.input.isNone = false := by simp [complete.inputs entry mem]
      have output : entry.output.isNone = false := by simp [complete.outputs entry mem]
      rw [input, output]
      rfl
  have structs (s : StructId) : graph.completeStruct s = .ok graph := by
    unfold Graph.completeStruct
    split
    · rfl
    · rename_i entry found
      rw [if_pos (complete.constructors entry (List.mem_of_find?_eq_some found))]
  have still {ι : Type} (step : Graph → ι → Except GraphError Graph)
      (same : ∀ a, step graph a = .ok graph) (items : List ι) :
      items.foldlM step graph = .ok graph := by
    induction items with
    | nil => rfl
    | cons a items ih => rw [List.foldlM_cons, same]; exact ih
  rw [Graph.completeDefinitions, still _ functions]
  exact still _ structs _

private theorem replaceConstructor_eq_ok {old : StructEntry} {s : StructId} {boundary : NodeId}
    (wired : graph.Wired) (here : (graph.node? boundary).isSome)
    (own : old.boundary = some boundary)
    (accepted : graph.replaceConstructor old s boundary = .ok next) :
    ∃ fresh, fresh.kind = .construct s ∧
      (∀ id, next.node? id = if id = ⟨graph.arena.size⟩ then some fresh
        else ((graph.restrict (Keep.apart boundary)).clear boundary).node? id) ∧
      next.functions = graph.functions ∧
      next.structs = (graph.modifyStruct s fun entry =>
        { entry with boundary := some ⟨graph.arena.size⟩ }).structs := by
  obtain ⟨node, hn⟩ := Option.isSome_iff_exists.1 here
  unfold Graph.replaceConstructor at accepted
  rw [wired.detach?_eq, hn] at accepted
  obtain ⟨⟨fresh, middle⟩, added, changed⟩ := Accepted.bind_iff.1 accepted
  obtain ⟨ports, -, rfl, rfl⟩ := addDefined_eq_ok_iff.1 added
  obtain rfl := Except.ok.inj changed
  refine ⟨.ofPorts (.construct s) .null ports node.position, rfl, fun id => ?_, rfl, ?_⟩
  · refine (node?_push _ _ id).trans ?_
    rw [size_clear, restrict, size_restrictEnds]
  · simp only [own, if_true, size_clear, restrict, size_restrictEnds]
    rfl

private theorem Complete.replacedConstructor (complete : graph.Complete) {s : StructId}
    {schema : Schema} {boundary : NodeId} (functions : next.functions = graph.functions)
    (structs : next.structs = ((graph.redeclareStruct s schema).modifyStruct ⟨graph.nextDefinition⟩
      fun entry => { entry with boundary := some boundary }).structs) : next.Complete where
  inputs := by
    rw [functions]
    exact complete.inputs
  outputs := by
    rw [functions]
    exact complete.outputs
  constructors other mem := by
    rw [structs] at mem
    obtain ⟨before, declared, rfl⟩ := List.mem_map.1 mem
    split
    · rfl
    · rcases mem_redeclareStruct declared with rfl | ⟨declared, -⟩
      · exact absurd rfl ‹_›
      · exact complete.constructors before declared

private theorem Declared.mem_replacedConstructor (declared : graph.Declared) {s : StructId}
    {schema : Schema} {boundary : NodeId} {other : StructEntry} (mem : other ∈ graph.structs)
    (differs : other.id ≠ s) : other ∈ ((graph.redeclareStruct s schema).modifyStruct
      ⟨graph.nextDefinition⟩ fun entry => { entry with boundary := some boundary }).structs := by
  refine List.mem_map.2 ⟨other, List.mem_map.2 ⟨other, mem, if_neg differs⟩, if_neg fun same => ?_⟩
  have older := declared.structsOlder other mem
  rw [same] at older
  exact Nat.lt_irrefl _ older

theorem WellFormed.vacated_redefineStruct (formed : graph.WellFormed admits) {s s' : StructId}
    {entry : StructEntry} {schema : Schema} (found : graph.struct? s = some entry)
    (unused : graph.structInUse s = false)
    (accepted : graph.redefineStruct s schema = .ok (some (s', next))) :
    ∃ boundary, graph.HasKind boundary (.construct s) ∧ graph.Vacated next boundary := by
  obtain ⟨boundary, hb, own, only⟩ := formed.only_constructor found unused
  have later := (formed.redefineStruct accepted).declared
  obtain ⟨old, middle, last, found', rfl, free, -, replaced, completed, rfl⟩ :=
    redefineStruct_eq_some accepted
  obtain rfl : old = entry := Option.some.inj (found'.symm.trans found)
  have here : ((graph.redeclareStruct s schema).node? boundary).isSome := by
    obtain ⟨node, hn, -⟩ := hasKind_iff.1 own
    exact Option.isSome_of_eq_some hn
  rw [nodesOfKind_eq_singleton own only] at replaced
  obtain ⟨placed, replacing, same⟩ := Accepted.bind_iff.1 replaced
  obtain rfl : middle = placed := (Except.ok.inj same).symm
  obtain ⟨fresh, kind, nodes, functions, structs⟩ :=
    replaceConstructor_eq_ok (formed.redeclareStruct free).wired here hb replacing
  have complete : middle.Complete := formed.complete.replacedConstructor functions structs
  obtain rfl : middle = last := Except.ok.inj (complete.completeDefinitions.symm.trans completed)
  refine ⟨boundary, own, fun id apart present => ?_, fun id form hf => ?_, functions,
    fun id s' schema' apart has known => ?_⟩
  · have old : id ≠ ⟨graph.arena.size⟩ := by
      rintro rfl
      simp [node?_eq_none_of_size_le] at present
    exact (nodes id).trans ((if_neg old).trans (node?_detached _ apart))
  · obtain ⟨node, hn, rfl⟩ := node?_of_form? hf
    have hn' := (nodes id).symm.trans hn
    split at hn'
    · obtain rfl := Option.some.inj hn'
      exact .inr ⟨_, kind⟩
    · exact .inl (isSome_of_node?_detached hn')
  · obtain ⟨other, mem, rfl, rfl⟩ := formed.declared.schemaAt?_eq_some_iff.1 known
    have differs : other.id ≠ s := by
      rintro rfl
      exact apart (only id has)
    refine later.schemaAt?_eq_some_iff.2 ⟨other, (inOrder_perm _).mem_iff.2 ?_, rfl, rfl⟩
    rw [structs]
    exact formed.declared.mem_replacedConstructor mem differs

end NodeScript.Graph
