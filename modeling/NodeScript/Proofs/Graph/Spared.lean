import NodeScript.Proofs.Graph.Abandoned

/-!
Graphs without some of their nodes. The others keep their places, and their wires among each other.
Main statements: removing nodes one after the other leads to such a graph
(`WellFormed.foldlM_remove`), and what is left of the nodes and of the wires is a filter of both
(`live_withoutNodes`, `wires_withoutNodes`).
-/

set_option autoImplicit false
set_option relaxedAutoImplicit false

namespace NodeScript.Graph

variable {registry : Registry} {admits : Admits} {graph : Graph} {gone : List NodeId} {id : NodeId}

def withoutNodes (gone : List NodeId) (graph : Graph) : Graph :=
  { graph with arena := graph.arena.mapIdx fun index place =>
      if gone.contains ⟨index⟩ then none
      else place.map (Node.restrictEnds (Keep.off gone) (Keep.off gone) ⟨index⟩) }

theorem node?_withoutNodes (gone : List NodeId) (graph : Graph) (id : NodeId) :
    (graph.withoutNodes gone).node? id = if gone.contains id then none
      else (graph.node? id).map (Node.restrictEnds (Keep.off gone) (Keep.off gone) id) := by
  obtain ⟨index⟩ := id
  rw [node?, node?, withoutNodes, Array.getElem?_mapIdx]
  rcases graph.arena[index]? with _ | _ | node <;> simp

theorem withoutNodes_nil (graph : Graph) : graph.withoutNodes [] = graph := by
  have same : graph.restrict (Keep.off []) = graph := by
    rw [Keep.off_nil, restrict, restrictEnds_all]
  conv_rhs => rw [← same]
  refine ext_node? (by simp [withoutNodes, restrict]) (fun id => ?_) rfl rfl rfl
  rw [node?_withoutNodes, restrict, node?_restrictEnds]
  rfl

theorem clear_withoutNodes (gone : List NodeId) (graph : Graph) (id : NodeId) :
    ((graph.withoutNodes gone).restrict (Keep.apart id)).clear id =
      graph.withoutNodes (gone ++ [id]) := by
  refine ext_node? (by simp [withoutNodes, restrict]) (fun other => ?_) rfl rfl rfl
  rw [node?_clear, restrict, node?_restrictEnds, node?_withoutNodes, node?_withoutNodes]
  by_cases last : other = id
  · simp [last]
  · have same : (gone ++ [id]).contains other = gone.contains other := by simp [last]
    rw [if_neg last, same]
    split
    · rfl
    · rw [Option.map_map]
      congr 1
      funext node
      rw [Function.comp_apply, Node.restrictEnds_restrictEnds, Keep.both_off]

theorem WellFormed.owns_builtin (formed : graph.WellFormed admits) {type : String}
    (has : graph.HasKind id (.builtin type)) : graph.owns id = false := by
  simp only [owns, Bool.or_eq_false_iff, List.any_eq_false, Bool.or_eq_true, beq_iff_eq, not_or]
  refine ⟨fun entry he => ⟨fun own => ?_, fun own => ?_⟩, fun entry he own => ?_⟩
  · simpa using has.unique (formed.owned.inputs entry he id own)
  · simpa using has.unique (formed.owned.outputs entry he id own)
  · simpa using has.unique (formed.owned.constructors entry he id own)

theorem hasKind_withoutNodes {kind : NodeKind} (has : graph.HasKind id kind)
    (stays : id ∉ gone) : (graph.withoutNodes gone).HasKind id kind := by
  obtain ⟨node, found, rfl⟩ := hasKind_iff.1 has
  refine hasKind_iff.2 ⟨node.restrictEnds (Keep.off gone) (Keep.off gone) id, ?_, rfl⟩
  rw [node?_withoutNodes, found]
  simp [stays]

/-- Nodes of registered types can be removed one after the other. -/
theorem WellFormed.foldlM_remove
    (all : ∀ type config ports, registry.Canonical type config ports → admits type config ports)
    (formed : graph.WellFormed admits) (distinct : gone.Nodup)
    (builtin : ∀ id ∈ gone, ∃ type, graph.HasKind id (.builtin type)) :
    (gone.map Edit.remove).foldlM (Edit.apply registry) graph = .ok (graph.withoutNodes gone) ∧
      (graph.withoutNodes gone).WellFormed admits := by
  induction gone using List.reverseRecOn with
  | nil =>
    rw [withoutNodes_nil]
    exact ⟨rfl, formed⟩
  | append_singleton gone id ih =>
    rw [List.nodup_append] at distinct
    obtain ⟨earlier, formed'⟩ := ih distinct.1 fun other ho =>
      builtin other (List.mem_append_left _ ho)
    obtain ⟨type, has⟩ := builtin id (List.mem_append_right _ (List.mem_singleton.2 rfl))
    have stays : id ∉ gone := fun mem =>
      distinct.2.2 id mem id (List.mem_singleton.2 rfl) rfl
    have left := hasKind_withoutNodes has stays
    have ⟨node, found, _⟩ := hasKind_iff.1 left
    have removed : Edit.apply registry (graph.withoutNodes gone) (.remove id) =
        .ok (graph.withoutNodes (gone ++ [id])) := by
      rw [Edit.apply, Graph.remove, formed'.owns_builtin left, formed'.wired.detach?_eq, found,
        ← clear_withoutNodes]
      rfl
    refine ⟨?_, Edit.wellFormed all formed' removed⟩
    rw [List.map_append, List.foldlM_append, earlier]
    exact congrArg (· >>= pure) removed

private theorem zipIdx_mapIdx {α β : Type} (change : Nat → α → β) (items : List α) :
    (items.mapIdx change).zipIdx = items.zipIdx.map fun (a, i) => (change i a, i) := by
  apply List.ext_getElem?
  intro i
  cases here : items[i]? <;> simp [here]

theorem live_withoutNodes (gone : List NodeId) (graph : Graph) :
    (graph.withoutNodes gone).live = (graph.live.filter fun entry => !gone.contains entry.1).map
      fun entry => (entry.1, entry.2.restrictEnds (Keep.off gone) (Keep.off gone) entry.1) := by
  rw [live, live, withoutNodes, Array.toList_mapIdx, zipIdx_mapIdx, List.filterMap_map,
    List.filter_filterMap, List.map_filterMap]
  refine List.filterMap_congr fun place _ => ?_
  obtain ⟨node?, index⟩ := place
  cases node? with
  | none => simp
  | some node => by_cases out : gone.contains ⟨index⟩ <;> simp_all

/-- The wires of a graph with the inputs that they lead to. -/
def wires (graph : Graph) : List (InputRef × Wire) :=
  graph.live.flatMap fun (id, node) => node.inputs.zipIdx.flatMap fun (input, slot) =>
    input.wires.map (⟨id, slot⟩, ·)

theorem mem_wires {target : InputRef} {wire : Wire} : (target, wire) ∈ graph.wires ↔
    ∃ input, graph.input? target = some input ∧ wire ∈ input.wires := by
  obtain ⟨id, slot⟩ := target
  simp only [wires, List.mem_flatMap, Prod.exists, mem_live, List.mem_zipIdx_iff_getElem?,
    List.mem_map, Prod.mk.injEq, InputRef.mk.injEq, input?, Option.bind_eq_some_iff]
  constructor
  · rintro ⟨_, node, found, input, _, here, _, mem, ⟨rfl, rfl⟩, rfl⟩
    exact ⟨input, ⟨node, found, here⟩, mem⟩
  · rintro ⟨input, ⟨node, found, here⟩, mem⟩
    exact ⟨id, node, found, input, slot, here, wire, mem, ⟨rfl, rfl⟩, rfl⟩

private theorem flatMap_filter {α β : Type} {test : α → Bool} {f g : α → List β}
    (kept : ∀ a, test a = true → f a = g a) (left : ∀ a, test a = false → g a = [])
    (items : List α) : (items.filter test).flatMap f = items.flatMap g := by
  induction items with
  | nil => rfl
  | cons a items ih =>
    rw [List.flatMap_cons, ← ih]
    cases here : test a with
    | true => rw [List.filter_cons_of_pos here, List.flatMap_cons, kept a here]
    | false => rw [List.filter_cons_of_neg (by simp [here]), left a here, List.nil_append]

theorem wires_withoutNodes (gone : List NodeId) (graph : Graph) :
    (graph.withoutNodes gone).wires =
      graph.wires.filter fun (target, wire) => Keep.off gone wire.source target := by
  rw [wires, wires, live_withoutNodes, List.flatMap_map, List.filter_flatMap]
  refine flatMap_filter (fun (id, node) stays => ?_) (fun (id, node) out => ?_) _
  · dsimp only [Node.restrictEnds]
    rw [zipIdx_mapIdx, List.flatMap_map, List.filter_flatMap]
    congr 1
    funext input
    rw [List.filter_map]
    rfl
  · have out : id ∈ gone := by simpa using out
    rw [List.filter_eq_nil_iff]
    intro entry mem
    obtain ⟨input, -, mem⟩ := List.mem_flatMap.1 mem
    obtain ⟨wire, -, rfl⟩ := List.mem_map.1 mem
    simp [Keep.off, out]

end NodeScript.Graph
