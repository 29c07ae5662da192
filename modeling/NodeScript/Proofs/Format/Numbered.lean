import Mathlib.Data.List.Induction
import NodeScript.Proofs.Graph.Usage
import NodeScript.Summary.Basic

/-!
Nodes by their numbers among those that are left. Main statements: `ranks_eq_some_iff`, and the
numbers of a graph without gaps.
-/

set_option autoImplicit false
set_option relaxedAutoImplicit false

namespace NodeScript.Graph

private def liveOf (places : List (Option Node)) : List (NodeId × Node) :=
  places.zipIdx.filterMap fun (place, index) => place.map (⟨index⟩, ·)

private theorem liveOf_append (places : List (Option Node)) (place : Option Node) :
    liveOf (places ++ [place]) = liveOf places ++ (place.map (⟨places.length⟩, ·)).toList := by
  rw [liveOf, List.zipIdx_append, List.filterMap_append]
  cases place <;> simp [liveOf]

private def rankNext (state : Array (Option Nat) × Nat) (place : Option Node) :
    Array (Option Nat) × Nat :=
  if place.isSome then (state.1.push (some state.2), state.2 + 1) else (state.1.push none, state.2)

private theorem getElem?_concat_eq_some_iff {α : Type} {items : List α} {a b : α} {i : Nat} :
    (items ++ [a])[i]? = some b ↔ items[i]? = some b ∨ i = items.length ∧ a = b := by
  rw [List.getElem?_append]
  split
  · exact ⟨.inl, fun h => h.resolve_right (by omega)⟩
  · have outside : items[i]? = none := List.getElem?_eq_none (by omega)
    rw [List.getElem?_singleton, outside]
    by_cases last : i = items.length
    · simp [last]
    · simp [last, show i - items.length ≠ 0 by omega]

private theorem join_push_eq_some_iff {ranks : Array (Option Nat)} {rank : Option Nat}
    {index i : Nat} : (ranks.push rank)[index]?.join = some i ↔
      ranks[index]?.join = some i ∨ index = ranks.size ∧ rank = some i := by
  rw [Array.getElem?_push]
  split
  · rename_i last
    simp [last]
  · rename_i other
    simp [other]

private theorem ranks_liveOf (places : List (Option Node)) :
    (places.foldl rankNext (#[], 0)).1.size = places.length ∧
    (places.foldl rankNext (#[], 0)).2 = (liveOf places).length ∧
    ∀ index i : Nat, (places.foldl rankNext (#[], 0)).1[index]?.join = some i ↔
      ∃ node, (liveOf places)[i]? = some ((⟨index⟩, node) : NodeId × Node) := by
  induction places using List.reverseRecOn with
  | nil => simp [liveOf]
  | append_singleton places place ih =>
    obtain ⟨size, next, ranks⟩ := ih
    rw [List.foldl_append, List.foldl_cons, List.foldl_nil, liveOf_append]
    cases place with
    | none =>
      refine ⟨by simp [rankNext, size], by simp [rankNext, next], fun index i => ?_⟩
      refine join_push_eq_some_iff.trans ?_
      simp [ranks index i]
    | some node =>
      refine ⟨by simp [rankNext, size], by simp [rankNext, next], fun index i => ?_⟩
      refine join_push_eq_some_iff.trans ?_
      simp only [ranks index i, size, next, Option.map_some, Option.toList_some,
        getElem?_concat_eq_some_iff, exists_or, Option.some.injEq, Prod.mk.injEq, NodeId.mk.injEq]
      refine or_congr_right ⟨fun ⟨here, number⟩ => ⟨node, number.symm, here.symm, rfl⟩, ?_⟩
      rintro ⟨_, number, here, -⟩
      exact ⟨here.symm, number.symm⟩

variable {graph : Graph}

/-- The number of a node is its place among those that are left. -/
theorem ranks_eq_some_iff {id : NodeId} {i : Nat} :
    graph.ranks[id.index]?.join = some i ↔ ∃ node, graph.live[i]? = some (id, node) := by
  obtain ⟨index⟩ := id
  rw [ranks, ← Array.foldl_toList]
  exact (ranks_liveOf graph.arena.toList).2.2 index i

theorem exists_number {id : NodeId} {node : Node} (found : graph.node? id = some node) :
    ∃ i : Nat, graph.live[i]? = some (id, node) :=
  List.mem_iff_getElem?.1 (mem_live.2 found)

theorem node?_of_number {i : Nat} {id : NodeId} {node : Node}
    (numbered : graph.live[i]? = some (id, node)) : graph.node? id = some node :=
  mem_live.1 (List.mem_of_getElem? numbered)

theorem ranks_of_number {i : Nat} {id : NodeId} {node : Node}
    (numbered : graph.live[i]? = some (id, node)) : graph.ranks[id.index]?.join = some i := by
  exact ranks_eq_some_iff.2 ⟨node, numbered⟩

theorem number_unique {i j : Nat} {id : NodeId} {node node' : Node}
    (first : graph.live[i]? = some (id, node)) (second : graph.live[j]? = some (id, node')) :
    i = j := by
  have rank := ranks_of_number first
  rw [ranks_of_number second, Option.some.injEq] at rank
  exact rank.symm

theorem getElem?_filterMap {α β : Type} {f : α → Option β} {items : List α}
    (all : ∀ a ∈ items, (f a).isSome) (i : Nat) :
    (items.filterMap f)[i]? = items[i]?.bind f := by
  induction items generalizing i with
  | nil => rfl
  | cons a items ih =>
    rw [List.forall_mem_cons] at all
    obtain ⟨b, found⟩ := Option.isSome_iff_exists.1 all.1
    rw [List.filterMap_cons_some found]
    cases i with
    | zero => simp [found]
    | succ i => simpa using ih all.2 i

def Full (graph : Graph) : Prop := ∀ index < graph.arena.size, (graph.node? ⟨index⟩).isSome

theorem Full.live_eq (full : graph.Full) (i : Nat) :
    graph.live[i]? = (graph.node? ⟨i⟩).map (⟨i⟩, ·) := by
  rw [live, getElem?_filterMap, List.getElem?_zipIdx, node?, Array.getElem?_toList]
  · cases graph.arena[i]? with
    | none => rfl
    | some place => simp
  · rintro ⟨place, index⟩ mem
    rw [List.mem_zipIdx_iff_getElem?, Array.getElem?_toList] at mem
    have here := full index (Array.getElem?_eq_some_iff.1 mem).1
    rw [node?, mem] at here
    simpa using here

theorem Full.live_length (full : graph.Full) : graph.live.length = graph.arena.size := by
  refine Nat.le_antisymm ?_ (Nat.le_of_not_lt fun inside => ?_)
  · have outside : graph.node? ⟨graph.arena.size⟩ = none := by simp [node?]
    rw [← List.getElem?_eq_none_iff, full.live_eq, outside, Option.map_none]
  · have here := full _ inside
    have missing := full.live_eq graph.live.length
    rw [List.getElem?_eq_none (Nat.le_refl _), eq_comm, Option.map_eq_none_iff] at missing
    simp [missing] at here

theorem Full.ranks_eq (full : graph.Full) {index : Nat} (inside : index < graph.arena.size) :
    graph.ranks[index]?.join = some index := by
  obtain ⟨node, found⟩ := Option.isSome_iff_exists.1 (full index inside)
  have number : graph.live[index]? = some (⟨index⟩, node) := by
    rw [full.live_eq, found]
    rfl
  exact ranks_of_number number

def mapNodes (change : Node → Node) (graph : Graph) : Graph :=
  { graph with arena := graph.arena.map (·.map change) }

theorem node?_mapNodes (change : Node → Node) (graph : Graph) (id : NodeId) :
    (graph.mapNodes change).node? id = (graph.node? id).map change := by
  rw [node?, node?, mapNodes, Array.getElem?_map]
  rcases graph.arena[id.index]? with _ | _ | node <;> rfl

theorem live_mapNodes (change : Node → Node) (graph : Graph) :
    (graph.mapNodes change).live = graph.live.map fun entry => (entry.1, change entry.2) := by
  rw [live, live, mapNodes, Array.toList_map, List.zipIdx_map, List.filterMap_map,
    List.map_filterMap]
  refine List.filterMap_congr fun place _ => ?_
  obtain ⟨node?, index⟩ := place
  cases node? <;> rfl

theorem ranks_mapNodes (change : Node → Node) (graph : Graph) :
    (graph.mapNodes change).ranks = graph.ranks := by
  rw [ranks, ranks, mapNodes, Array.foldl_map]
  simp only [Option.isSome_map]

end NodeScript.Graph
