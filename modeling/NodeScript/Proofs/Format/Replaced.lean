import Mathlib.Data.List.Sort
import NodeScript.Proofs.Format.WireSet
import NodeScript.Proofs.Graph.Abandoned
import NodeScript.Proofs.Graph.Foremost

/-!
Nodes that are replaced. They are taken out one after the other, and for each a new one is put
behind all others. `Graph.Exchanging` says what each place of the graph holds in the meantime. Main
statement: `Graph.Exchanging.replaced`, by which the new nodes stand in for the old ones in their
order and nothing else changes.
-/

set_option autoImplicit false
set_option relaxedAutoImplicit false

namespace NodeScript

def Node.remade (kind : NodeKind → NodeKind) (ports : NodeKind → Ports) (node : Node) : Node :=
  .ofPorts (kind node.kind) .null (ports node.kind) node.position

namespace Graph

/-- New nodes stand in for old ones, in the order of these. The wires of the old nodes are gone, and
all else is as it was. -/
structure Replaced (graph next : Graph) (old new : List NodeId) (kind : NodeKind → NodeKind)
    (ports : NodeKind → Ports) : Prop where
  pairs : List.Forall₂ (fun a b => ∃ node, graph.node? a = some node ∧
    next.node? b = some (node.remade kind ports)) old new
  wires : graph.Restrung next (Keep.off old) []
  others : ∀ id, id ∉ new → next.bare? id = if id ∈ old then none else graph.bare? id

/-- The nodes in a list have been taken out with their wires, and new ones for them stand behind all
others. -/
structure Exchanging (kind : NodeKind → NodeKind) (ports : NodeKind → Ports) (graph : Graph)
    (done : List NodeId) (state : Graph) : Prop where
  size : state.arena.size = graph.arena.size + done.length
  left : ∀ id, id.index < graph.arena.size →
    state.node? id = if id ∈ done then none else (graph.restrict (Keep.off done)).node? id
  fresh : ∀ i a, done[i]? = some a →
    state.node? ⟨graph.arena.size + i⟩ = (graph.node? a).map (Node.remade kind ports)

variable {admits : Admits} {graph state next : Graph} {kind : NodeKind → NodeKind}
  {ports : NodeKind → Ports} {done : List NodeId} {id : NodeId}

theorem Exchanging.start (arena : state.arena = graph.arena) :
    Exchanging kind ports graph [] state := by
  refine ⟨by rw [arena]; rfl, fun id _ => ?_, fun i a listed => by simp at listed⟩
  rw [node?, arena, if_neg List.not_mem_nil, Keep.off_nil, restrict, restrictEnds_all]
  rfl

theorem Exchanging.of_arena (exchanging : Exchanging kind ports graph done state)
    (arena : next.arena = state.arena) : Exchanging kind ports graph done next := by
  have same (id : NodeId) : next.node? id = state.node? id := by rw [node?, node?, arena]
  refine ⟨?_, ?_, ?_⟩
  · rw [arena]
    exact exchanging.size
  · intro id old
    exact (same id).trans (exchanging.left id old)
  · intro i a listed
    exact (same _).trans (exchanging.fresh i a listed)

@[simp] theorem restrictEnds_remade (inner outer : Keep) (id : NodeId) (node : Node) :
    (node.remade kind ports).restrictEnds inner outer id = node.remade kind ports := by
  simp only [Node.remade, Node.ofPorts, Node.restrictEnds, Node.mk.injEq, true_and]
  constructor <;> (apply List.ext_getElem?; intro i; simp [Function.comp_def]; rfl)

/-- One node more is taken out and has one that stands in for it. -/
theorem Exchanging.step (exchanging : Exchanging kind ports graph done state) {node : Node}
    (here : graph.node? id = some node) :
    Exchanging kind ports graph (done ++ [id])
      (((state.restrict (Keep.apart id)).clear id).push (node.remade kind ports)).2 := by
  have old := index_lt_of_node? here
  have size : ((state.restrict (Keep.apart id)).clear id).arena.size =
      graph.arena.size + done.length := by
    rw [size_clear, restrict, size_restrictEnds, exchanging.size]
  refine ⟨?_, fun other older => ?_, fun i a listed => ?_⟩
  · simp only [push, Array.size_push, size, List.length_append, List.length_singleton,
      Nat.add_assoc]
  · have apart : other ≠ ⟨graph.arena.size + done.length⟩ := by
      rintro rfl
      exact absurd older (Nat.not_lt.2 (Nat.le_add_right _ _))
    rw [node?_push, size, if_neg apart, node?_clear, restrict, node?_restrictEnds,
      exchanging.left other older]
    by_cases last : other = id
    · simp [last]
    · simp only [last, if_false, List.mem_append, List.mem_singleton, or_false]
      split
      · rfl
      · rw [restrict, restrict, ← node?_restrictEnds, restrictEnds_restrictEnds, Keep.both_off]
  · rw [node?_push, size]
    rcases Nat.lt_or_ge i done.length with before | behind
    · rw [List.getElem?_append_left before] at listed
      have apart : (⟨graph.arena.size + i⟩ : NodeId) ≠ id := by
        rintro rfl
        exact absurd old (Nat.not_lt.2 (Nat.le_add_right _ _))
      have elsewhere : (⟨graph.arena.size + i⟩ : NodeId) ≠ ⟨graph.arena.size + done.length⟩ := by
        simp only [ne_eq, NodeId.mk.injEq]
        omega
      rw [if_neg elsewhere, node?_clear, if_neg apart, restrict, node?_restrictEnds,
        exchanging.fresh i a listed, Option.map_map]
      congr 1
      exact funext fun node => restrictEnds_remade _ _ _ node
    · rw [List.getElem?_append_right behind, List.getElem?_singleton] at listed
      split at listed
      · obtain rfl := Option.some.inj listed
        obtain rfl : i = done.length := by omega
        rw [if_pos rfl, here]
        rfl
      · simp at listed

def successors (graph : Graph) (old : List NodeId) : List NodeId :=
  (List.range old.length).map fun i => ⟨graph.arena.size + i⟩

theorem mem_successors {old : List NodeId} : id ∈ graph.successors old ↔
    graph.arena.size ≤ id.index ∧ id.index < graph.arena.size + old.length := by
  obtain ⟨index⟩ := id
  simp only [successors, List.mem_map, List.mem_range, NodeId.mk.injEq]
  constructor
  · rintro ⟨i, less, rfl⟩
    omega
  · rintro ⟨newer, less⟩
    exact ⟨index - graph.arena.size, by omega, by omega⟩

theorem successors_pairwise (graph : Graph) (old : List NodeId) :
    (graph.successors old).Pairwise (·.index < ·.index) := by
  refine List.pairwise_map.2 (List.pairwise_lt_range.imp fun {i j} less => ?_)
  exact Nat.add_lt_add_left less _

section

variable (exchanging : Exchanging kind ports graph done next)
include exchanging

/-- A node is an old one that is left, or stands in for one that was there. -/
theorem Exchanging.cases {node : Node} (found : next.node? id = some node) :
    (id.index < graph.arena.size ∧ id ∉ done ∧ ∃ before, graph.node? id = some before ∧
      node = before.restrictEnds (Keep.off done) (Keep.off done) id) ∨
    ∃ i a before, id = ⟨graph.arena.size + i⟩ ∧ done[i]? = some a ∧
      graph.node? a = some before ∧ node = before.remade kind ports := by
  rcases Nat.lt_or_ge id.index graph.arena.size with older | newer
  · rw [exchanging.left id older] at found
    split at found
    · simp at found
    · rw [restrict, node?_restrictEnds, Option.map_eq_some_iff] at found
      obtain ⟨before, here, rfl⟩ := found
      exact .inl ⟨older, ‹_›, before, here, rfl⟩
  · have less := index_lt_of_node? found
    rw [exchanging.size] at less
    have inside : id.index - graph.arena.size < done.length := by omega
    have same : id = ⟨graph.arena.size + (id.index - graph.arena.size)⟩ := by
      obtain ⟨index⟩ := id
      simp only [NodeId.mk.injEq] at newer ⊢
      omega
    have listed := List.getElem?_eq_getElem inside
    rw [same, exchanging.fresh _ _ listed, Option.map_eq_some_iff] at found
    obtain ⟨before, here, rfl⟩ := found
    exact .inr ⟨_, _, before, same, listed, here, rfl⟩

theorem Exchanging.node?_of_not_mem (apart : id ∉ graph.successors done) :
    next.node? id = if id ∈ done then none else (graph.restrict (Keep.off done)).node? id := by
  rcases Nat.lt_or_ge id.index graph.arena.size with older | newer
  · exact exchanging.left id older
  · have outside : next.arena.size ≤ id.index := by
      rw [exchanging.size]
      simp only [mem_successors, not_and, not_lt] at apart
      exact apart newer
    rw [node?_eq_none_of_size_le outside, restrict, node?_restrictEnds,
      node?_eq_none_of_size_le newer]
    simp

theorem Exchanging.wiresAt_of_mem {target : InputRef} (new : target.node ∈ graph.successors done) :
    next.wiresAt target = [] := by
  rw [wiresAt, input?]
  cases found : next.node? target.node with
  | none => rfl
  | some node =>
    rcases exchanging.cases found with ⟨older, -⟩ | ⟨-, -, before, -, -, -, rfl⟩
    · exact absurd older (Nat.not_lt.2 (mem_successors.1 new).1)
    · simp only [Node.remade, Node.ofPorts, Option.bind_some, List.getElem?_map]
      cases (ports before.kind).inputs[target.slot]? <;> rfl

theorem Exchanging.targetsAt_of_mem {source : OutputRef}
    (new : source.node ∈ graph.successors done) : next.targetsAt source = [] := by
  rw [targetsAt, output?]
  cases found : next.node? source.node with
  | none => rfl
  | some node =>
    rcases exchanging.cases found with ⟨older, -⟩ | ⟨-, -, before, -, -, -, rfl⟩
    · exact absurd older (Nat.not_lt.2 (mem_successors.1 new).1)
    · simp only [Node.remade, Node.ofPorts, Option.bind_some, List.getElem?_map]
      cases (ports before.kind).outputs[source.slot]? <;> rfl

theorem Exchanging.restrung : graph.Restrung next (Keep.off done) [] := by
  refine .of_ends (fun target => ?_) fun source => ?_
  · rw [List.filter_nil, List.map_nil, List.append_nil]
    by_cases new : target.node ∈ graph.successors done
    · rw [exchanging.wiresAt_of_mem new, wiresAt, input?,
        node?_eq_none_of_size_le (mem_successors.1 new).1]
      rfl
    · rw [← wiresAt_restrict, wiresAt, wiresAt, input?, input?, exchanging.node?_of_not_mem new]
      split
      · rename_i gone
        rw [← input?, ← wiresAt, wiresAt_restrict, List.filter_eq_nil_iff.2 fun wire _ => by
          simp [Keep.off, gone]]
        rfl
      · rfl
  · rw [List.filter_nil, List.map_nil, List.append_nil]
    by_cases new : source.node ∈ graph.successors done
    · rw [exchanging.targetsAt_of_mem new, targetsAt, output?,
        node?_eq_none_of_size_le (mem_successors.1 new).1]
      rfl
    · rw [← targetsAt_restrict, targetsAt, targetsAt, output?, output?,
        exchanging.node?_of_not_mem new]
      split
      · rename_i gone
        rw [← output?, ← targetsAt, targetsAt_restrict, List.filter_eq_nil_iff.2 fun target _ => by
          simp [Keep.off, gone]]
        rfl
      · rfl

theorem Exchanging.replaced (live : ∀ a ∈ done, (graph.node? a).isSome) :
    graph.Replaced next done (graph.successors done) kind ports where
  pairs := by
    refine List.forall₂_iff_get.2 ⟨by simp [successors], fun i inside inside' => ?_⟩
    obtain ⟨node, here⟩ := Option.isSome_iff_exists.1 (live _ (List.get_mem done ⟨i, inside⟩))
    refine ⟨node, here, ?_⟩
    have fresh := exchanging.fresh i _ (List.getElem?_eq_getElem inside)
    simp only [successors, List.get_eq_getElem, List.getElem_map, List.getElem_range]
    rw [fresh]
    exact congrArg (Option.map _) here
  wires := exchanging.restrung
  others id apart := by
    rw [bare?, exchanging.node?_of_not_mem apart]
    split
    · rfl
    · exact bare?_restrict graph _ id

theorem Exchanging.nodesOfKind_eq {kinds : NodeKind → Bool}
    (live : ∀ a ∈ done, (graph.node? a).isSome)
    (left : ∀ id node, graph.node? id = some node → id ∉ done → kinds node.kind = false)
    (made : ∀ a node, a ∈ done → graph.node? a = some node → kinds (kind node.kind) = true) :
    next.nodesOfKind kinds = graph.successors done := by
  have irrefl : Std.Irrefl fun a b : NodeId => a.index < b.index := ⟨fun _ => Nat.lt_irrefl _⟩
  refine (next.nodesOfKind_ascending kinds).eq_of_mem_iff (successors_pairwise graph done)
    fun id => ?_
  rw [mem_nodesOfKind]
  constructor
  · rintro ⟨form, formed, of⟩
    obtain ⟨node, found, rfl⟩ := node?_of_form? formed
    rcases exchanging.cases found with ⟨-, stays, before, here, rfl⟩ | ⟨i, a, -, rfl, listed, -⟩
    · have none := left id before here stays
      exact absurd of (by simpa [Node.form, Node.restrictEnds] using none)
    · have inside := (List.getElem?_eq_some_iff.1 listed).1
      exact mem_successors.2 ⟨by simp, by simpa using inside⟩
  · intro new
    obtain ⟨i, inside, rfl⟩ := List.mem_map.1 new
    have listed := List.getElem?_eq_getElem (List.mem_range.1 inside)
    have mem := List.mem_of_getElem? listed
    obtain ⟨node, here⟩ := Option.isSome_iff_exists.1 (live _ mem)
    refine ⟨(node.remade kind ports).form, form?_eq_of_node? ?_, made _ node mem here⟩
    rw [exchanging.fresh i _ listed, here]
    rfl

theorem Exchanging.nodesOfKind_eq_nil {kinds : NodeKind → Bool}
    (left : ∀ id node, graph.node? id = some node → id ∉ done → kinds node.kind = false)
    (made : ∀ a node, a ∈ done → graph.node? a = some node → kinds (kind node.kind) = false) :
    next.nodesOfKind kinds = [] := by
  refine List.eq_nil_iff_forall_not_mem.2 fun id mem => ?_
  obtain ⟨form, formed, of⟩ := mem_nodesOfKind.1 mem
  obtain ⟨node, found, rfl⟩ := node?_of_form? formed
  rcases exchanging.cases found with
    ⟨-, stays, before, here, rfl⟩ | ⟨i, a, before, -, listed, here, rfl⟩
  · have none := left id before here stays
    exact absurd of (by simpa [Node.form, Node.restrictEnds] using none)
  · have none := made a before (List.mem_of_getElem? listed) here
    exact absurd of (by simpa [Node.form, Node.remade, Node.ofPorts] using none)

end

theorem Exchanging.exchanged (exchanging : Exchanging kind ports graph done state)
    (wired : state.Wired) {before node : Node} {middle : Graph} {fresh : NodeId}
    (here : graph.node? id = some before) (left : id ∉ done)
    (detached : state.detach? id = some (node, middle))
    (defined : middle.definedPorts (kind node.kind) = .ok (ports node.kind))
    (added : middle.addDefined (kind node.kind) node.position = .ok (fresh, next)) :
    fresh = ⟨graph.arena.size + done.length⟩ ∧ Exchanging kind ports graph (done ++ [id]) next ∧
      next.functions = state.functions ∧ next.structs = state.structs := by
  rw [wired.detach?_eq, Option.map_eq_some_iff] at detached
  obtain ⟨found, there, same⟩ := detached
  obtain ⟨rfl, rfl⟩ := Prod.mk.inj same
  rw [exchanging.left id (index_lt_of_node? here), if_neg left, restrict, node?_restrictEnds, here]
    at there
  obtain rfl := Option.some.inj there
  obtain ⟨ports', defined', rfl, rfl⟩ := addDefined_eq_ok_iff.1 added
  obtain rfl := Except.ok.inj (defined.symm.trans defined')
  refine ⟨?_, (exchanging.step here :), rfl, rfl⟩
  rw [size_clear, restrict, size_restrictEnds, exchanging.size]

def renamed (graph : Graph) (done : List NodeId) (own : Option NodeId) : Option NodeId :=
  own.bind fun id => (done.idxOf? id).map fun i => ⟨graph.arena.size + i⟩

theorem renamed_append (graph : Graph) (left : id ∉ done) (own : Option NodeId) :
    graph.renamed (done ++ [id]) own = if own = some id then
      some ⟨graph.arena.size + done.length⟩ else graph.renamed done own := by
  cases own with
  | none => rfl
  | some other =>
    have last : [id].idxOf? other = if id = other then some 0 else none := by
      simp [List.idxOf?_cons]
    have split : (done ++ [id]).idxOf? other =
        (done.idxOf? other).or (([id].idxOf? other).map (· + done.length)) :=
      List.findIdx?_append
    rw [renamed, renamed, Option.bind_some, Option.bind_some, split, last]
    by_cases same : other = id
    · subst same
      simp [List.idxOf?_eq_none_iff.2 left]
    · simp [same, Ne.symm same]

theorem renamed_isSome (graph : Graph) {own : Option NodeId} (has : own = some id)
    (mem : id ∈ done) : (graph.renamed done own).isSome := by
  rw [renamed, has, Option.bind_some, Option.isSome_map]
  exact List.isSome_idxOf?.2 mem

theorem eq_some_iff_renamed (graph : Graph)
    (nodup : done.Nodup) {i : Nat} (inside : i < done.length)
    (own : Option NodeId) : own = some done[i] ↔
      graph.renamed done own = some ⟨graph.arena.size + i⟩ := by
  cases own with
  | none => simp [renamed]
  | some other =>
    simp only [renamed, Option.bind_some, Option.map_eq_some_iff, Option.some.injEq,
      NodeId.mk.injEq, List.idxOf?_eq_some_iff]
    constructor
    · rintro rfl
      refine ⟨i, ⟨inside, rfl, fun j less same => ?_⟩, rfl⟩
      exact Nat.ne_of_lt less (nodup.getElem_inj_iff.1 same)
    · rintro ⟨j, ⟨_, same, -⟩, shifted⟩
      obtain rfl : j = i := by omega
      exact same.symm

theorem renamed_pairs (graph : Graph) (nodup : done.Nodup) (own own' : Option NodeId) :
    List.Forall₂ (fun a b => (own = some a ↔ graph.renamed done own = some b) ∧
      (own' = some a ↔ graph.renamed done own' = some b)) done (graph.successors done) := by
  refine List.forall₂_iff_get.2 ⟨by simp [successors], fun i inside _ => ?_⟩
  simp only [successors, List.get_eq_getElem, List.getElem_map, List.getElem_range]
  exact ⟨graph.eq_some_iff_renamed nodup inside own, graph.eq_some_iff_renamed nodup inside own'⟩

def refit (graph : Graph) (old : FunctionEntry) (f : FunctionId) (signature : Signature)
    (done : List NodeId) : FunctionEntry :=
  { id := f, signature, input := graph.renamed done old.input,
    output := graph.renamed done old.output }

theorem handOver_refit {old : FunctionEntry} (f : FunctionId) (signature : Signature)
    (left : id ∉ done) (apart : old.input = some id → old.output ≠ some id) :
    handOver old id ⟨graph.arena.size + done.length⟩ (graph.refit old f signature done) =
      graph.refit old f signature (done ++ [id]) := by
  simp only [handOver, refit, renamed_append graph left]
  by_cases input : old.input = some id
  · simp [input, apart input]
  · by_cases output : old.output = some id <;> simp [input, output]

end Graph

end NodeScript
