import NodeScript.Proofs.Format.Renumbered
import NodeScript.Proofs.Graph.Spared

/-!
The table of a graph where it is read with gaps. The nodes that are placed have the numbers that
they have in the graph without the others, and the wires that can be put in are those of that
graph. Main statements: `Gapped.getElem?_places`, `Gapped.replaced_wires` and `Gapped.count_wires`.
-/

set_option autoImplicit false
set_option relaxedAutoImplicit false

namespace NodeScript

open NodeScript.Graph Format

variable {registry reader : Registry} {graph : Graph} {gone : List NodeId}

def Format.asPending? (ranks : Array (Option Nat)) (wire : InputRef × Wire) :
    Option PendingWire := do
  let consumer ← ranks[wire.1.node.index]?.join
  let source ← ranks[wire.2.source.node.index]?.join
  return (consumer, wire.1.slot, ⟨source, wire.2.source.slot, wire.2.relays⟩)

private theorem wiresFrom_entries {entries : List (NodeId × Node)} (first : Nat)
    (all : ∀ entry ∈ entries, (graph.record? graph.ranks registry current entry.2).isSome)
    (numbers : ∀ (i : Nat) entry, entries[i]? = some entry →
      graph.ranks[entry.1.index]?.join = some (first + i)) :
    wiresFrom first ((entries.filterMap fun (_, node) =>
        (graph.record? graph.ranks registry current node).map (node, ·)).map (·.2)) =
      (entries.flatMap fun (id, node) => node.inputs.zipIdx.flatMap fun (input, slot) =>
        input.wires.map ((⟨id, slot⟩, ·) : Wire → InputRef × Wire)).filterMap
          (asPending? graph.ranks) := by
  induction entries generalizing first with
  | nil => rfl
  | cons entry entries ih =>
    obtain ⟨id, node⟩ := entry
    rw [List.forall_mem_cons] at all
    obtain ⟨record, recorded⟩ := Option.isSome_iff_exists.1 all.1
    have rest := ih (first + 1) all.2 fun i entry here => by
      rw [numbers (i + 1) entry (by simpa using here), Nat.add_assoc, Nat.add_comm 1]
    have number : graph.ranks[id.index]?.join = some first := numbers 0 (id, node) rfl
    rw [List.filterMap_cons_some (b := (node, record)) (by simp [recorded]), List.map_cons,
      wiresFrom, List.zipIdx_cons, List.flatMap_cons, ← wiresFrom, rest, List.flatMap_cons,
      List.filterMap_append]
    congr 1
    obtain ⟨name, -, rfl⟩ := Option.map_eq_some_iff.1 recorded
    dsimp only
    rw [List.zipIdx_map, List.flatMap_map, List.filterMap_flatMap]
    congr 1
    funext input
    simp only [Prod.map, numbered, List.map_filterMap, List.filterMap_map]
    congr 1
    funext wire
    simp only [Function.comp_apply, asPending?, number]
    cases graph.ranks[wire.source.node.index]?.join <;> rfl

theorem Format.wiresFrom_items
    (all : ∀ entry ∈ graph.live, (graph.record? graph.ranks registry current entry.2).isSome) :
    wiresFrom 0 ((graph.items registry).map (·.2)) =
      graph.wires.filterMap (asPending? graph.ranks) := by
  refine wiresFrom_entries 0 all fun i entry here => ?_
  rw [Nat.zero_add]
  exact ranks_of_number here

private theorem getElem?_places_known {entries : List (NodeId × Node)} (first : Nat) {i : Nat}
    {entry : NodeId × Node} (here : entries[i]? = some entry)
    (known : reader.lacks entry.2 = false) :
    ∃ k, (places reader first (entries.map (·.2)))[i]? = some (some ⟨first + k⟩) ∧
      (entries.filter fun entry => !reader.lacks entry.2)[k]? = some entry := by
  induction entries generalizing first i with
  | nil => simp at here
  | cons other entries ih =>
    rw [List.map_cons, places]
    cases i with
    | zero =>
      obtain rfl : other = entry := by simpa using here
      exact ⟨0, by simp [known], by simp [known]⟩
    | succ i =>
      have here : entries[i]? = some entry := by simpa using here
      by_cases lacks : reader.lacks other.2
      · obtain ⟨k, place, left⟩ := ih first here
        exact ⟨k, by simpa [lacks] using place, by simpa [lacks] using left⟩
      · obtain ⟨k, place, left⟩ := ih (first + 1) here
        exact ⟨k + 1, by simpa [lacks, Nat.add_assoc, Nat.add_comm 1] using place,
          by simpa [lacks] using left⟩

private theorem getElem?_places_lacking {nodes : List Node} {first i : Nat} {node : Node}
    (here : nodes[i]? = some node) (lacks : reader.lacks node) :
    (places reader first nodes)[i]? = some none := by
  induction nodes generalizing first i with
  | nil => simp at here
  | cons other nodes ih =>
    rw [places]
    cases i with
    | zero =>
      obtain rfl : other = node := by simpa using here
      simp [lacks]
    | succ i =>
      have here : nodes[i]? = some node := by simpa using here
      split <;> simpa using ih here

theorem Format.countP_places (first : Nat) (nodes : List Node) :
    (places reader first nodes).countP Option.isNone = nodes.countP reader.lacks := by
  induction nodes generalizing first with
  | nil => rfl
  | cons node nodes ih =>
    rw [places]
    by_cases lacks : reader.lacks node <;> simp [lacks, ih]

theorem Graph.isSome_ranks_withoutNodes (gone : List NodeId) {id : NodeId}
    (live : (graph.node? id).isSome) :
    ((graph.withoutNodes gone).ranks[id.index]?.join).isSome = !gone.contains id := by
  obtain ⟨node, found⟩ := Option.isSome_iff_exists.1 live
  have here := node?_withoutNodes gone graph id
  rw [found] at here
  cases out : gone.contains id with
  | true =>
    rw [out, if_pos rfl] at here
    rw [Bool.not_true, ← Bool.not_eq_true, Option.isSome_iff_exists]
    rintro ⟨k, rank⟩
    obtain ⟨other, number⟩ := ranks_eq_some_iff.1 rank
    rw [node?_of_number number] at here
    simp at here
  | false =>
    rw [out, if_neg (by simp)] at here
    obtain ⟨k, number⟩ := exists_number here
    rw [ranks_of_number number]
    rfl

def Graph.Gapped (reader : Registry) (gone : List NodeId) (graph : Graph) : Prop :=
  ∀ id node, graph.node? id = some node → gone.contains id = reader.lacks node

namespace Graph.Gapped

variable (gapped : graph.Gapped reader gone)
include gapped

theorem filter_live : (graph.live.filter fun entry => !gone.contains entry.1) =
    graph.live.filter fun entry => !reader.lacks entry.2 := by
  refine List.filter_congr fun entry he => ?_
  rw [gapped entry.1 entry.2 (mem_live.1 he)]

/-- The nodes are placed by their numbers in the graph without those that are not known. -/
theorem getElem?_places {i : Nat} {id : NodeId} {node : Node}
    (here : graph.live[i]? = some (id, node)) :
    (places reader 0 (graph.live.map (·.2)))[i]?.join =
      (graph.withoutNodes gone).ranks[id.index]?.join.map (⟨·⟩) := by
  have found := node?_of_number here
  have stays := isSome_ranks_withoutNodes gone (Option.isSome_of_eq_some found)
  rw [gapped id node found] at stays
  by_cases lacks : reader.lacks node
  · rw [lacks, Bool.not_true, Option.isSome_eq_false_iff, Option.isNone_iff_eq_none] at stays
    rw [stays, getElem?_places_lacking (by rw [List.getElem?_map, here]; rfl) lacks]
    rfl
  · obtain ⟨k, place, left⟩ := getElem?_places_known 0 here (by simpa using lacks)
    have number : (graph.withoutNodes gone).live[k]? =
        some (id, node.restrictEnds (Keep.off gone) (Keep.off gone) id) := by
      rw [live_withoutNodes, gapped.filter_live, List.getElem?_map, left]
      rfl
    rw [place, ranks_of_number number, Nat.zero_add]
    rfl

variable {placed : Array (Option NodeId)}
  (places : placed.toList = places reader 0 (graph.live.map (·.2))) (wired : graph.Wired)
include places wired

theorem replaced_asPending {wire : InputRef × Wire} (mem : wire ∈ graph.wires) :
    ∃ pending, asPending? graph.ranks wire = some pending ∧
      replaced? placed pending = asPending? (graph.withoutNodes gone).ranks wire := by
  obtain ⟨target, wire⟩ := wire
  obtain ⟨input, hi, hw⟩ := mem_wires.1 mem
  obtain ⟨node, consumer, -⟩ := Option.bind_eq_some_iff.1 hi
  obtain ⟨output, ho, -⟩ := wired.source hi hw
  obtain ⟨node', source, -⟩ := Option.bind_eq_some_iff.1 ho
  obtain ⟨i, number⟩ := exists_number consumer
  obtain ⟨j, number'⟩ := exists_number source
  have place := gapped.getElem?_places number
  have place' := gapped.getElem?_places number'
  rw [← places, Array.getElem?_toList] at place place'
  refine ⟨(i, target.slot, ⟨j, wire.source.slot, wire.relays⟩), ?_, ?_⟩
  · simp only [asPending?, ranks_of_number number, ranks_of_number number']
    rfl
  · simp only [replaced?, ends?, asPending?, place, place']
    cases (graph.withoutNodes gone).ranks[target.node.index]?.join with
    | none => rfl
    | some k => cases (graph.withoutNodes gone).ranks[wire.source.node.index]?.join <;> rfl

omit wired in
theorem count_gaps : placed.countP Option.isNone =
    graph.live.countP fun entry => gone.contains entry.1 := by
  rw [← Array.countP_toList, places, countP_places, List.countP_map]
  exact List.countP_congr fun entry he => by rw [gapped entry.1 entry.2 (mem_live.1 he)]; rfl

omit gapped places in
variable (gone) in
theorem isNone_asPending {target : InputRef} {wire : Wire} (mem : (target, wire) ∈ graph.wires) :
    (asPending? (graph.withoutNodes gone).ranks (target, wire)).isNone =
      !Keep.off gone wire.source target := by
  obtain ⟨input, hi, hw⟩ := mem_wires.1 mem
  obtain ⟨node, consumer, -⟩ := Option.bind_eq_some_iff.1 hi
  obtain ⟨output, ho, -⟩ := wired.source hi hw
  obtain ⟨node', source, -⟩ := Option.bind_eq_some_iff.1 ho
  have first := isSome_ranks_withoutNodes gone (Option.isSome_of_eq_some consumer)
  have second := isSome_ranks_withoutNodes gone (Option.isSome_of_eq_some source)
  rw [Keep.off, ← first, ← second]
  simp only [asPending?]
  cases (graph.withoutNodes gone).ranks[target.node.index]?.join with
  | none => simp
  | some k => cases (graph.withoutNodes gone).ranks[wire.source.node.index]?.join <;> rfl

/-- The wires that are put in are those in the table of the graph without the other nodes. -/
theorem replaced_wires :
    (graph.wires.filterMap (asPending? graph.ranks)).filterMap (replaced? placed) =
    (graph.withoutNodes gone).wires.filterMap (asPending? (graph.withoutNodes gone).ranks) := by
  rw [List.filterMap_filterMap, wires_withoutNodes, List.filterMap_filter]
  refine List.filterMap_congr fun (target, wire) mem => ?_
  obtain ⟨pending, entered, same⟩ := gapped.replaced_asPending places wired mem
  rw [entered, Option.bind_some, same]
  have stays := isNone_asPending gone wired mem
  dsimp only
  by_cases keep : Keep.off gone wire.source target
  · rw [if_pos keep]
  · rw [if_neg keep]
    simpa [Bool.eq_false_iff.2 keep] using stays

/-- The other wires are left out. -/
theorem count_wires : (graph.wires.filterMap (asPending? graph.ranks)).countP
      (fun wire => (ends? placed wire).isNone) =
    graph.wires.countP fun (target, wire) =>
      gone.contains wire.source.node || gone.contains target.node := by
  rw [List.countP_filterMap]
  refine List.countP_congr fun (target, wire) mem => ?_
  obtain ⟨pending, entered, same⟩ := gapped.replaced_asPending places wired mem
  have stays := isNone_asPending gone wired mem
  rw [← same, replaced?, Option.isNone_map] at stays
  rw [entered, Option.map_some, Option.getD_some, stays]
  simp [Keep.off]

end Graph.Gapped

end NodeScript
