import NodeScript.Proofs.Format.Mirrored
import NodeScript.Proofs.Format.Rewired

/-!
The wires of a graph by the numbers of their nodes. Main statements: `wiresTo_eq`, which gives
the wires that lead to an input in the table of a graph, and `Mirrored.connectable`: they could all
stand in a graph that has the nodes of the first one at the places of their numbers.
-/

set_option autoImplicit false
set_option relaxedAutoImplicit false

namespace NodeScript

open Relation NodeScript.Graph Format

variable {registry : Registry} {graph next : Graph}

/-- A wire in the table is a certain wire of a graph. -/
structure Format.PendingWire.Numbers (graph : Graph) (pending : PendingWire) (target : InputRef)
    (wire : Wire) : Prop where
  consumer : ∃ node, graph.live[pending.1]? = some (target.node, node)
  slot : pending.2.1 = target.slot
  source : ∃ node, graph.live[pending.2.2.source]? = some (wire.source.node, node)
  output : pending.2.2.output = wire.source.slot

theorem Graph.getElem?_items
    (all : ∀ entry ∈ graph.live, (graph.record? graph.ranks registry current entry.2).isSome)
    {i : Nat} {item : Node × NodeRecord} : (graph.items registry)[i]? = some item ↔
      ∃ id, graph.live[i]? = some (id, item.1) ∧
        graph.record? graph.ranks registry current item.1 = some item.2 := by
  rw [items, getElem?_filterMap fun entry he => by simpa using all entry he]
  simp only [Option.bind_eq_some_iff, Option.map_eq_some_iff, Prod.exists]
  constructor
  · rintro ⟨id, node, here, record, recorded, rfl⟩
    exact ⟨id, here, recorded⟩
  · rintro ⟨id, here, recorded⟩
    exact ⟨id, item.1, here, item.2, recorded, rfl⟩

theorem Format.mem_wiresFrom {records : List NodeRecord} {pending : PendingWire} :
    pending ∈ wiresFrom 0 records ↔ ∃ record wires, records[pending.1]? = some record ∧
      record.inputs[pending.2.1]? = some wires ∧ pending.2.2 ∈ wires := by
  obtain ⟨consumer, slot, wire⟩ := pending
  simp only [wiresFrom, List.mem_flatMap, List.mem_map, Prod.exists, List.mem_zipIdx_iff_getElem?,
    Prod.mk.injEq]
  constructor
  · rintro ⟨record, _, found, wires, _, found', _, mem, rfl, rfl, rfl⟩
    exact ⟨record, wires, found, found', mem⟩
  · rintro ⟨record, wires, found, found', mem⟩
    exact ⟨record, consumer, found, wires, slot, found', wire, mem, rfl, rfl, rfl⟩

private theorem filter_flatMap_zipIdx {α β : Type} {make : α × Nat → List β} {test : β → Bool}
    {items : List α} {first i : Nat} {a : α} (found : items[i]? = some a)
    (others : ∀ b k, k ≠ first + i → (make (b, k)).filter test = []) :
    ((items.zipIdx first).flatMap make).filter test = (make (a, first + i)).filter test := by
  have none (items : List α) (n : Nat) (later : first + i < n) :
      ((items.zipIdx n).flatMap make).filter test = [] := by
    induction items generalizing n with
    | nil => rfl
    | cons b items ih =>
      rw [List.zipIdx_cons, List.flatMap_cons, List.filter_append, others b n (by omega),
        ih (n + 1) (by omega), List.append_nil]
  induction items generalizing first i with
  | nil => simp at found
  | cons b items ih =>
    rw [List.zipIdx_cons, List.flatMap_cons, List.filter_append]
    cases i with
    | zero =>
      obtain rfl : b = a := by simpa using found
      rw [none items (first + 1) (by omega), List.append_nil, Nat.add_zero]
    | succ i =>
      have same : first + 1 + i = first + (i + 1) := by omega
      have rest : ((items.zipIdx (first + 1)).flatMap make).filter test =
          (make (a, first + 1 + i)).filter test :=
        ih (by simpa using found) (fun c k other => others c k (by omega))
          fun items n later => none items n (by omega)
      rw [others b first (by omega), List.nil_append, rest, same]

/-- The wires that lead to an input in the table of a graph are those of the input. -/
theorem Format.wiresTo_eq
    (all : ∀ entry ∈ graph.live, (graph.record? graph.ranks registry current entry.2).isSome)
    {i slot : Nat} {id : NodeId} {node : Node} {input : Input}
    (here : graph.live[i]? = some (id, node)) (found : node.inputs[slot]? = some input) :
    wiresTo (wiresFrom 0 ((graph.items registry).map (·.2))) ⟨⟨i⟩, slot⟩ =
      numbered graph.ranks (fun source wire => ⟨⟨⟨source⟩, wire.source.slot⟩, wire.relays⟩)
        input := by
  obtain ⟨record, recorded⟩ := Option.isSome_iff_exists.1 (all _ (List.mem_of_getElem? here))
  have item : ((graph.items registry).map (·.2))[i]? = some record := by
    have entry : (graph.items registry)[i]? = some (node, record) :=
      (getElem?_items all).2 ⟨id, here, recorded⟩
    rw [List.getElem?_map, entry]
    rfl
  obtain ⟨name, -, rfl⟩ := Option.map_eq_some_iff.1 recorded
  have wires : (node.inputs.map (numbered graph.ranks fun source (wire : Wire) =>
      WireRecord.mk source wire.source.slot wire.relays))[slot]? = some (numbered graph.ranks
        (fun source wire => ⟨source, wire.source.slot, wire.relays⟩) input) := by
    rw [List.getElem?_map, found]
    rfl
  rw [wiresTo, wiresFrom, filter_flatMap_zipIdx item, filter_flatMap_zipIdx wires]
  · rw [List.filter_eq_self.2 (by simp [PendingWire.target]), List.map_map, numbered, numbered,
      List.map_filterMap]
    congr 1
    funext wire
    cases graph.ranks[wire.source.node.index]?.join <;> rfl
  · intro wires other apart
    rw [List.filter_eq_nil_iff]
    simp only [Nat.zero_add] at apart
    simp [PendingWire.target, apart]
  · intro record other apart
    rw [List.filter_eq_nil_iff]
    intro pending mem
    obtain ⟨⟨wires, slot⟩, -, mem⟩ := List.mem_flatMap.1 mem
    obtain ⟨wire, -, rfl⟩ := List.mem_map.1 mem
    simp only [Nat.zero_add] at apart
    simp [PendingWire.target, apart]

theorem Format.exists_of_mem_wiresFrom
    (all : ∀ entry ∈ graph.live, (graph.record? graph.ranks registry current entry.2).isSome)
    {pending : PendingWire} (mem : pending ∈ wiresFrom 0 ((graph.items registry).map (·.2))) :
    ∃ target input wire, graph.input? target = some input ∧ wire ∈ input.wires ∧
      pending.Numbers graph target wire := by
  obtain ⟨record, wires, item, found, mem⟩ := mem_wiresFrom.1 mem
  rw [List.getElem?_map, Option.map_eq_some_iff] at item
  obtain ⟨⟨node, record⟩, item, rfl⟩ := item
  obtain ⟨id, here, recorded⟩ := (getElem?_items all).1 item
  obtain ⟨name, -, made⟩ := Option.map_eq_some_iff.1 recorded
  dsimp only at found here made
  rw [← made, List.getElem?_map, Option.map_eq_some_iff] at found
  obtain ⟨input, found, rfl⟩ := found
  obtain ⟨wire, hw, numbered⟩ := List.mem_filterMap.1 mem
  obtain ⟨source, rank, same⟩ := Option.map_eq_some_iff.1 numbered
  refine ⟨⟨id, pending.2.1⟩, input, wire, ?_, hw, ⟨node, here⟩, rfl, ?_, by rw [← same]⟩
  · rw [input?, node?_of_number here]
    exact found
  · rw [← same]
    exact ranks_eq_some_iff.1 rank

namespace Format.Mirrored

variable (mirrored : Mirrored graph next)
include mirrored

private theorem ports? {i : Nat} {id : NodeId} (number : ∃ node, graph.live[i]? = some (id, node)) :
    (next.form? ⟨i⟩).map (·.ports) = (graph.form? id).map (·.ports) := by
  obtain ⟨node, number⟩ := number
  obtain ⟨kind, -, found⟩ := mirrored.form? number
  rw [found, form?_eq_of_node? (node?_of_number number)]
  rfl

theorem inputPort? {pending : PendingWire} {target : InputRef} {wire : Wire}
    (numbers : pending.Numbers graph target wire) :
    next.inputPort? pending.target = graph.inputPort? target := by
  have ports := congrArg (Option.bind · (·.inputs[target.slot]?)) (mirrored.ports? numbers.consumer)
  rw [Graph.inputPort?, Graph.inputPort?, PendingWire.target, numbers.slot]
  simpa [Option.bind_map, Function.comp_def] using ports

theorem outputPort? {pending : PendingWire} {target : InputRef} {wire : Wire}
    (numbers : pending.Numbers graph target wire) :
    next.outputPort? pending.source = graph.outputPort? wire.source := by
  have ports := congrArg (Option.bind · (·.outputs[wire.source.slot]?))
    (mirrored.ports? numbers.source)
  rw [Graph.outputPort?, Graph.outputPort?, PendingWire.source, numbers.output]
  simpa [Option.bind_map, Function.comp_def] using ports

end Format.Mirrored

private theorem target_unique {pending other : PendingWire} {target target' : InputRef}
    {wire wire' : Wire} (numbers : pending.Numbers graph target wire)
    (numbers' : other.Numbers graph target' wire') (same : pending.target = other.target) :
    target = target' := by
  obtain ⟨node, here⟩ := numbers.consumer
  obtain ⟨node', here'⟩ := numbers'.consumer
  obtain ⟨number, slot⟩ : pending.1 = other.1 ∧ pending.2.1 = other.2.1 := by
    simpa [PendingWire.target] using same
  rw [number, here', Option.some.injEq, Prod.mk.injEq] at here
  rw [numbers.slot, numbers'.slot] at slot
  rw [InputRef.mk.injEq ..]
  exact ⟨here.1.symm, slot⟩

private theorem source_unique {pending other : PendingWire} {target target' : InputRef}
    {wire wire' : Wire} (numbers : pending.Numbers graph target wire)
    (numbers' : other.Numbers graph target' wire') (same : pending.source = other.source) :
    wire.source = wire'.source := by
  obtain ⟨node, here⟩ := numbers.source
  obtain ⟨node', here'⟩ := numbers'.source
  obtain ⟨number, slot⟩ :
      pending.2.2.source = other.2.2.source ∧ pending.2.2.output = other.2.2.output := by
    simpa [PendingWire.source] using same
  rw [number, here', Option.some.injEq, Prod.mk.injEq] at here
  rw [numbers.output, numbers'.output] at slot
  rw [OutputRef.mk.injEq ..]
  exact ⟨here.1.symm, slot⟩

private theorem source_eq {pending other : PendingWire} {target target' : InputRef}
    {wire wire' : Wire} (numbers : pending.Numbers graph target wire)
    (numbers' : other.Numbers graph target' wire') (same : wire.source = wire'.source) :
    pending.source = other.source := by
  obtain ⟨node, here⟩ := numbers.source
  obtain ⟨node', here'⟩ := numbers'.source
  rw [← same] at here'
  rw [PendingWire.source, PendingWire.source, number_unique here here', numbers.output,
    numbers'.output, same]

private theorem target_eq {pending other : PendingWire} {target target' : InputRef}
    {wire wire' : Wire} (numbers : pending.Numbers graph target wire)
    (numbers' : other.Numbers graph target' wire') (same : target = target') :
    pending.target = other.target := by
  obtain ⟨node, here⟩ := numbers.consumer
  obtain ⟨node', here'⟩ := numbers'.consumer
  rw [← same] at here'
  rw [PendingWire.target, PendingWire.target, number_unique here here', numbers.slot,
    numbers'.slot, same]

private theorem nodup_of_keys {α β κ : Type} [DecidableEq κ] {view : α → β} (key : α → κ)
    (keyed : ∀ a b, view a = view b → key a = key b) {items : List α}
    (each : ∀ k, ((items.filter (key · = k)).map view).Nodup) : (items.map view).Nodup := by
  induction items with
  | nil => exact List.nodup_nil
  | cons a items ih =>
    rw [List.map_cons, List.nodup_cons]
    refine ⟨fun repeated => ?_, ih fun k => ?_⟩
    · obtain ⟨b, hb, same⟩ := List.mem_map.1 repeated
      have alone := each (key a)
      rw [List.filter_cons_of_pos (by simp), List.map_cons, List.nodup_cons] at alone
      exact alone.1 (List.mem_map.2 ⟨b, List.mem_filter.2 ⟨hb, by simp [keyed b a same]⟩, same⟩)
    · exact (each k).sublist ((List.Sublist.filter _ (List.sublist_cons_self a items)).map view)

/-- No wire stands in the table twice. -/
private theorem nodup_wiresFrom (wired : graph.Wired)
    (all : ∀ entry ∈ graph.live, (graph.record? graph.ranks registry current entry.2).isSome) :
    ((wiresFrom 0 ((graph.items registry).map (·.2))).map fun wire =>
      (wire.source, wire.target)).Nodup := by
  refine nodup_of_keys PendingWire.target (fun _ _ same => congrArg Prod.snd same)
    fun ref => ?_
  by_cases empty : (wiresFrom 0 ((graph.items registry).map (·.2))).filter (·.target = ref) = []
  · rw [empty]
    exact List.nodup_nil
  · obtain ⟨pending, mem⟩ := List.exists_mem_of_ne_nil _ empty
    obtain ⟨mem, leads⟩ := List.mem_filter.1 mem
    obtain ⟨target, input, wire, hi, -, numbers⟩ := exists_of_mem_wiresFrom all mem
    obtain ⟨node, here⟩ := numbers.consumer
    have found := hi
    rw [input?, node?_of_number here, Option.bind_some, ← numbers.slot] at found
    have into := wiresTo_eq all here found
    have named : (⟨⟨pending.1⟩, pending.2.1⟩ : InputRef) = ref := of_decide_eq_true leads
    rw [named] at into
    refine List.Nodup.of_map Prod.fst ?_
    have sources := congrArg (List.map Wire.source) into
    rw [wiresTo, List.map_map] at sources
    rw [List.map_map]
    refine Eq.subst (motive := List.Nodup) sources.symm ?_
    have renamed : (numbered graph.ranks (fun source wire => (⟨⟨⟨source⟩, wire.source.slot⟩,
        wire.relays⟩ : Wire)) input).map Wire.source = (input.wires.map Wire.source).filterMap
          fun source => graph.ranks[source.node.index]?.join.map (⟨⟨·⟩, source.slot⟩) := by
      rw [numbered, List.map_filterMap, List.filterMap_map]
      simp only [Option.map_map]
      rfl
    rw [renamed]
    refine (wired.nodupSources hi).filterMap fun a b ref ha hb => ?_
    obtain ⟨i, hi, rfl⟩ := Option.map_eq_some_iff.1 ha
    obtain ⟨j, hj, same⟩ := Option.map_eq_some_iff.1 hb
    simp only [OutputRef.mk.injEq, NodeId.mk.injEq] at same
    obtain ⟨_, first⟩ := ranks_eq_some_iff.1 hi
    obtain ⟨_, second⟩ := ranks_eq_some_iff.1 hj
    rw [same.1, first, Option.some.injEq, Prod.mk.injEq] at second
    rw [OutputRef.mk.injEq ..]
    exact ⟨second.1, same.2.symm⟩

private def Graph.original (graph : Graph) (id : NodeId) : NodeId :=
  (graph.live[id.index]?.map (·.1)).getD id

private theorem eq_of_length_le_one {α : Type} {items : List α} (few : items.length ≤ 1) {a b : α}
    (ha : a ∈ items) (hb : b ∈ items) : a = b := by
  match items, few with
  | [c], _ => rw [List.mem_singleton.1 ha, List.mem_singleton.1 hb]

/-- The wires of a graph could all stand in one that has its nodes without their wires. -/
theorem Format.Mirrored.connectable (mirrored : Mirrored graph next) (wired : graph.Wired)
    (acyclic : graph.Acyclic)
    (all : ∀ entry ∈ graph.live, (graph.record? graph.ranks registry current entry.2).isSome) :
    Connectable next (wiresFrom 0 ((graph.items registry).map (·.2))) where
  ports pending mem := by
    obtain ⟨target, input, wire, hi, hw, numbers⟩ := exists_of_mem_wiresFrom all mem
    obtain ⟨output, ho, -, same⟩ := wired.source hi hw
    refine ⟨output.port, input.port, ?_, ?_, same⟩
    · rw [mirrored.outputPort? numbers, outputPort?_eq, ho]
      rfl
    · rw [mirrored.inputPort? numbers, inputPort?_eq, hi]
      rfl
  distinct := nodup_wiresFrom wired all
  oneSource pending mem other mem' same value := by
    obtain ⟨target, input, wire, hi, hw, numbers⟩ := exists_of_mem_wiresFrom all mem
    obtain ⟨target', input', wire', hi', hw', numbers'⟩ := exists_of_mem_wiresFrom all mem'
    obtain rfl := target_unique numbers numbers' same
    rw [hi, Option.some.injEq] at hi'
    subst hi'
    obtain ⟨port, found, value⟩ := value
    rw [mirrored.inputPort? numbers, inputPort?_eq, hi, Option.map_some, Option.some.injEq] at found
    subst found
    have alone := eq_of_length_le_one (wired.oneSource hi value) hw hw'
    exact source_eq numbers numbers' (congrArg Wire.source alone)
  oneTarget pending mem other mem' same signal := by
    obtain ⟨target, input, wire, hi, hw, numbers⟩ := exists_of_mem_wiresFrom all mem
    obtain ⟨target', input', wire', hi', hw', numbers'⟩ := exists_of_mem_wiresFrom all mem'
    obtain ⟨output, ho, ht, -⟩ := wired.source hi hw
    obtain ⟨output', ho', ht', -⟩ := wired.source hi' hw'
    rw [← source_unique numbers numbers' same, ho, Option.some.injEq] at ho'
    subst ho'
    obtain ⟨port, found, signal⟩ := signal
    rw [mirrored.outputPort? numbers, outputPort?_eq, ho, Option.map_some,
      Option.some.injEq] at found
    subst found
    exact target_eq numbers numbers'
      (eq_of_length_le_one (wired.oneTarget ho signal) ht ht')
  acyclic id loop := by
    refine acyclic (graph.original id)
      (TransGen.lift graph.original (fun a b supplies => ?_) _ _ loop)
    obtain ⟨pending, mem, rfl, rfl, port, found, value⟩ := supplies
    obtain ⟨target, input, wire, hi, hw, numbers⟩ := exists_of_mem_wiresFrom all mem
    rw [mirrored.inputPort? numbers, inputPort?_eq, hi, Option.map_some, Option.some.injEq] at found
    subst found
    obtain ⟨node, consumer⟩ := numbers.consumer
    obtain ⟨node', source⟩ := numbers.source
    have first : graph.original pending.target.node = target.node := by
      simp [original, PendingWire.target, consumer]
    have second : graph.original pending.source.node = wire.source.node := by
      simp [original, PendingWire.source, source]
    show graph.Reads (graph.original pending.target.node) (graph.original pending.source.node)
    rw [first, second]
    exact reads_iff.2 ⟨target.slot, input, wire, hi, value, hw, rfl⟩

end NodeScript
