import Mathlib.Data.List.Induction
import NodeScript.Format.Load
import NodeScript.Proofs.Graph.Acyclic
import NodeScript.Proofs.Graph.Form

/-!
Wires put into a graph that has none. A list of wires that could all stand in one graph is put in
whatever its order is: none of them takes the place of another, and none closes a loop. Main
statement: `Connectable.connectAll`.
-/

set_option autoImplicit false
set_option relaxedAutoImplicit false

namespace NodeScript

open Relation

namespace Format.PendingWire

/-- The output that a wire comes from, where each node stands at the place of its number. -/
def source (wire : PendingWire) : OutputRef := ⟨⟨wire.2.2.source⟩, wire.2.2.output⟩

/-- The input that a wire leads to, where each node stands at the place of its number. -/
def target (wire : PendingWire) : InputRef := ⟨⟨wire.1⟩, wire.2.1⟩

def wire (wire : PendingWire) : Wire := ⟨wire.source, wire.2.2.relays⟩

end Format.PendingWire

open NodeScript.Graph Format

def Format.Supplies (graph : Graph) (wires : List PendingWire) (id other : NodeId) : Prop :=
  ∃ wire ∈ wires, wire.target.node = id ∧ wire.source.node = other ∧
    ∃ port, graph.inputPort? wire.target = some port ∧ port.isSignal = false

/-- The wires could all stand in a graph with the ports of the given one. -/
structure Format.Connectable (graph : Graph) (wires : List PendingWire) : Prop where
  ports : ∀ wire ∈ wires, ∃ output input, graph.outputPort? wire.source = some output ∧
    graph.inputPort? wire.target = some input ∧ output.type.same input.type = true
  distinct : (wires.map fun wire => (wire.source, wire.target)).Nodup
  oneSource : ∀ wire ∈ wires, ∀ other ∈ wires, wire.target = other.target →
    (∃ port, graph.inputPort? wire.target = some port ∧ port.isSignal = false) →
    wire.source = other.source
  oneTarget : ∀ wire ∈ wires, ∀ other ∈ wires, wire.source = other.source →
    (∃ port, graph.outputPort? wire.source = some port ∧ port.isSignal = true) →
    wire.target = other.target
  acyclic : ∀ id, ¬TransGen (Supplies graph wires) id id

namespace Format

variable {graph next : Graph} {wires : List PendingWire}

theorem Connectable.init {wire : PendingWire} (connectable : Connectable graph (wires ++ [wire])) :
    Connectable graph wires where
  ports other ho := connectable.ports other (List.mem_append_left _ ho)
  distinct := connectable.distinct.sublist ((List.sublist_append_left _ _).map _)
  oneSource a ha b hb := connectable.oneSource a (List.mem_append_left _ ha) b
    (List.mem_append_left _ hb)
  oneTarget a ha b hb := connectable.oneTarget a (List.mem_append_left _ ha) b
    (List.mem_append_left _ hb)
  acyclic id loop := connectable.acyclic id (TransGen.mono (fun _ _ ⟨other, ho, rest⟩ =>
    ⟨other, List.mem_append_left _ ho, rest⟩) _ _ loop)

theorem Connectable.last_distinct {wire other : PendingWire}
    (connectable : Connectable graph (wires ++ [wire])) (ho : other ∈ wires)
    (source : other.source = wire.source) (target : other.target = wire.target) : False := by
  have nodup := connectable.distinct
  rw [List.map_append, List.nodup_append] at nodup
  exact nodup.2.2 _ (List.mem_map_of_mem ho) _ List.mem_cons_self (by rw [source, target])

def wiresTo (wires : List PendingWire) (ref : InputRef) : List Wire :=
  (wires.filter (·.target = ref)).map (·.wire)

/-- The wires of the list have been put in. -/
structure Holding (start : Graph) (wires : List PendingWire) (graph : Graph) : Prop where
  wired : graph.Wired
  acyclic : graph.Acyclic
  size : graph.arena.size = start.arena.size
  functions : graph.functions = start.functions
  structs : graph.structs = start.structs
  bare : ∀ id, graph.bare? id = start.bare? id
  wires : ∀ ref input, graph.input? ref = some input → input.wires = wiresTo wires ref

theorem mem_wiresTo {ref : InputRef} {wire : Wire} :
    wire ∈ wiresTo wires ref ↔ ∃ pending ∈ wires, pending.target = ref ∧ pending.wire = wire := by
  simp only [wiresTo, List.mem_map, List.mem_filter, decide_eq_true_eq, and_assoc]

theorem Holding.form? {start : Graph} (holding : Holding start wires graph) (id : NodeId) :
    graph.form? id = start.form? id := form?_of_bare? holding.bare id

theorem Holding.inputPort? {start : Graph} (holding : Holding start wires graph) (ref : InputRef) :
    graph.inputPort? ref = start.inputPort? ref := by
  rw [Graph.inputPort?, Graph.inputPort?, holding.form?]

theorem Holding.outputPort? {start : Graph} (holding : Holding start wires graph)
    (ref : OutputRef) : graph.outputPort? ref = start.outputPort? ref := by
  rw [Graph.outputPort?, Graph.outputPort?, holding.form?]

theorem Holding.supplies_of_reads {start : Graph} (holding : Holding start wires graph)
    {id other : NodeId} (reads : graph.Reads id other) : Supplies start wires id other := by
  obtain ⟨slot, input, wire, hi, value, hw, rfl⟩ := reads_iff.1 reads
  rw [holding.wires _ input hi] at hw
  obtain ⟨pending, hp, target, rfl⟩ := mem_wiresTo.1 hw
  refine ⟨pending, hp, by rw [target], rfl, input.port, ?_, value⟩
  rw [target, ← holding.inputPort?, inputPort?_eq, hi]
  rfl

/-- There is room for the next wire, which closes no loop. -/
theorem Holding.room {start : Graph} {wire : PendingWire} (holding : Holding start wires graph)
    (connectable : Connectable start (wires ++ [wire])) : ∃ output input,
      graph.Joinable wire.source wire.target output input ∧
        displaced wire.source wire.target output input = [] := by
  have last : wire ∈ wires ++ [wire] := List.mem_append_right _ (List.mem_singleton.2 rfl)
  have earlier {other : PendingWire} (ho : other ∈ wires) : other ∈ wires ++ [wire] :=
    List.mem_append_left _ ho
  obtain ⟨outputPort, inputPort, ho, hi, same⟩ := connectable.ports wire last
  rw [← holding.outputPort?, outputPort?_eq, Option.map_eq_some_iff] at ho
  obtain ⟨output, ho, rfl⟩ := ho
  have hi' := hi
  rw [← holding.inputPort?, inputPort?_eq, Option.map_eq_some_iff] at hi'
  obtain ⟨input, hi', rfl⟩ := hi'
  have signals : output.port.isSignal = input.port.isSignal := DataType.isSignal_of_same same
  refine ⟨output, input, ⟨ho, hi', same, fun value => ?_⟩, ?_⟩
  · rw [← Bool.not_eq_true, holding.wired.dependsOn_iff]
    intro path
    rw [signals] at value
    have supplied : Supplies start (wires ++ [wire]) wire.target.node wire.source.node :=
      ⟨wire, last, rfl, rfl, input.port, hi, value⟩
    refine connectable.acyclic _ (TransGen.head' supplied
      (ReflTransGen.mono (fun _ _ reads => ?_) _ _ path))
    obtain ⟨other, hother, rest⟩ := holding.supplies_of_reads reads
    exact ⟨other, earlier hother, rest⟩
  · unfold displaced
    split
    · rename_i signal
      rw [List.map_eq_nil_iff, List.eq_nil_iff_forall_not_mem]
      intro target ht
      obtain ⟨taken, htaken, old, hold, hs⟩ := holding.wired.target ho ht
      rw [holding.wires target taken htaken] at hold
      obtain ⟨pending, hp, rfl, rfl⟩ := mem_wiresTo.1 hold
      refine connectable.last_distinct hp hs
        (connectable.oneTarget pending (earlier hp) wire last hs ?_)
      rw [show pending.source = wire.source from hs, ← holding.outputPort?, outputPort?_eq, ho]
      exact ⟨output.port, rfl, signal⟩
    · rename_i value
      rw [List.map_eq_nil_iff, List.eq_nil_iff_forall_not_mem]
      intro old hold
      rw [holding.wires _ input hi'] at hold
      obtain ⟨pending, hp, target, rfl⟩ := mem_wiresTo.1 hold
      refine connectable.last_distinct hp
        (connectable.oneSource pending (earlier hp) wire last target ?_) target
      rw [target]
      refine ⟨input.port, hi, ?_⟩
      rw [← signals]
      exact Bool.eq_false_iff.2 value

/-- The next wire is put in. -/
theorem Holding.link {start : Graph} {wire : PendingWire} (holding : Holding start wires graph)
    (connectable : Connectable start (wires ++ [wire])) :
    graph.displacedBy wire.source wire.target = .ok [] ∧
      Holding start (wires ++ [wire]) (graph.link wire.source wire.target wire.2.2.relays []) := by
  obtain ⟨output, input, joinable, none⟩ := holding.room connectable
  have displaced := displacedBy_of_joinable joinable
  rw [none] at displaced
  have wired := holding.wired.link joinable wire.2.2.relays
  have acyclic := holding.acyclic.link holding.wired joinable wire.2.2.relays
  rw [none] at wired acyclic
  refine ⟨displaced, wired, acyclic, ?_, ?_, ?_, fun id => ?_, fun ref new hnew => ?_⟩
  · rw [link_eq_join, ← holding.size]
    simp [join, restrict, modifyInput, modifyOutput]
  · rw [link_eq_join]
    exact holding.functions
  · rw [link_eq_join]
    exact holding.structs
  · rw [bare?_link]
    exact holding.bare id
  have stays {input : Input} (hi : graph.input? ref = some input) :
      input.restrict (Keep.without ([] ++ [(wire.source, wire.target)])) ref = input := by
    refine Input.restrict_eq_self fun old hold => ?_
    rw [holding.wires ref input hi] at hold
    obtain ⟨pending, hp, target, rfl⟩ := mem_wiresTo.1 hold
    simp only [Keep.without, List.nil_append, List.contains_eq_mem, List.mem_singleton,
      Prod.mk.injEq, Bool.not_eq_true', decide_eq_false_iff_not]
    rintro ⟨source, same⟩
    exact connectable.last_distinct hp source (target.trans same)
  rw [link_eq_join, input?_join, restrict, input?_restrictEnds, input?_restrictEnds] at hnew
  rw [wiresTo, List.filter_append, List.map_append]
  split at hnew
  · subst ref
    obtain ⟨joined, hjoined, rfl⟩ := Option.map_eq_some_iff.1 hnew
    obtain ⟨old, hold, rfl⟩ := Option.map_eq_some_iff.1 hjoined
    rw [stays hold]
    simp only [holding.wires _ old hold, decide_true, List.filter_cons_of_pos, List.filter_nil,
      List.map_cons, List.map_nil]
    rfl
  · rename_i other
    obtain ⟨old, hold, rfl⟩ := Option.map_eq_some_iff.1 hnew
    rw [stays hold, holding.wires ref old hold]
    simp [wiresTo, Ne.symm other]

def replaced? (placed : Array (Option NodeId)) (wire : PendingWire) : Option PendingWire :=
  (ends? placed wire).map fun (source, target) =>
    (target.node.index, target.slot, ⟨source.node.index, source.slot, wire.2.2.relays⟩)

/-- Of the wires of a table those are put in whose nodes were both placed, if these could all stand
in the graph, and the others are counted. -/
theorem Connectable.connectAll {start : Graph} {placed : Array (Option NodeId)}
    {table : List PendingWire}
    (connectable : Connectable start (table.filterMap (replaced? placed)))
    (empty : Holding start [] start) :
    ∃ last, table.foldl (connectNext placed) (start, 0) =
        (last, table.countP fun wire => (ends? placed wire).isNone) ∧
      Holding start (table.filterMap (replaced? placed)) last := by
  induction table using List.reverseRecOn with
  | nil => exact ⟨start, rfl, empty⟩
  | append_singleton table wire ih =>
    rw [List.filterMap_append] at connectable ⊢
    rw [List.foldl_append, List.foldl_cons, List.foldl_nil, List.countP_append]
    cases ends : ends? placed wire with
    | none =>
      have gap : [wire].filterMap (replaced? placed) = [] := by simp [replaced?, ends]
      rw [gap, List.append_nil] at connectable ⊢
      obtain ⟨last, earlier, holding⟩ := ih connectable
      refine ⟨last, ?_, holding⟩
      rw [earlier, connectNext]
      simp only [ends]
      simp [ends]
    | some both =>
      have next : [wire].filterMap (replaced? placed) = [(both.2.node.index, both.2.slot,
          ⟨both.1.node.index, both.1.slot, wire.2.2.relays⟩)] := by simp [replaced?, ends]
      rw [next] at connectable ⊢
      obtain ⟨middle, earlier, holding⟩ := ih connectable.init
      obtain ⟨displaced, linked⟩ := holding.link connectable
      refine ⟨_, ?_, linked⟩
      rw [earlier, connectNext]
      simp only [ends]
      rw [show middle.displacedBy both.1 both.2 = .ok [] from displaced]
      simp [ends]
      rfl

end Format

end NodeScript
