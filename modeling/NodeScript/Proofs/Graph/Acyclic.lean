import NodeScript.Proofs.Graph.Search
import NodeScript.Proofs.Graph.Wired

/-!
Values never depend on themselves. `Graph.Reads` relates a node to the nodes whose values its
inputs read. Main statements: the search before a new wire decides the paths of this relation
(`Wired.dependsOn_iff`), and every operation on wires keeps the relation without loops.
-/

set_option autoImplicit false
set_option relaxedAutoImplicit false

namespace NodeScript

open Relation

namespace Graph

/-- A node reads a value of another one directly. -/
def Reads (graph : Graph) (id other : NodeId) : Prop := other ∈ graph.suppliers id

/-- No value depends on itself. -/
def Acyclic (graph : Graph) : Prop := ∀ id, ¬TransGen graph.Reads id id

variable {graph next : Graph}

private theorem mem_suppliersOf {other : NodeId} : ∀ {inputs : List Input},
    other ∈ suppliersOf inputs ↔ ∃ input ∈ inputs, input.port.isSignal = false ∧
      ∃ wire ∈ input.wires, wire.source.node = other
  | [] => by simp [suppliersOf]
  | input :: inputs => by
    rw [suppliersOf]
    split
    · rename_i signal
      simp [mem_suppliersOf, signal]
    · rename_i value
      simp [mem_suppliersOf, value]

theorem reads_iff {id other : NodeId} : graph.Reads id other ↔
    ∃ slot input wire, graph.input? ⟨id, slot⟩ = some input ∧ input.port.isSignal = false ∧
      wire ∈ input.wires ∧ wire.source.node = other := by
  unfold Reads suppliers
  cases hn : graph.node? id with
  | none => simp [input?, hn]
  | some node =>
    simp only [mem_suppliersOf, input?, hn, Option.bind_some]
    constructor
    · rintro ⟨input, hi, hv, wire, hw, hs⟩
      obtain ⟨slot, hslot⟩ := List.mem_iff_getElem?.1 hi
      exact ⟨slot, input, wire, hslot, hv, hw, hs⟩
    · rintro ⟨slot, input, wire, hslot, hv, hw, hs⟩
      exact ⟨input, List.mem_of_getElem? hslot, hv, wire, hw, hs⟩

private theorem step_iff_reads (graph : Graph) (id other : NodeId) :
    Search.Step graph.suppliers
        (fun id => (Array.replicate graph.arena.size true)[id.index]? = some true) id other ↔
      graph.Reads id other := by
  refine ⟨And.right, fun reads => ⟨?_, reads⟩⟩
  obtain ⟨slot, input, wire, hi, -⟩ := reads_iff.1 reads
  obtain ⟨node, hn, -⟩ := Option.bind_eq_some_iff.1 hi
  rw [Array.getElem?_replicate, if_pos (index_lt_of_node? hn)]

private theorem Wired.isRead (wired : graph.Wired) {id other : NodeId}
    (reads : graph.Reads id other) : graph.isRead other = true := by
  obtain ⟨slot, input, wire, hi, hv, hw, rfl⟩ := reads_iff.1 reads
  obtain ⟨output, ho, ht, same⟩ := wired.source hi hw
  obtain ⟨node, hn, ho⟩ := Option.bind_eq_some_iff.1 ho
  have value : output.port.isSignal = false := (DataType.isSignal_of_same same).trans hv
  rw [Graph.isRead, hn, Option.any_some, List.any_eq_true]
  refine ⟨output, List.mem_of_getElem? ho, ?_⟩
  simp [value, List.ne_nil_of_mem ht]

/-- The search decides whether a value of one node depends on a value of another. -/
theorem Wired.dependsOn_iff (wired : graph.Wired) (id other : NodeId) :
    graph.dependsOn id other = true ↔ ReflTransGen graph.Reads id other := by
  have injective : Function.Injective NodeId.index := fun a b h => by cases a; cases b; simp_all
  have search := leadsToMarked_iff injective graph.suppliers (· == other)
    (.replicate graph.arena.size true) [id]
  simp only [Search.Finds, List.mem_singleton, exists_eq_left, beq_iff_eq,
    funext₂ fun a b => propext (step_iff_reads graph a b)] at search
  rw [dependsOn, Bool.or_eq_true, beq_iff_eq, Bool.and_eq_true, search]
  constructor
  · rintro (rfl | ⟨-, path⟩)
    · exact .refl
    · exact path
  · intro path
    rcases path.cases_tail with rfl | ⟨y, -, last⟩
    · exact .inl rfl
    · exact .inr ⟨wired.isRead last, path⟩

theorem acyclic_empty : empty.Acyclic := by
  have none (id other : NodeId) : ¬empty.Reads id other := by simp [Reads, suppliers, empty, node?]
  intro id path
  obtain ⟨other, reads, -⟩ := TransGen.head'_iff.1 path
  exact none id other reads

theorem Acyclic.mono (acyclic : graph.Acyclic)
    (fewer : ∀ id other, next.Reads id other → graph.Reads id other) : next.Acyclic := by
  intro id path
  exact acyclic id (TransGen.mono fewer _ _ path)

theorem Acyclic.of_inputs (acyclic : graph.Acyclic)
    (inputs : ∀ ref input, next.input? ref = some input → input.wires ≠ [] →
      ∃ old, graph.input? ref = some old ∧ old.port = input.port ∧ input.wires ⊆ old.wires) :
    next.Acyclic := by
  refine acyclic.mono fun id other reads => ?_
  obtain ⟨slot, input, wire, hi, hv, hw, hs⟩ := reads_iff.1 reads
  obtain ⟨old, hold, hport, hwires⟩ := inputs _ input hi (List.ne_nil_of_mem hw)
  rw [← hport] at hv
  exact reads_iff.2 ⟨slot, old, wire, hold, hv, hwires hw, hs⟩

theorem reads_of_restrict {keep : Keep} {id other : NodeId}
    (reads : (graph.restrict keep).Reads id other) : graph.Reads id other := by
  obtain ⟨slot, input, wire, hi, hv, hw, hs⟩ := reads_iff.1 reads
  rw [Graph.restrict, input?_restrictEnds, Option.map_eq_some_iff] at hi
  obtain ⟨old, hold, rfl⟩ := hi
  exact reads_iff.2 ⟨slot, old, wire, hold, hv, (List.mem_filter.1 hw).1, hs⟩

theorem Acyclic.restrict (acyclic : graph.Acyclic) (keep : Keep) :
    (graph.restrict keep).Acyclic := by
  refine acyclic.mono fun _ _ => ?_
  exact reads_of_restrict

theorem Acyclic.clear (acyclic : graph.Acyclic) (id : NodeId) : (graph.clear id).Acyclic := by
  refine acyclic.of_inputs fun ref input hi _ => ?_
  rw [input?_clear] at hi
  split at hi
  · simp at hi
  · exact ⟨input, hi, rfl, fun _ h => h⟩

theorem Acyclic.push (acyclic : graph.Acyclic) {node : Node}
    (inputs : ∀ input ∈ node.inputs, input.wires = []) : (graph.push node).2.Acyclic := by
  refine acyclic.of_inputs fun ref input hi wires => ?_
  rw [input?, node?_push] at hi
  split at hi
  · exact absurd (inputs input (List.mem_of_getElem? hi)) wires
  · exact ⟨input, hi, rfl, fun _ h => h⟩

/-- A wire closes no loop where the node it comes from does not depend on the one it leads to. -/
theorem Acyclic.join (acyclic : graph.Acyclic) {source : OutputRef} {target : InputRef}
    {input : Input} (hi : graph.input? target = some input)
    (free : input.port.isSignal = false → ¬ReflTransGen graph.Reads source.node target.node)
    (relays : List Position) : (graph.join source target relays).Acyclic := by
  by_cases signal : input.port.isSignal = true
  · refine acyclic.mono fun id other reads => ?_
    obtain ⟨slot, new, wire, hnew, hv, hw, hs⟩ := reads_iff.1 reads
    rw [input?_join, hi] at hnew
    split at hnew
    · cases hnew
      exact absurd hv (by simp [signal])
    · exact reads_iff.2 ⟨slot, new, wire, hnew, hv, hw, hs⟩
  · have value : input.port.isSignal = false := by simpa using signal
    have pairs (id other : NodeId) (reads : (graph.join source target relays).Reads id other) :
        graph.Reads id other ∨ (id = target.node ∧ other = source.node) := by
      obtain ⟨slot, new, wire, hnew, hv, hw, hs⟩ := reads_iff.1 reads
      rw [input?_join, hi] at hnew
      split at hnew
      · rename_i href
        cases hnew
        rcases List.mem_append.1 hw with hw | hw
        · rw [← href] at hi
          exact .inl (reads_iff.2 ⟨slot, input, wire, hi, hv, hw, hs⟩)
        · rw [List.mem_singleton.1 hw] at hs
          exact .inr ⟨congrArg InputRef.node href, hs.symm⟩
      · exact .inl (reads_iff.2 ⟨slot, new, wire, hnew, hv, hw, hs⟩)
    intro id path
    rcases transGen_of_added pairs path with path | ⟨_, _, ⟨rfl, upTo⟩, rfl, onwards⟩
    · exact acyclic id path
    · exact free value (onwards.trans upTo)

/-- What is asked of two ports before a wire is put between them. -/
structure Joinable (graph : Graph) (source : OutputRef) (target : InputRef) (output : Output)
    (input : Input) : Prop where
  outputAt : graph.output? source = some output
  inputAt : graph.input? target = some input
  same : output.port.type.same input.port.type = true
  free : output.port.isSignal = false → graph.dependsOn source.node target.node = false

variable {source : OutputRef} {target : InputRef} {output : Output} {input : Input}

theorem displacedBy_of_joinable (joinable : graph.Joinable source target output input) :
    graph.displacedBy source target = .ok (displaced source target output input) := by
  have noLoop : (!output.port.isSignal && graph.dependsOn source.node target.node) = false := by
    cases value : output.port.isSignal with
    | true => rfl
    | false => simp [joinable.free value]
  simp [displacedBy, output_eq_ok_iff.2 joinable.outputAt, input_eq_ok_iff.2 joinable.inputAt,
    joinable.same, noLoop, bind, Except.bind, pure, Except.pure]

theorem joinable_of_displacedBy {others : List (OutputRef × InputRef)}
    (accepted : graph.displacedBy source target = .ok others) :
    ∃ output input, graph.Joinable source target output input ∧
      others = displaced source target output input := by
  unfold displacedBy at accepted
  cases ho : graph.output source with
  | error reason => simp [ho, bind, Except.bind] at accepted
  | ok output =>
  cases hi : graph.input target with
  | error reason => simp [ho, hi, bind, Except.bind] at accepted
  | ok input =>
  simp only [ho, hi, bind, Except.bind, pure, Except.pure, DataType.fits_eq_same] at accepted
  split at accepted
  · simp [throw, throwThe, MonadExceptOf.throw] at accepted
  rename_i same
  split at accepted
  · simp [throw, throwThe, MonadExceptOf.throw] at accepted
  rename_i free
  refine ⟨output, input, ⟨output_eq_ok_iff.1 ho, input_eq_ok_iff.1 hi, by simpa using same, ?_⟩, ?_⟩
  · intro value
    simpa [value] using free
  · simpa using accepted.symm

private theorem wired_rejoin (wired : graph.Wired)
    (joinable : graph.Joinable source target output input) {keep : Keep}
    (gone : keep source target = false)
    (inputs : output.port.isSignal = false → ∀ wire ∈ input.wires, keep wire.source target = false)
    (outputs : output.port.isSignal = true → ∀ t ∈ output.targets, keep source t = false)
    (relays : List Position) : ((graph.restrict keep).join source target relays).Wired := by
  have ho : (graph.restrict keep).output? source = some (output.restrict keep source) := by
    rw [Graph.restrict, output?_restrictEnds, joinable.outputAt]
    rfl
  have hi : (graph.restrict keep).input? target = some (input.restrict keep target) := by
    rw [Graph.restrict, input?_restrictEnds, joinable.inputAt]
    rfl
  refine (wired.restrict keep).join ho hi joinable.same ?_ ?_ ?_ relays
  · simp [Output.restrict, gone]
  · intro value
    simpa [Input.restrict] using inputs value
  · intro signal
    simpa [Output.restrict] using outputs signal

theorem Wired.link (wired : graph.Wired) (joinable : graph.Joinable source target output input)
    (relays : List Position) :
    (graph.link source target relays (displaced source target output input)).Wired := by
  rw [link_eq_join]
  refine wired_rejoin wired joinable (by simp [Keep.without]) ?_ ?_ relays
  · intro value wire hw
    simpa [Keep.without, displaced, value] using fun h => absurd rfl (h wire hw)
  · intro signal t ht
    simp [Keep.without, displaced, signal, ht]

theorem Acyclic.link (acyclic : graph.Acyclic) (wired : graph.Wired)
    (joinable : graph.Joinable source target output input) (relays : List Position) :
    (graph.link source target relays (displaced source target output input)).Acyclic := by
  have signals : output.port.isSignal = input.port.isSignal :=
    DataType.isSignal_of_same joinable.same
  rw [link_eq_join]
  generalize Keep.without _ = keep
  have hi : (graph.restrict keep).input? target = some (input.restrict keep target) := by
    rw [Graph.restrict, input?_restrictEnds, joinable.inputAt]
    rfl
  refine (acyclic.restrict keep).join hi (fun value path => ?_) relays
  have free := joinable.free (signals.trans value)
  have path := ReflTransGen.mono (fun _ _ => reads_of_restrict) _ _ path
  rw [← wired.dependsOn_iff, free] at path
  exact absurd path (by simp)

end Graph

end NodeScript
