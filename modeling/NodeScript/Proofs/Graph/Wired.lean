import Mathlib.Data.List.Nodup
import Mathlib.Logic.Relation
import NodeScript.Proofs.Graph.Restrict

/-!
Wires that agree at both their ends. `Graph.Wired` says that the inputs and the outputs of a graph
tell of the same wires, that a wire joins ports of one type, and that inputs of values and outputs
of signals have at most one. Main statements: each operation that edits are made of keeps a graph
wired, and a node is taken out of a wired graph together with all its wires (`Wired.detach?_eq`).
-/

set_option autoImplicit false
set_option relaxedAutoImplicit false

namespace NodeScript

theorem DataType.isSignal_of_same : ∀ {a b : DataType}, a.same b = true → a.isSignal = b.isSignal
  | .signal, b, h => by cases b <;> first | rfl | exact absurd h (by simp [DataType.same])
  | .number, b, h | .text, b, h | .boolean, b, h | .player, b, h | .list _, b, h
  | .struct _ _, b, h => by
    cases b <;> first | rfl | exact absurd h (by simp [DataType.same])

namespace Graph

/-- The wires of a graph are at both their ends, join ports of one type, and are alone where there
is room for one. -/
structure Wired (graph : Graph) : Prop where
  source : ∀ {target : InputRef} {input : Input} {wire : Wire},
    graph.input? target = some input → wire ∈ input.wires →
    ∃ output, graph.output? wire.source = some output ∧ target ∈ output.targets ∧
      output.port.type.same input.port.type = true
  target : ∀ {source : OutputRef} {output : Output} {target : InputRef},
    graph.output? source = some output → target ∈ output.targets →
    ∃ input, graph.input? target = some input ∧ ∃ wire ∈ input.wires, wire.source = source
  nodupSources : ∀ {target : InputRef} {input : Input},
    graph.input? target = some input → (input.wires.map (·.source)).Nodup
  nodupTargets : ∀ {source : OutputRef} {output : Output},
    graph.output? source = some output → output.targets.Nodup
  oneSource : ∀ {target : InputRef} {input : Input},
    graph.input? target = some input → input.port.isSignal = false → input.wires.length ≤ 1
  oneTarget : ∀ {source : OutputRef} {output : Output},
    graph.output? source = some output → output.port.isSignal = true → output.targets.length ≤ 1

variable {graph next : Graph}

theorem wired_empty : Wired Graph.empty := by
  constructor <;> (intros; simp_all [empty, input?, output?, node?])

/-- Changes that leave ports and the sources of wires as they are. -/
theorem Wired.of_inputs (wired : graph.Wired) {change : InputRef → Input → Input}
    (inputs : ∀ ref, next.input? ref = (graph.input? ref).map (change ref))
    (outputs : ∀ ref, next.output? ref = graph.output? ref)
    (ports : ∀ ref input, (change ref input).port = input.port)
    (sources : ∀ ref input,
      (change ref input).wires.map (·.source) = input.wires.map (·.source)) : next.Wired where
  source {target input wire} hi hw := by
    rw [inputs, Option.map_eq_some_iff] at hi
    obtain ⟨old, hold, rfl⟩ := hi
    have mem : wire.source ∈ old.wires.map (·.source) := by
      rw [← sources target old]
      exact List.mem_map_of_mem hw
    obtain ⟨before, hb, same⟩ := List.mem_map.1 mem
    rw [ports, outputs, ← same]
    exact wired.source hold hb
  target {source output target} ho ht := by
    rw [outputs] at ho
    obtain ⟨old, hold, wire, hw, hs⟩ := wired.target ho ht
    have mem : source ∈ (change target old).wires.map (·.source) := by
      rw [sources target old]
      exact List.mem_map.2 ⟨wire, hw, hs⟩
    exact ⟨change target old, by rw [inputs, hold]; rfl, List.mem_map.1 mem⟩
  nodupSources {target input} hi := by
    rw [inputs, Option.map_eq_some_iff] at hi
    obtain ⟨old, hold, rfl⟩ := hi
    rw [sources]
    exact wired.nodupSources hold
  nodupTargets {source output} ho := by
    rw [outputs] at ho
    exact wired.nodupTargets ho
  oneSource {target input} hi := by
    rw [inputs, Option.map_eq_some_iff] at hi
    obtain ⟨old, hold, rfl⟩ := hi
    have length := congrArg List.length (sources target old)
    rw [List.length_map, List.length_map] at length
    rw [ports, length]
    exact wired.oneSource hold
  oneTarget {source output} ho := by
    rw [outputs] at ho
    exact wired.oneTarget ho

theorem Wired.restrict (wired : graph.Wired) (keep : Keep) : (graph.restrict keep).Wired where
  source {target input wire} hi hw := by
    rw [Graph.restrict, input?_restrictEnds, Option.map_eq_some_iff] at hi
    obtain ⟨old, hold, rfl⟩ := hi
    obtain ⟨hw, stays⟩ := List.mem_filter.1 hw
    obtain ⟨output, ho, ht, hs⟩ := wired.source hold hw
    refine ⟨output.restrict keep wire.source, ?_, List.mem_filter.2 ⟨ht, stays⟩, hs⟩
    rw [Graph.restrict, output?_restrictEnds, ho]
    rfl
  target {source output target} ho ht := by
    rw [Graph.restrict, output?_restrictEnds, Option.map_eq_some_iff] at ho
    obtain ⟨old, hold, rfl⟩ := ho
    obtain ⟨ht, stays⟩ := List.mem_filter.1 ht
    obtain ⟨input, hi, wire, hw, rfl⟩ := wired.target hold ht
    refine ⟨input.restrict keep target, ?_, wire, List.mem_filter.2 ⟨hw, stays⟩, rfl⟩
    rw [Graph.restrict, input?_restrictEnds, hi]
    rfl
  nodupSources {target input} hi := by
    rw [Graph.restrict, input?_restrictEnds, Option.map_eq_some_iff] at hi
    obtain ⟨old, hold, rfl⟩ := hi
    exact (wired.nodupSources hold).sublist (List.filter_sublist.map _)
  nodupTargets {source output} ho := by
    rw [Graph.restrict, output?_restrictEnds, Option.map_eq_some_iff] at ho
    obtain ⟨old, hold, rfl⟩ := ho
    exact (wired.nodupTargets hold).sublist List.filter_sublist
  oneSource {target input} hi hp := by
    rw [Graph.restrict, input?_restrictEnds, Option.map_eq_some_iff] at hi
    obtain ⟨old, hold, rfl⟩ := hi
    exact Nat.le_trans (List.length_filter_le _ _) (wired.oneSource hold hp)
  oneTarget {source output} ho hp := by
    rw [Graph.restrict, output?_restrictEnds, Option.map_eq_some_iff] at ho
    obtain ⟨old, hold, rfl⟩ := ho
    exact Nat.le_trans (List.length_filter_le _ _) (wired.oneTarget hold hp)

/-- No wire touches a node. -/
structure Apart (graph : Graph) (id : NodeId) : Prop where
  wires : ∀ {target : InputRef} {input : Input} {wire : Wire},
    graph.input? target = some input → wire ∈ input.wires → target.node ≠ id ∧ wire.source.node ≠ id
  targets : ∀ {source : OutputRef} {output : Output} {target : InputRef},
    graph.output? source = some output → target ∈ output.targets →
      source.node ≠ id ∧ target.node ≠ id

theorem restrict_apart (graph : Graph) (id : NodeId) :
    (graph.restrict (Keep.apart id)).Apart id where
  wires {target input wire} hi hw := by
    rw [Graph.restrict, input?_restrictEnds, Option.map_eq_some_iff] at hi
    obtain ⟨old, hold, rfl⟩ := hi
    obtain ⟨-, stays⟩ := List.mem_filter.1 hw
    simp only [Keep.apart, Bool.and_eq_true, bne_iff_ne] at stays
    exact stays.symm
  targets {source output target} ho ht := by
    rw [Graph.restrict, output?_restrictEnds, Option.map_eq_some_iff] at ho
    obtain ⟨old, hold, rfl⟩ := ho
    obtain ⟨-, stays⟩ := List.mem_filter.1 ht
    simpa [Keep.apart] using stays

theorem Wired.clear (wired : graph.Wired) {id : NodeId} (apart : graph.Apart id) :
    (graph.clear id).Wired where
  source {target input wire} hi hw := by
    rw [input?_clear] at hi
    split at hi
    · simp at hi
    obtain ⟨output, ho, rest⟩ := wired.source hi hw
    exact ⟨output, by rw [output?_clear, if_neg (apart.wires hi hw).2, ho], rest⟩
  target {source output target} ho ht := by
    rw [output?_clear] at ho
    split at ho
    · simp at ho
    obtain ⟨input, hi, rest⟩ := wired.target ho ht
    exact ⟨input, by rw [input?_clear, if_neg (apart.targets ho ht).2, hi], rest⟩
  nodupSources {target input} hi := by
    rw [input?_clear] at hi
    split at hi
    · simp at hi
    exact wired.nodupSources hi
  nodupTargets {source output} ho := by
    rw [output?_clear] at ho
    split at ho
    · simp at ho
    exact wired.nodupTargets ho
  oneSource {target input} hi := by
    rw [input?_clear] at hi
    split at hi
    · simp at hi
    exact wired.oneSource hi
  oneTarget {source output} ho := by
    rw [output?_clear] at ho
    split at ho
    · simp at ho
    exact wired.oneTarget ho

theorem mem_wiresInto {id : NodeId} {node : Node} {source : OutputRef} {target : InputRef} :
    (source, target) ∈ wiresInto id node ↔ target.node = id ∧
      ∃ input, node.inputs[target.slot]? = some input ∧ ∃ wire ∈ input.wires,
        wire.source = source := by
  obtain ⟨tid, slot⟩ := target
  simp only [wiresInto, List.mem_flatMap, List.mem_map, Prod.exists, List.mem_zipIdx_iff_getElem?,
    Prod.mk.injEq, InputRef.mk.injEq]
  constructor
  · rintro ⟨input, slot, hi, wire, hw, rfl, rfl, rfl⟩
    exact ⟨rfl, input, hi, wire, hw, rfl⟩
  · rintro ⟨rfl, input, hi, wire, hw, rfl⟩
    exact ⟨input, slot, hi, wire, hw, rfl, rfl, rfl⟩

theorem mem_wiresOutOf {id : NodeId} {node : Node} {source : OutputRef} {target : InputRef} :
    (source, target) ∈ wiresOutOf id node ↔ source.node = id ∧
      ∃ output, node.outputs[source.slot]? = some output ∧ target ∈ output.targets := by
  obtain ⟨sid, slot⟩ := source
  simp only [wiresOutOf, List.mem_flatMap, List.mem_map, Prod.exists,
    List.mem_zipIdx_iff_getElem?, Prod.mk.injEq, OutputRef.mk.injEq]
  constructor
  · rintro ⟨output, slot, ho, t, ht, ⟨rfl, rfl⟩, rfl⟩
    exact ⟨rfl, output, ho, ht⟩
  · rintro ⟨rfl, output, ho, ht⟩
    exact ⟨output, slot, ho, target, ht, ⟨rfl, rfl⟩, rfl⟩

private theorem Wired.leaves_iff (wired : graph.Wired) {id : NodeId} {node : Node}
    (hn : graph.node? id = some node) {target : InputRef} {input : Input} {wire : Wire}
    (hi : graph.input? target = some input) (hw : wire ∈ input.wires) :
    (wire.source, target) ∈ wiresOutOf id node ↔ wire.source.node = id := by
  rw [mem_wiresOutOf]
  refine ⟨And.left, fun hs => ⟨hs, ?_⟩⟩
  obtain ⟨output, ho, ht, -⟩ := wired.source hi hw
  rw [output?, hs, hn] at ho
  exact ⟨output, ho, ht⟩

private theorem Wired.enters_iff (wired : graph.Wired) {id : NodeId} {node : Node}
    (hn : graph.node? id = some node) {source : OutputRef} {output : Output} {target : InputRef}
    (ho : graph.output? source = some output) (ht : target ∈ output.targets) :
    (source, target) ∈ wiresInto id node ↔ target.node = id := by
  rw [mem_wiresInto]
  refine ⟨And.left, fun hid => ⟨hid, ?_⟩⟩
  obtain ⟨input, hi, wire, hw, hs⟩ := wired.target ho ht
  rw [input?, hid, hn] at hi
  exact ⟨input, hi, wire, hw, hs⟩

theorem restrictEnds_congr {id : NodeId} {node : Node} {inner outer inner' outer' : Keep}
    (inputs : ∀ slot input, node.inputs[slot]? = some input → ∀ wire ∈ input.wires,
      inner wire.source ⟨id, slot⟩ = inner' wire.source ⟨id, slot⟩)
    (outputs : ∀ slot output, node.outputs[slot]? = some output → ∀ target ∈ output.targets,
      outer ⟨id, slot⟩ target = outer' ⟨id, slot⟩ target) :
    node.restrictEnds inner outer id = node.restrictEnds inner' outer' id := by
  have sameInputs : (node.inputs.mapIdx fun slot input => input.restrict inner ⟨id, slot⟩) =
      node.inputs.mapIdx fun slot input => input.restrict inner' ⟨id, slot⟩ := by
    apply List.ext_getElem?
    intro slot
    rw [List.getElem?_mapIdx, List.getElem?_mapIdx]
    cases hi : node.inputs[slot]? with
    | none => rfl
    | some input =>
      simp only [Option.map_some, Input.restrict]
      rw [List.filter_congr (inputs slot input hi)]
  have sameOutputs : (node.outputs.mapIdx fun slot output => output.restrict outer ⟨id, slot⟩) =
      node.outputs.mapIdx fun slot output => output.restrict outer' ⟨id, slot⟩ := by
    apply List.ext_getElem?
    intro slot
    rw [List.getElem?_mapIdx, List.getElem?_mapIdx]
    cases ho : node.outputs[slot]? with
    | none => rfl
    | some output =>
      simp only [Option.map_some, Output.restrict]
      rw [List.filter_congr (outputs slot output ho)]
  rw [Node.restrictEnds, sameInputs, sameOutputs, Node.restrictEnds]

/-- A node is taken out with all its wires, and the others stay. -/
theorem Wired.detach?_eq (wired : graph.Wired) (id : NodeId) :
    graph.detach? id = (graph.node? id).map fun node =>
      (node, (graph.restrict (Keep.apart id)).clear id) := by
  rw [detach?_eq_ends]
  cases hn : graph.node? id with
  | none => rfl
  | some node =>
    refine congrArg (fun next => some (node, next)) (ext_node? ?_ ?_ rfl rfl rfl)
    · simp [Graph.restrict]
    intro other
    simp only [Graph.restrict, node?_restrictEnds, node?_clear]
    by_cases hother : other = id
    · simp [hother]
    cases hn' : graph.node? other with
    | none => simp [hother]
    | some node' =>
      simp only [hother, if_false, Option.map_some, Option.some.injEq]
      apply restrictEnds_congr
      · intro slot input hi wire hw
        have here : graph.input? ⟨other, slot⟩ = some input := by simp [input?, hn', hi]
        have := wired.leaves_iff hn here hw
        by_cases hs : wire.source.node = id <;> simp [Keep.without, Keep.apart, this, hs, hother]
      · intro slot output ho target ht
        have here : graph.output? ⟨other, slot⟩ = some output := by simp [output?, hn', ho]
        have := wired.enters_iff hn here ht
        by_cases hid : target.node = id <;> simp [Keep.without, Keep.apart, this, hid, hother]

theorem Wired.detach_eq (wired : graph.Wired) (id : NodeId) :
    graph.detach id =
      if (graph.node? id).isSome then (graph.restrict (Keep.apart id)).clear id else graph := by
  rw [detach, wired.detach?_eq]
  cases graph.node? id <;> rfl

theorem Wired.detached (wired : graph.Wired) (id : NodeId) :
    ((graph.restrict (Keep.apart id)).clear id).Wired :=
  (wired.restrict _).clear (restrict_apart graph id)

section

variable {node : Node}

theorem input?_push_cases (inputs : ∀ input ∈ node.inputs, input.wires = []) {ref : InputRef}
    {input : Input} (h : (graph.push node).2.input? ref = some input) :
    graph.input? ref = some input ∨ input.wires = [] := by
  rw [input?, node?_push] at h
  split at h
  · exact .inr (inputs _ (List.mem_of_getElem? h))
  · exact .inl h

theorem output?_push_cases (outputs : ∀ output ∈ node.outputs, output.targets = [])
    {ref : OutputRef} {output : Output} (h : (graph.push node).2.output? ref = some output) :
    graph.output? ref = some output ∨ output.targets = [] := by
  rw [output?, node?_push] at h
  split at h
  · exact .inr (outputs _ (List.mem_of_getElem? h))
  · exact .inl h

theorem node?_size (graph : Graph) : graph.node? ⟨graph.arena.size⟩ = none :=
  node?_eq_none_of_size_le (Nat.le_refl _)

theorem input?_push_of_some {ref : InputRef} {input : Input} (h : graph.input? ref = some input) :
    (graph.push node).2.input? ref = some input := by
  rw [input?, node?_push, if_neg, ← input?, h]
  intro hid
  simp [input?, hid, node?_size] at h

theorem output?_push_of_some {ref : OutputRef} {output : Output}
    (h : graph.output? ref = some output) :
    (graph.push node).2.output? ref = some output := by
  rw [output?, node?_push, if_neg, ← output?, h]
  intro hid
  simp [output?, hid, node?_size] at h

theorem Wired.push (wired : graph.Wired) (inputs : ∀ input ∈ node.inputs, input.wires = [])
    (outputs : ∀ output ∈ node.outputs, output.targets = []) : (graph.push node).2.Wired := by
  constructor
  · intro target input wire hi hw
    rcases input?_push_cases inputs hi with hi | empty
    · obtain ⟨output, ho, rest⟩ := wired.source hi hw
      exact ⟨output, output?_push_of_some ho, rest⟩
    · simp [empty] at hw
  · intro source output target ho ht
    rcases output?_push_cases outputs ho with ho | empty
    · obtain ⟨input, hi, rest⟩ := wired.target ho ht
      exact ⟨input, input?_push_of_some hi, rest⟩
    · simp [empty] at ht
  · intro target input hi
    rcases input?_push_cases inputs hi with hi | empty
    · exact wired.nodupSources hi
    · simp [empty]
  · intro source output ho
    rcases output?_push_cases outputs ho with ho | empty
    · exact wired.nodupTargets ho
    · simp [empty]
  · intro target input hi hp
    rcases input?_push_cases inputs hi with hi | empty
    · exact wired.oneSource hi hp
    · simp [empty]
  · intro source output ho hp
    rcases output?_push_cases outputs ho with ho | empty
    · exact wired.oneTarget ho hp
    · simp [empty]

end

theorem input?_join (graph : Graph) (source : OutputRef) (target : InputRef)
    (relays : List Position) (ref : InputRef) :
    (graph.join source target relays).input? ref =
      if ref = target then (graph.input? target).map fun input =>
        { input with wires := input.wires ++ [{ source, relays }] }
      else graph.input? ref := by
  rw [join, input?_modifyOutput, input?_modifyInput]

theorem output?_join (graph : Graph) (source : OutputRef) (target : InputRef)
    (relays : List Position) (ref : OutputRef) :
    (graph.join source target relays).output? ref =
      if ref = source then (graph.output? source).map fun output =>
        { output with targets := output.targets ++ [target] }
      else graph.output? ref := by
  rw [join, output?_modifyOutput, output?_modifyInput, output?_modifyInput]

section

variable {source ref : OutputRef} {target ref' : InputRef} {output old : Output}
  {input old' : Input} {relays : List Position}

theorem input?_join_cases (hi : graph.input? target = some input)
    (h : (graph.join source target relays).input? ref' = some old') :
    graph.input? ref' = some old' ∨
      ref' = target ∧ old' = { input with wires := input.wires ++ [{ source, relays }] } := by
  rw [input?_join, hi] at h
  split at h
  · rename_i here
    exact .inr ⟨here, (Option.some.inj h).symm⟩
  · exact .inl h

theorem output?_join_cases (ho : graph.output? source = some output)
    (h : (graph.join source target relays).output? ref = some old) :
    graph.output? ref = some old ∨
      ref = source ∧ old = { output with targets := output.targets ++ [target] } := by
  rw [output?_join, ho] at h
  split at h
  · rename_i here
    exact .inr ⟨here, (Option.some.inj h).symm⟩
  · exact .inl h

theorem input?_join_of_some (h : graph.input? ref' = some old') :
    ∃ new, (graph.join source target relays).input? ref' = some new ∧
      ∀ wire ∈ old'.wires, wire ∈ new.wires := by
  rw [input?_join]
  split
  · rename_i here
    rw [← here, h]
    exact ⟨_, rfl, fun wire hw => List.mem_append_left _ hw⟩
  · exact ⟨old', h, fun _ hw => hw⟩

theorem output?_join_of_some (h : graph.output? ref = some old) :
    ∃ new, (graph.join source target relays).output? ref = some new ∧ new.port = old.port ∧
      ∀ other ∈ old.targets, other ∈ new.targets := by
  rw [output?_join]
  split
  · rename_i here
    rw [← here, h]
    exact ⟨_, rfl, rfl, fun other ht => List.mem_append_left _ ht⟩
  · exact ⟨old, h, rfl, fun _ ht => ht⟩

theorem Wired.source_join (wired : graph.Wired) {wire : Wire} (h : graph.input? ref' = some old')
    (hw : wire ∈ old'.wires) :
    ∃ new, (graph.join source target relays).output? wire.source = some new ∧
      ref' ∈ new.targets ∧ new.port.type.same old'.port.type = true := by
  obtain ⟨output, ho, listed, same⟩ := wired.source h hw
  obtain ⟨new, hnew, port, keeps⟩ := output?_join_of_some ho
  rw [← port] at same
  exact ⟨new, hnew, keeps _ listed, same⟩

theorem Wired.target_join (wired : graph.Wired) (h : graph.output? ref = some old)
    (ht : ref' ∈ old.targets) :
    ∃ new, (graph.join source target relays).input? ref' = some new ∧
      ∃ wire ∈ new.wires, wire.source = ref := by
  obtain ⟨input, hi, wire, hw, hs⟩ := wired.target h ht
  obtain ⟨new, hnew, keeps⟩ := input?_join_of_some hi
  exact ⟨new, hnew, wire, keeps wire hw, hs⟩

/-- A new wire between ports of one type, where there is room for it. -/
theorem Wired.join (wired : graph.Wired) (ho : graph.output? source = some output)
    (hi : graph.input? target = some input)
    (same : output.port.type.same input.port.type = true) (fresh : target ∉ output.targets)
    (inputRoom : output.port.isSignal = false → input.wires = [])
    (outputRoom : output.port.isSignal = true → output.targets = []) (relays : List Position) :
    (graph.join source target relays).Wired := by
  have signals : output.port.isSignal = input.port.isSignal := DataType.isSignal_of_same same
  have freshSource : source ∉ input.wires.map (·.source) := by
    intro hs
    obtain ⟨wire, hw, rfl⟩ := List.mem_map.1 hs
    obtain ⟨output', ho', ht, -⟩ := wired.source hi hw
    rw [ho, Option.some.injEq] at ho'
    subst ho'
    exact fresh ht
  constructor
  · intro ref' new wire hnew hw
    rcases input?_join_cases hi hnew with hnew | ⟨rfl, rfl⟩
    · exact wired.source_join hnew hw
    · rcases List.mem_append.1 hw with hw | hw
      · obtain ⟨found, hfound, listed, hsame⟩ := wired.source_join hi hw
        exact ⟨found, hfound, listed, hsame⟩
      · rw [List.mem_singleton.1 hw]
        exact ⟨{ output with targets := output.targets ++ [ref'] },
          by rw [output?_join, if_pos rfl, ho, Option.map_some], by simp, same⟩
  · intro ref new other hnew ht
    rcases output?_join_cases ho hnew with hnew | ⟨rfl, rfl⟩
    · exact wired.target_join hnew ht
    · rcases List.mem_append.1 ht with ht | ht
      · exact wired.target_join ho ht
      · rw [List.mem_singleton.1 ht]
        exact ⟨{ input with wires := input.wires ++ [⟨ref, relays⟩] },
          by rw [input?_join, if_pos rfl, hi, Option.map_some], ⟨ref, relays⟩, by simp, rfl⟩
  · intro ref' new hnew
    rcases input?_join_cases hi hnew with hnew | ⟨-, rfl⟩
    · exact wired.nodupSources hnew
    · rw [List.map_append, List.map_singleton, ← List.concat_eq_append, List.nodup_concat]
      exact ⟨freshSource, wired.nodupSources hi⟩
  · intro ref new hnew
    rcases output?_join_cases ho hnew with hnew | ⟨-, rfl⟩
    · exact wired.nodupTargets hnew
    · rw [← List.concat_eq_append, List.nodup_concat]
      exact ⟨fresh, wired.nodupTargets ho⟩
  · intro ref' new hnew hp
    rcases input?_join_cases hi hnew with hnew | ⟨-, rfl⟩
    · exact wired.oneSource hnew hp
    · simp [inputRoom (signals.trans hp)]
  · intro ref new hnew hp
    rcases output?_join_cases ho hnew with hnew | ⟨-, rfl⟩
    · exact wired.oneTarget hnew hp
    · simp [outputRoom hp]

end

end Graph

end NodeScript
