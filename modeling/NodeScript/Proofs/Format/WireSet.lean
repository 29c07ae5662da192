import NodeScript.Proofs.Format.Authored
import NodeScript.Proofs.Format.Reread
import NodeScript.Proofs.Graph.Lasting

/-!
Graphs as sets of wires. Each wire is kept at both its ends, and in an order there; edits of wires
are told by what becomes of the set and of the order. Main statement:
`Graph.Authored.edits_wires`.
-/

set_option autoImplicit false
set_option relaxedAutoImplicit false

namespace NodeScript

namespace Graph

def wiresAt (graph : Graph) (target : InputRef) : List Wire :=
  ((graph.input? target).map (·.wires)).getD []

/-- The inputs that an output leads to, in their order. -/
def targetsAt (graph : Graph) (source : OutputRef) : List InputRef :=
  ((graph.output? source).map (·.targets)).getD []

/-- The wires of a graph, each with its two ends and its routing. -/
def wireSet (graph : Graph) : Set (OutputRef × InputRef × List Position) :=
  {wire | ⟨wire.1, wire.2.2⟩ ∈ graph.wiresAt wire.2.1}

/-- Of the wires of a graph those stay that are let through, with their routing and in their order
at both ends. New ones come behind them. -/
structure Restrung (graph next : Graph) (keep : Keep)
    (new : List (OutputRef × InputRef × List Position)) : Prop where
  wires : next.wireSet =
    {wire | wire ∈ graph.wireSet ∧ keep wire.1 wire.2.1 = true} ∪ {wire | wire ∈ new}
  atInputs : ∀ target, next.wiresAt target = (graph.wiresAt target).filter (keep ·.source target) ++
    (new.filter (·.2.1 == target)).map fun wire => ⟨wire.1, wire.2.2⟩
  atOutputs : ∀ source, next.targetsAt source = (graph.targetsAt source).filter (keep source) ++
    (new.filter (·.1 == source)).map (·.2.1)

/-- The wires that a wire between two ports leaves alone: those that come from another output of
signals, or lead to another input of values. -/
def spared (graph : Graph) (source : OutputRef) (target : InputRef) : Keep := fun s t =>
  if (graph.output? source).any (·.port.isSignal) then s != source else t != target

end Graph

/-- A node without the literal of an input of values. -/
def Node.withoutInset (slot : Nat) (node : Node) : Node :=
  { node with inputs := node.inputs.modify slot fun input =>
      if input.port.isSignal then input else { input with inset := none } }

namespace Graph

variable {graph next : Graph} {source : OutputRef} {target : InputRef}

theorem mem_wiresAt {wire : Wire} : wire ∈ graph.wiresAt target ↔
    ∃ input, graph.input? target = some input ∧ wire ∈ input.wires := by
  rw [wiresAt]
  cases graph.input? target <;> simp

theorem mem_targetsAt : target ∈ graph.targetsAt source ↔ graph.Leaves source target := by
  rw [targetsAt, Leaves]
  cases graph.output? source <;> simp

theorem enters_iff_mem_wireSet :
    graph.Enters source target ↔ ∃ relays, (source, target, relays) ∈ graph.wireSet := by
  constructor
  · rintro ⟨input, found, wire, mem, rfl⟩
    exact ⟨wire.relays, mem_wiresAt.2 ⟨input, found, mem⟩⟩
  · rintro ⟨relays, mem⟩
    obtain ⟨input, found, mem⟩ := mem_wiresAt.1 mem
    exact ⟨input, found, _, mem, rfl⟩

theorem Restrung.of_ends {keep : Keep} {new : List (OutputRef × InputRef × List Position)}
    (atInputs : ∀ target, next.wiresAt target =
      (graph.wiresAt target).filter (keep ·.source target) ++
        (new.filter (·.2.1 == target)).map fun wire => ⟨wire.1, wire.2.2⟩)
    (atOutputs : ∀ source, next.targetsAt source = (graph.targetsAt source).filter (keep source) ++
      (new.filter (·.1 == source)).map (·.2.1)) : Restrung graph next keep new where
  wires := by
    ext ⟨source, target, relays⟩
    simp only [wireSet, Set.mem_ofPred_eq, Set.mem_union, atInputs, List.mem_append,
      List.mem_filter, List.mem_map, beq_iff_eq, Wire.mk.injEq, Prod.exists]
    constructor
    · rintro (⟨mem, stays⟩ | ⟨_, _, _, ⟨mem, rfl⟩, rfl, rfl⟩)
      · exact .inl ⟨mem, stays⟩
      · exact .inr mem
    · rintro (⟨mem, stays⟩ | mem)
      · exact .inl ⟨mem, stays⟩
      · exact .inr ⟨_, _, _, ⟨mem, rfl⟩, rfl, rfl⟩
  atInputs := atInputs
  atOutputs := atOutputs

theorem wiresAt_restrict (graph : Graph) (keep : Keep) (target : InputRef) :
    (graph.restrict keep).wiresAt target =
      (graph.wiresAt target).filter (keep ·.source target) := by
  rw [wiresAt, wiresAt, restrict, input?_restrictEnds]
  cases graph.input? target <;> rfl

theorem targetsAt_restrict (graph : Graph) (keep : Keep) (source : OutputRef) :
    (graph.restrict keep).targetsAt source = (graph.targetsAt source).filter (keep source) := by
  rw [targetsAt, targetsAt, restrict, output?_restrictEnds]
  cases graph.output? source <;> rfl

theorem restrung_restrict (graph : Graph) (keep : Keep) :
    graph.Restrung (graph.restrict keep) keep [] := by
  refine .of_ends (fun target => by simp [wiresAt_restrict]) fun source => ?_
  simp [targetsAt_restrict]

theorem wiresAt_join (found : (graph.input? target).isSome) (relays : List Position)
    (ref : InputRef) : (graph.join source target relays).wiresAt ref =
      graph.wiresAt ref ++ if ref = target then [⟨source, relays⟩] else [] := by
  obtain ⟨input, found⟩ := Option.isSome_iff_exists.1 found
  rw [wiresAt, wiresAt, input?_join]
  split
  · subst ref
    simp [found]
  · simp

theorem targetsAt_join (found : (graph.output? source).isSome) (relays : List Position)
    (ref : OutputRef) : (graph.join source target relays).targetsAt ref =
      graph.targetsAt ref ++ if ref = source then [target] else [] := by
  obtain ⟨output, found⟩ := Option.isSome_iff_exists.1 found
  rw [targetsAt, targetsAt, output?_join]
  split
  · subst ref
    simp [found]
  · simp

theorem restrict_congr {keep keep' : Keep} (wired : graph.Wired)
    (same : ∀ source target, graph.Enters source target →
      keep source target = keep' source target) :
    graph.restrict keep = graph.restrict keep' := by
  refine ext_node? (by simp [restrict]) (fun id => ?_) rfl rfl rfl
  rw [restrict, restrict, node?_restrictEnds, node?_restrictEnds]
  cases here : graph.node? id with
  | none => rfl
  | some node =>
    refine congrArg some (restrictEnds_congr (fun slot input at_ wire mem => ?_)
      fun slot output at_ target mem => ?_)
    · exact same wire.source ⟨id, slot⟩ ⟨input, by rw [input?, here]; exact at_, wire, mem, rfl⟩
    · exact same ⟨id, slot⟩ target ((wired.enters_iff_leaves _ _).2
        ⟨output, by rw [output?, here]; exact at_, mem⟩)

/-- The wires that a new one takes the place of are those that it does not leave alone. -/
theorem Joinable.spared_eq (wired : graph.Wired) {output : Output} {input : Input}
    (joinable : graph.Joinable source target output input) {s : OutputRef} {t : InputRef}
    (enters : graph.Enters s t) :
    Keep.without (displaced source target output input ++ [(source, target)]) s t =
      graph.spared source target s t := by
  have signal : (graph.output? source).any (·.port.isSignal) = output.port.isSignal := by
    rw [joinable.outputAt, Option.any_some]
  have leaves := (wired.enters_iff_leaves s t).1 enters
  have listed : (s, t) ∈ displaced source target output input ++ [(source, target)] ↔
      if output.port.isSignal then s = source else t = target := by
    rw [displaced]
    split
    · refine ⟨fun mem => ?_, fun same => ?_⟩
      · simp only [List.mem_append, List.mem_map, Prod.mk.injEq, List.mem_singleton] at mem
        rcases mem with ⟨_, _, same, -⟩ | ⟨same, -⟩
        · exact same.symm
        · exact same
      · subst same
        obtain ⟨output', found, mem⟩ := leaves
        obtain rfl := Option.some.inj (joinable.outputAt.symm.trans found)
        exact List.mem_append_left _ (List.mem_map.2 ⟨t, mem, rfl⟩)
    · refine ⟨fun mem => ?_, fun same => ?_⟩
      · simp only [List.mem_append, List.mem_map, Prod.mk.injEq, List.mem_singleton] at mem
        rcases mem with ⟨_, _, -, same⟩ | ⟨-, same⟩
        · exact same.symm
        · exact same
      · subst same
        obtain ⟨input', found, wire, mem, rfl⟩ := enters
        obtain rfl := Option.some.inj (joinable.inputAt.symm.trans found)
        exact List.mem_append_left _ (List.mem_map.2 ⟨wire, mem, rfl⟩)
  rw [Keep.without, spared, signal]
  cases kind : output.port.isSignal with
  | true =>
    simp only [kind, if_true] at listed ⊢
    by_cases same : s = source <;> simp_all
  | false =>
    simp only [kind, Bool.false_eq_true, if_false] at listed ⊢
    by_cases same : t = target <;> simp_all

theorem Wired.restrung_connect (wired : graph.Wired) {relays : List Position}
    (accepted : graph.connect source target relays = .ok next) :
    graph.Restrung next (graph.spared source target) [(source, target, relays)] ∧
      (∀ id, next.bare? id = graph.bare? id) ∧ graph.SameDefinitions next := by
  obtain ⟨others, displaced, linked⟩ := Accepted.bind_iff.1 accepted
  obtain rfl := Except.ok.inj linked
  obtain ⟨output, input, joinable, rfl⟩ := joinable_of_displacedBy displaced
  have still := Still.link graph source target relays (Graph.displaced source target output input)
  refine ⟨?_, bare?_link graph source target relays _, still.functions, still.structs⟩
  rw [link_eq_join, restrict_congr wired fun s t enters => joinable.spared_eq wired enters]
  have outputAt : ((graph.restrict (graph.spared source target)).output? source).isSome := by
    rw [Graph.restrict, output?_restrictEnds, joinable.outputAt]
    rfl
  have inputAt : ((graph.restrict (graph.spared source target)).input? target).isSome := by
    rw [Graph.restrict, input?_restrictEnds, joinable.inputAt]
    rfl
  refine .of_ends (fun ref => ?_) fun ref => ?_
  · rw [wiresAt_join inputAt, wiresAt_restrict]
    by_cases same : ref = target
    · simp [same]
    · simp [same, Ne.symm same]
  · rw [targetsAt_join outputAt, targetsAt_restrict]
    by_cases same : ref = source
    · simp [same]
    · simp [same, Ne.symm same]

theorem disconnect_fst_iff : (graph.disconnect source target).1 = true ↔
    graph.Leaves source target := by
  unfold disconnect Leaves
  cases found : graph.output source with
  | error reason =>
    have none : graph.output? source = none := by
      cases here : graph.output? source with
      | none => rfl
      | some output => simp [output_eq_ok_iff.2 here] at found
    simp [none]
  | ok output =>
    rw [output_eq_ok_iff.1 found]
    by_cases linked : target ∈ output.targets <;> simp [linked]

theorem disconnect_snd (graph : Graph) (source : OutputRef) (target : InputRef) :
    (graph.disconnect source target).2 =
      if (graph.disconnect source target).1 then
        (graph.unlink source target).modifyNode target.node (Node.withoutInset target.slot)
      else graph.unlink source target := by
  unfold disconnect
  cases graph.output source with
  | error reason => rfl
  | ok output =>
    by_cases linked : target ∈ output.targets
    · simp only [List.contains_iff_mem.2 linked, if_true]
      rfl
    · simp [linked]

theorem wiresAt_withoutInset (graph : Graph) (target ref : InputRef) :
    (graph.modifyNode target.node (Node.withoutInset target.slot)).wiresAt ref =
      graph.wiresAt ref := by
  show (graph.modifyInput target _).wiresAt ref = _
  rw [wiresAt, wiresAt, input?_modifyInput]
  split
  · subst ref
    cases graph.input? target with
    | none => rfl
    | some input => by_cases signal : input.port.isSignal = true <;> simp [signal]
  · rfl

theorem targetsAt_withoutInset (graph : Graph) (target : InputRef) (ref : OutputRef) :
    (graph.modifyNode target.node (Node.withoutInset target.slot)).targetsAt ref =
      graph.targetsAt ref := by
  show (graph.modifyInput target _).targetsAt ref = _
  rw [targetsAt, targetsAt, output?_modifyInput]

theorem bare_withoutInset (slot : Nat) (node : Node) :
    (node.withoutInset slot).bare = node.bare.withoutInset slot := by
  simp only [Node.bare, Node.withoutInset, Node.mk.injEq, true_and, and_true]
  apply List.ext_getElem?
  intro i
  simp only [List.getElem?_map, List.getElem?_modify]
  cases node.inputs[i]? with
  | none => rfl
  | some input =>
    by_cases here : slot = i <;> cases signal : input.port.isSignal <;> simp [here, signal]

theorem bare?_withoutInset (graph : Graph) (target : InputRef) (id : NodeId) :
    (graph.modifyNode target.node (Node.withoutInset target.slot)).bare? id =
      if id = target.node then (graph.bare? id).map (Node.withoutInset target.slot)
      else graph.bare? id := by
  rw [bare?, node?_modifyNode]
  split
  · subst id
    rw [bare?, Option.map_map, Option.map_map]
    exact congrFun (congrArg Option.map (funext (bare_withoutInset target.slot))) _
  · rfl

theorem restrung_disconnect (graph : Graph) (source : OutputRef) (target : InputRef) :
    graph.Restrung (graph.disconnect source target).2 (Keep.without [(source, target)]) [] ∧
      (∀ id, (graph.disconnect source target).2.bare? id =
        if (graph.disconnect source target).1 ∧ id = target.node then
          (graph.bare? id).map (Node.withoutInset target.slot)
        else graph.bare? id) ∧ graph.SameDefinitions (graph.disconnect source target).2 := by
  have still := Still.disconnect graph source target
  refine (and_assoc.1 ⟨?_, still.functions, still.structs⟩)
  rw [disconnect_snd, unlink_eq_restrict]
  have restrung := restrung_restrict graph (Keep.without [(source, target)])
  split
  · rename_i linked
    refine ⟨.of_ends (fun ref => ?_) fun ref => ?_, fun id => ?_⟩
    · rw [wiresAt_withoutInset, restrung.atInputs]
    · rw [targetsAt_withoutInset, restrung.atOutputs]
    · rw [bare?_withoutInset, bare?_restrict]
      simp [linked]
  · rename_i linked
    exact ⟨restrung, fun id => by simp [linked]⟩

theorem Wired.restrung_remove (wired : graph.Wired) {id : NodeId} {node : Node}
    (accepted : graph.remove id = .ok (node, next)) :
    graph.node? id = some node ∧ graph.Restrung next (Keep.apart id) [] ∧
      (∀ other, next.bare? other = if other = id then none else graph.bare? other) ∧
      graph.SameDefinitions next := by
  obtain ⟨-, detached⟩ := remove_eq_ok accepted
  rw [wired.detach?_eq, Option.map_eq_some_iff] at detached
  obtain ⟨found, here, same⟩ := detached
  obtain ⟨rfl, rfl⟩ := Prod.mk.inj same
  have restrung := restrung_restrict graph (Keep.apart id)
  refine ⟨here, .of_ends (fun ref => ?_) fun ref => ?_, fun other => ?_, rfl, rfl⟩
  · rw [← restrung.atInputs, wiresAt, wiresAt, input?_clear]
    split
    · rename_i off
      rw [← wiresAt, wiresAt_restrict, List.filter_eq_nil_iff.2 fun wire _ => by
        simp [Keep.apart, off]]
      rfl
    · rfl
  · rw [← restrung.atOutputs, targetsAt, targetsAt, output?_clear]
    split
    · rename_i off
      rw [← targetsAt, targetsAt_restrict, List.filter_eq_nil_iff.2 fun target _ => by
        simp [Keep.apart, off]]
      rfl
    · rfl
  · rw [bare?, node?_clear]
    split
    · rfl
    · exact bare?_restrict graph _ other

end Graph

/-- What edits make of the wires of an authored graph, and what they leave alone. A new wire takes
the place of all wires from the same output of signals or to the same input of values, a wire is
taken out alone, and a node with all its wires. Other wires keep their routing and their order at
both ends. No node that is gone comes back. -/
theorem Graph.Authored.edits_wires {catalogs : Registry → Prop} {allowed : Graph → Edit → Prop}
    {graph : Graph} (authored : graph.Authored catalogs allowed) :
    (∀ source target, target ∈ graph.targetsAt source ↔
      ∃ relays, (source, target, relays) ∈ graph.wireSet) ∧
    (∀ source target relays next, graph.connect source target relays = .ok next →
      graph.Restrung next (graph.spared source target) [(source, target, relays)] ∧
        (∀ id, next.bare? id = graph.bare? id) ∧ graph.SameDefinitions next) ∧
    (∀ source target, let (linked, next) := graph.disconnect source target
      (linked = true ↔ ∃ relays, (source, target, relays) ∈ graph.wireSet) ∧
        graph.Restrung next (Keep.without [(source, target)]) [] ∧
        (∀ id, next.bare? id = if linked ∧ id = target.node then
          (graph.bare? id).map (Node.withoutInset target.slot) else graph.bare? id) ∧
        graph.SameDefinitions next) ∧
    (∀ id node next, graph.remove id = .ok (node, next) →
      graph.node? id = some node ∧ graph.Restrung next (Keep.apart id) [] ∧
        (∀ other, next.bare? other = if other = id then none else graph.bare? other) ∧
        graph.SameDefinitions next) ∧
    ∀ before after id, Edited catalogs graph before → Edited catalogs before after →
      (graph.node? id).isSome → before.node? id = none → after.node? id = none := by
  have wired := authored.wellFormed.wired
  have both (source : OutputRef) (target : InputRef) :
      graph.Leaves source target ↔ ∃ relays, (source, target, relays) ∈ graph.wireSet :=
    (wired.enters_iff_leaves source target).symm.trans enters_iff_mem_wireSet
  refine ⟨fun source target => mem_targetsAt.trans (both source target),
    fun source target relays next accepted => wired.restrung_connect accepted,
    fun source target => ?_, fun id node next accepted => wired.restrung_remove accepted,
    fun before after id edited edited' here gone => edited.gone edited' here gone⟩
  exact ⟨disconnect_fst_iff.trans (both source target), restrung_disconnect graph source target⟩

theorem crossing_edits_wires : ∃ graph next,
    Edit.crossing.foldlM (Edit.apply Registry.builtin) .empty = .ok graph ∧
      graph.Authored (fun _ => True) (fun _ _ => True) ∧
      graph.connect ⟨⟨1⟩, 1⟩ ⟨⟨2⟩, 0⟩ [] = .ok next ∧
      graph.wiresAt ⟨⟨2⟩, 0⟩ = [⟨⟨⟨1⟩, 1⟩, [.zero]⟩, ⟨⟨⟨0⟩, 0⟩, []⟩] ∧
      next.wiresAt ⟨⟨2⟩, 0⟩ = [⟨⟨⟨0⟩, 0⟩, []⟩, ⟨⟨⟨1⟩, 1⟩, []⟩] := by
  have facts : ∃ graph ∈ (Edit.crossing.foldlM (Edit.apply Registry.builtin) .empty).toOption,
      (∃ next ∈ (graph.connect ⟨⟨1⟩, 1⟩ ⟨⟨2⟩, 0⟩ []).toOption, True) ∧
        graph.wiresAt ⟨⟨2⟩, 0⟩ = [⟨⟨⟨1⟩, 1⟩, [.zero]⟩, ⟨⟨⟨0⟩, 0⟩, []⟩] ∧
        (graph.output? ⟨⟨1⟩, 1⟩).any (·.port.isSignal) = true := by decide +kernel
  obtain ⟨graph, built, ⟨next, connected, -⟩, two, signal⟩ := facts
  have built := Accepted.toOption_eq_some_iff.1 built
  have connected := Accepted.toOption_eq_some_iff.1 connected
  have authored : graph.Authored (fun _ => True) (fun _ _ => True) :=
    .of_reached (Reached.foldlM trivial (.first rfl) (fun _ _ _ => trivial) built)
  obtain ⟨-, connecting, -⟩ := authored.edits_wires
  obtain ⟨restrung, -⟩ := connecting ⟨⟨1⟩, 1⟩ ⟨⟨2⟩, 0⟩ [] next connected
  refine ⟨graph, next, built, authored, connected, two, ?_⟩
  rw [restrung.atInputs, two]
  simp [Graph.spared, signal]

end NodeScript
