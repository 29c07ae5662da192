import NodeScript.Graph.Wiring
import NodeScript.Proofs.Graph.Access

/-!
Graphs with only some of their wires. `Graph.restrict` keeps the wires that a predicate on both
ends lets through. Main statements: taking out one wire or several is a restriction
(`unlink_eq_restrict`, `foldl_unlink`), adding a wire is a restriction followed by `Graph.join`
(`link_eq_join`), and taking out a node is two restrictions of the ends that its wires have
elsewhere (`detach?_eq`).
-/

set_option autoImplicit false
set_option relaxedAutoImplicit false

namespace NodeScript

/-- Which wires stay: the wires for which the predicate on both ends holds. -/
abbrev Keep := OutputRef → InputRef → Bool

namespace Keep

def all : Keep := fun _ _ => true

/-- All wires stay but those listed. -/
def without (wires : List (OutputRef × InputRef)) : Keep := fun s t => !wires.contains (s, t)

/-- The wires stay that stay for both. -/
def both (a b : Keep) : Keep := fun s t => a s t && b s t

/-- The wires stay that do not touch a node. -/
def apart (id : NodeId) : Keep := fun s t => s.node != id && t.node != id

@[simp] theorem both_all (keep : Keep) : keep.both all = keep := by
  funext s t
  simp [both, all]

@[simp] theorem all_both (keep : Keep) : all.both keep = keep := rfl

theorem both_without (a b : List (OutputRef × InputRef)) :
    (without b).both (without a) = without (a ++ b) := by
  funext s t
  simp [both, without, Bool.and_comm]

end Keep

/-- An input with only the wires that stay. -/
def Input.restrict (keep : Keep) (target : InputRef) (input : Input) : Input :=
  { input with wires := input.wires.filter (keep ·.source target) }

/-- An output with only the targets that stay. -/
def Output.restrict (keep : Keep) (source : OutputRef) (output : Output) : Output :=
  { output with targets := output.targets.filter (keep source) }

/-- The node at an address with the wires that stay at its inputs and those that stay at its
outputs. -/
def Node.restrictEnds (inner outer : Keep) (id : NodeId) (node : Node) : Node :=
  { node with
    inputs := node.inputs.mapIdx fun slot input => input.restrict inner ⟨id, slot⟩
    outputs := node.outputs.mapIdx fun slot output => output.restrict outer ⟨id, slot⟩ }

theorem Input.restrict_eq_self {keep : Keep} {target : InputRef} {input : Input}
    (stay : ∀ wire ∈ input.wires, keep wire.source target = true) :
    input.restrict keep target = input := by
  rw [Input.restrict, List.filter_eq_self.2 stay]

theorem Output.restrict_eq_self {keep : Keep} {source : OutputRef} {output : Output}
    (stay : ∀ target ∈ output.targets, keep source target = true) :
    output.restrict keep source = output := by
  rw [Output.restrict, List.filter_eq_self.2 stay]

@[simp] theorem Node.ports_restrictEnds (inner outer : Keep) (id : NodeId) (node : Node) :
    (node.restrictEnds inner outer id).ports = node.ports := by
  simp only [Node.ports, Node.restrictEnds, Ports.mk.injEq]
  constructor <;> (apply List.ext_getElem?; intro i; simp [Function.comp_def]; rfl)

theorem Node.restrictEnds_restrictEnds (inner outer inner' outer' : Keep) (id : NodeId)
    (node : Node) :
    (node.restrictEnds inner outer id).restrictEnds inner' outer' id =
      node.restrictEnds (inner'.both inner) (outer'.both outer) id := by
  simp only [Node.restrictEnds, List.mapIdx_mapIdx, Input.restrict, Output.restrict,
    Function.comp_def, List.filter_filter]
  rfl

namespace Graph

/-- The graph with the wires that stay at inputs and those that stay at outputs. -/
def restrictEnds (inner outer : Keep) (graph : Graph) : Graph :=
  { graph with arena := graph.arena.mapIdx fun index place =>
      place.map (Node.restrictEnds inner outer ⟨index⟩) }

/-- The graph with only the wires that stay. -/
def restrict (keep : Keep) (graph : Graph) : Graph := graph.restrictEnds keep keep

@[simp] theorem node?_restrictEnds (inner outer : Keep) (graph : Graph) (id : NodeId) :
    (graph.restrictEnds inner outer).node? id =
      (graph.node? id).map (Node.restrictEnds inner outer id) := by
  obtain ⟨i⟩ := id
  simp only [restrictEnds, node?, Array.getElem?_mapIdx]
  cases graph.arena[i]? with
  | none => simp
  | some place => cases place <;> simp

theorem input?_restrictEnds (inner outer : Keep) (graph : Graph) (ref : InputRef) :
    (graph.restrictEnds inner outer).input? ref =
      (graph.input? ref).map (Input.restrict inner ref) := by
  obtain ⟨id, slot⟩ := ref
  simp only [input?, node?_restrictEnds]
  cases graph.node? id <;> simp [Node.restrictEnds]

theorem output?_restrictEnds (inner outer : Keep) (graph : Graph) (ref : OutputRef) :
    (graph.restrictEnds inner outer).output? ref =
      (graph.output? ref).map (Output.restrict outer ref) := by
  obtain ⟨id, slot⟩ := ref
  simp only [output?, node?_restrictEnds]
  cases graph.node? id <;> simp [Node.restrictEnds]

theorem ext_node? {graph other : Graph} (size : graph.arena.size = other.arena.size)
    (nodes : ∀ id, graph.node? id = other.node? id)
    (functions : graph.functions = other.functions) (structs : graph.structs = other.structs)
    (next : graph.nextDefinition = other.nextDefinition) : graph = other := by
  obtain ⟨arena, fs, ss, n⟩ := graph
  obtain ⟨arena', fs', ss', n'⟩ := other
  simp only at size functions structs next
  subst functions structs next
  congr
  apply Array.ext size
  intro i hi hi'
  have same := nodes ⟨i⟩
  simpa [node?, Array.getElem?_eq_getElem hi, Array.getElem?_eq_getElem hi'] using same

@[simp] theorem size_restrictEnds (inner outer : Keep) (graph : Graph) :
    (graph.restrictEnds inner outer).arena.size = graph.arena.size := by
  simp [restrictEnds]

@[simp] theorem size_modifyNode (graph : Graph) (id : NodeId) (change : Node → Node) :
    (graph.modifyNode id change).arena.size = graph.arena.size := by
  simp [modifyNode]

@[simp] theorem size_clear (graph : Graph) (id : NodeId) :
    (graph.clear id).arena.size = graph.arena.size := by
  simp [clear]

theorem restrictEnds_restrictEnds (inner outer inner' outer' : Keep) (graph : Graph) :
    (graph.restrictEnds inner outer).restrictEnds inner' outer' =
      graph.restrictEnds (inner'.both inner) (outer'.both outer) := by
  apply ext_node?
  · simp
  · intro id
    cases hn : graph.node? id <;> simp [hn, Node.restrictEnds_restrictEnds]
  all_goals rfl

theorem restrictEnds_all (graph : Graph) : graph.restrictEnds Keep.all Keep.all = graph := by
  apply ext_node?
  · simp
  · intro id
    cases hn : graph.node? id with
    | none => simp [hn]
    | some node =>
      have inputs (slot : Nat) (input : Input) :
          input.restrict Keep.all ⟨id, slot⟩ = input :=
        Input.restrict_eq_self fun _ _ => rfl
      have outputs (slot : Nat) (output : Output) :
          output.restrict Keep.all ⟨id, slot⟩ = output :=
        Output.restrict_eq_self fun _ _ => rfl
      simp only [node?_restrictEnds, hn, Option.map_some, Node.restrictEnds, inputs, outputs,
        List.mapIdx_eq_zipIdx_map]
      simp
  all_goals rfl

private theorem mapIdx_eq_modify {α : Type} {change : Nat → α → α} (slot : Nat)
    (others : ∀ i a, i ≠ slot → change i a = a) (items : List α) :
    items.mapIdx change = items.modify slot (change slot) := by
  apply List.ext_getElem?
  intro i
  by_cases h : slot = i
  · subst h; simp
  · have same : change i = id := funext fun a => others i a (Ne.symm h)
    simp [h, same]

private theorem mapIdx_eq_self {α : Type} {change : Nat → α → α}
    (all : ∀ i a, change i a = a) (items : List α) : items.mapIdx change = items := by
  apply List.ext_getElem?
  intro i
  have same : change i = id := funext (all i)
  simp [same]

private theorem input_without_of_ne {source : OutputRef} {target at_ : InputRef}
    (h : at_ ≠ target) (input : Input) :
    input.restrict (Keep.without [(source, target)]) at_ = input := by
  refine Input.restrict_eq_self fun _ _ => ?_
  simp [Keep.without, h]

private theorem output_without_of_ne {source at_ : OutputRef} {target : InputRef}
    (h : at_ ≠ source) (output : Output) :
    output.restrict (Keep.without [(source, target)]) at_ = output := by
  refine Output.restrict_eq_self fun _ _ => ?_
  simp [Keep.without, h]

private theorem input_all (at_ : InputRef) (input : Input) :
    input.restrict Keep.all at_ = input := by
  exact Input.restrict_eq_self fun _ _ => rfl

private theorem output_all (at_ : OutputRef) (output : Output) :
    output.restrict Keep.all at_ = output := by
  exact Output.restrict_eq_self fun _ _ => rfl

private theorem restrict_at_target (source : OutputRef) (target : InputRef) (node : Node) :
    node.restrictEnds (Keep.without [(source, target)]) Keep.all target.node =
      { node with inputs := node.inputs.modify target.slot fun input =>
          { input with wires := input.wires.filter (·.source != source) } } := by
  have here : Input.restrict (Keep.without [(source, target)]) target =
      fun input => { input with wires := input.wires.filter (·.source != source) } := by
    funext input
    have differs (wire : Wire) : Keep.without [(source, target)] wire.source target =
        (wire.source != source) := by simp [Keep.without, bne]; rfl
    simp only [Input.restrict, differs]
  simp only [Node.restrictEnds, mapIdx_eq_self (fun _ => output_all _)]
  rw [mapIdx_eq_modify target.slot, here]
  intro slot input hslot
  exact input_without_of_ne (fun h => hslot (congrArg InputRef.slot h)) input

private theorem restrict_off_target (source : OutputRef) {id : NodeId} {target : InputRef}
    (h : id ≠ target.node) (node : Node) :
    node.restrictEnds (Keep.without [(source, target)]) Keep.all id = node := by
  have others (slot : Nat) (input : Input) :
      input.restrict (Keep.without [(source, target)]) ⟨id, slot⟩ = input :=
    input_without_of_ne (fun ht => h (congrArg InputRef.node ht)) input
  simp only [Node.restrictEnds, mapIdx_eq_self (fun _ => output_all _), mapIdx_eq_self others]

private theorem restrict_at_source (source : OutputRef) (target : InputRef) (node : Node) :
    node.restrictEnds Keep.all (Keep.without [(source, target)]) source.node =
      { node with outputs := node.outputs.modify source.slot fun output =>
          { output with targets := output.targets.filter (· != target) } } := by
  have here : Output.restrict (Keep.without [(source, target)]) source =
      fun output => { output with targets := output.targets.filter (· != target) } := by
    funext output
    have differs (t : InputRef) : Keep.without [(source, target)] source t = (t != target) := by
      simp [Keep.without, bne]; rfl
    simp only [Output.restrict, funext differs]
  simp only [Node.restrictEnds, mapIdx_eq_self (fun _ => input_all _)]
  rw [mapIdx_eq_modify source.slot, here]
  intro slot output hslot
  exact output_without_of_ne (fun h => hslot (congrArg OutputRef.slot h)) output

private theorem restrict_off_source (target : InputRef) {id : NodeId} {source : OutputRef}
    (h : id ≠ source.node) (node : Node) :
    node.restrictEnds Keep.all (Keep.without [(source, target)]) id = node := by
  have others (slot : Nat) (output : Output) :
      output.restrict (Keep.without [(source, target)]) ⟨id, slot⟩ = output :=
    output_without_of_ne (fun hs => h (congrArg OutputRef.node hs)) output
  simp only [Node.restrictEnds, mapIdx_eq_self (fun _ => input_all _), mapIdx_eq_self others]

theorem modifyInput_filter (graph : Graph) (source : OutputRef) (target : InputRef) :
    (graph.modifyInput target fun input =>
      { input with wires := input.wires.filter (·.source != source) }) =
    graph.restrictEnds (Keep.without [(source, target)]) Keep.all := by
  apply ext_node?
  · simp [modifyInput]
  · intro id
    rw [modifyInput, node?_modifyNode, node?_restrictEnds]
    split
    · subst id
      exact congrFun (congrArg Option.map (funext fun node =>
        (restrict_at_target source target node).symm)) _
    · rename_i h
      simp [funext (restrict_off_target source h)]
  all_goals rfl

theorem modifyOutput_filter (graph : Graph) (source : OutputRef) (target : InputRef) :
    (graph.modifyOutput source fun output =>
      { output with targets := output.targets.filter (· != target) }) =
    graph.restrictEnds Keep.all (Keep.without [(source, target)]) := by
  apply ext_node?
  · simp [modifyOutput]
  · intro id
    rw [modifyOutput, node?_modifyNode, node?_restrictEnds]
    split
    · subst id
      exact congrFun (congrArg Option.map (funext fun node =>
        (restrict_at_source source target node).symm)) _
    · rename_i h
      simp [funext (restrict_off_source target h)]
  all_goals rfl

theorem unlink_eq_restrict (graph : Graph) (source : OutputRef) (target : InputRef) :
    graph.unlink source target = graph.restrict (Keep.without [(source, target)]) := by
  rw [unlink, modifyInput_filter, modifyOutput_filter, restrictEnds_restrictEnds, restrict,
    Keep.both_all, Keep.all_both]

theorem foldl_unlink (wires : List (OutputRef × InputRef)) (graph : Graph) :
    wires.foldl (fun graph (source, target) => graph.unlink source target) graph =
      graph.restrict (Keep.without wires) := by
  induction wires generalizing graph with
  | nil => exact (restrictEnds_all graph).symm
  | cons wire wires ih =>
    rw [List.foldl_cons, ih]
    simp only [unlink_eq_restrict, restrict, restrictEnds_restrictEnds, Keep.both_without,
      List.singleton_append]

private theorem foldl_dropTargets (wires : List (OutputRef × InputRef)) (graph : Graph) :
    wires.foldl (fun graph wire => graph.modifyOutput wire.1 fun output =>
      { output with targets := output.targets.filter (· != wire.2) }) graph =
      graph.restrictEnds Keep.all (Keep.without wires) := by
  induction wires generalizing graph with
  | nil => exact (restrictEnds_all graph).symm
  | cons wire wires ih =>
    rw [List.foldl_cons, ih, modifyOutput_filter, restrictEnds_restrictEnds, Keep.both_without]
    rfl

private theorem foldl_dropSources (wires : List (OutputRef × InputRef)) (graph : Graph) :
    wires.foldl (fun graph wire => graph.modifyInput wire.2 fun input =>
      { input with wires := input.wires.filter (·.source != wire.1) }) graph =
      graph.restrictEnds (Keep.without wires) Keep.all := by
  induction wires generalizing graph with
  | nil => exact (restrictEnds_all graph).symm
  | cons wire wires ih =>
    rw [List.foldl_cons, ih, modifyInput_filter, restrictEnds_restrictEnds, Keep.both_without]
    rfl

def wiresInto (id : NodeId) (node : Node) : List (OutputRef × InputRef) :=
  node.inputs.zipIdx.flatMap fun (input, slot) => input.wires.map fun wire =>
    (wire.source, ⟨id, slot⟩)

def wiresOutOf (id : NodeId) (node : Node) : List (OutputRef × InputRef) :=
  node.outputs.zipIdx.flatMap fun (output, slot) => output.targets.map fun target =>
    (⟨id, slot⟩, target)

theorem detach?_eq_ends (graph : Graph) (id : NodeId) :
    graph.detach? id = (graph.node? id).map fun node =>
      (node, (graph.clear id).restrictEnds (Keep.without (wiresOutOf id node))
        (Keep.without (wiresInto id node))) := by
  unfold detach?
  cases graph.node? id with
  | none => rfl
  | some node =>
    have into := foldl_dropTargets (wiresInto id node) (graph.clear id)
    have outOf := foldl_dropSources (wiresOutOf id node)
      ((graph.clear id).restrictEnds Keep.all (Keep.without (wiresInto id node)))
    simp only [wiresInto, wiresOutOf, List.foldl_flatMap, List.foldl_map,
      restrictEnds_restrictEnds] at into outOf
    simp only [wiresInto, wiresOutOf, Option.map_some]
    rw [Keep.both_all, Keep.all_both, ← into] at outOf
    exact congrArg (fun next => some (node, next)) outOf

/-- The graph with a wire added at both its ends. -/
def join (graph : Graph) (source : OutputRef) (target : InputRef) (relays : List Position) :
    Graph :=
  (graph.modifyInput target fun input =>
    { input with wires := input.wires ++ [{ source, relays }] }).modifyOutput source
      fun output => { output with targets := output.targets ++ [target] }

theorem link_eq_join (graph : Graph) (source : OutputRef) (target : InputRef)
    (relays : List Position) (others : List (OutputRef × InputRef)) :
    graph.link source target relays others =
      (graph.restrict (Keep.without (others ++ [(source, target)]))).join source target relays := by
  rw [← foldl_unlink, List.foldl_append]
  rfl

end Graph

end NodeScript
