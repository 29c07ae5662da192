import NodeScript.Proofs.Format.Mirrored
import NodeScript.Proofs.Graph.Boundaries
import NodeScript.Proofs.Run.Checked
import NodeScript.Proofs.Run.Moved

/-!
What runs see of a graph that has been written and read. `Graph.Reloaded` says that a graph has the
nodes of another one at the places of their numbers, with the same wires into their inputs. Main
statements: control goes on at the same nodes (`Reloaded.target`), and functions have the same nodes
at their boundaries (`Reloaded.boundaryNodes`).
-/

set_option autoImplicit false
set_option relaxedAutoImplicit false

namespace NodeScript

open Format

theorem Node.config_eq_of_bare {node node' : Node} {kind : NodeKind}
    (same : node'.bare = { node.bare with kind }) : node'.config = node.config := by
  have fields := congrArg (fun node : Node => node.config) same
  exact fields

namespace Graph

variable {graph next : Graph}

/-- The number of a node among those that are left. -/
def number? (graph : Graph) (id : NodeId) : Option NodeId :=
  graph.ranks[id.index]?.join.map NodeId.mk

theorem number?_eq_some_iff {id number : NodeId} :
    graph.number? id = some number ↔ ∃ node, graph.live[number.index]? = some (id, node) := by
  rw [number?, Option.map_eq_some_iff, ← ranks_eq_some_iff]
  constructor
  · rintro ⟨i, rank, rfl⟩
    exact rank
  · intro rank
    exact ⟨number.index, rank, rfl⟩

theorem exists_number? {id : NodeId} {node : Node} (found : graph.node? id = some node) :
    ∃ number, graph.number? id = some number := by
  obtain ⟨i, number⟩ := exists_number found
  exact ⟨⟨i⟩, number?_eq_some_iff.2 ⟨node, number⟩⟩

def renumbering (graph : Graph) : Moving where
  address? := graph.number?
  injective := by
    intro a b number first second
    obtain ⟨node, first⟩ := number?_eq_some_iff.1 first
    obtain ⟨node', second⟩ := number?_eq_some_iff.1 second
    exact (Prod.mk.inj (Option.some.inj (first.symm.trans second))).1
  leaves id slot := ∃ port, graph.outputPort? ⟨id, slot⟩ = some port ∧ port.isSignal = true

/-- A graph has the nodes of another one at the places of their numbers, and the wires into their
inputs. -/
structure Reloaded (graph next : Graph) : Prop where
  formed : graph.WellFormed Registry.builtin.Declares
  formed' : next.WellFormed Registry.builtin.Declares
  sole : graph.SoleBoundaries
  mirrored : Mirrored graph next
  wires : ∀ {target target' input input'}, graph.renumbering.Input target target' →
    graph.input? target = some input → next.input? target' = some input' →
      List.Forall₂ (fun wire wire' => graph.renumbering.Output wire.source wire'.source)
        input.wires input'.wires

namespace Reloaded

variable (reloaded : graph.Reloaded next)
include reloaded

theorem node {id id' : NodeId} (address : graph.number? id = some id') : ∃ node node',
    graph.node? id = some node ∧ next.node? id' = some node' ∧
      graph.Alike next node.kind node'.kind ∧
      node'.bare = { node.bare with kind := node'.kind } := by
  obtain ⟨node, number⟩ := number?_eq_some_iff.1 address
  obtain ⟨kind, alike, bare⟩ := reloaded.mirrored.node id'.index id node number
  obtain ⟨node', found, same⟩ := Option.map_eq_some_iff.1 bare
  obtain rfl : node'.kind = kind := congrArg Node.kind same
  exact ⟨node, node', node?_of_number number, found, alike, same⟩

theorem exists_original {id' : NodeId} {node' : Node} (found : next.node? id' = some node') :
    ∃ id, graph.number? id = some id' := by
  have inside : id'.index < graph.live.length := by
    rw [← reloaded.mirrored.size]
    exact index_lt_of_node? found
  exact ⟨_, number?_eq_some_iff.2 ⟨_, List.getElem?_eq_getElem inside⟩⟩

theorem hasKind_iff {kind kind' : NodeKind} (alike : graph.Alike next kind kind')
    {id id' : NodeId} (address : graph.number? id = some id') :
    graph.HasKind id kind ↔ next.HasKind id' kind' := by
  obtain ⟨node, number⟩ := number?_eq_some_iff.1 address
  exact reloaded.mirrored.hasKind_iff reloaded.formed.declared reloaded.formed'.declared
    alike number

theorem builtin?_eq {id id' : NodeId} (address : graph.number? id = some id') :
    graph.builtin? id = next.builtin? id' := by
  obtain ⟨node, node', here, there, alike, bare⟩ := reloaded.node address
  rw [builtin?, builtin?, form?_eq_of_node? here, form?_eq_of_node? there, Option.bind_some,
    Option.bind_some, Form.builtin?, Form.builtin?, Node.form, Node.form,
      Node.config_eq_of_bare bare]
  generalize node.kind = kind at alike
  generalize node'.kind = kind' at alike
  cases alike <;> rfl

theorem bare_input?_eq {target target' : InputRef}
    (same : graph.renumbering.Input target target') :
    (graph.input? target).map (fun input => { input with wires := [] }) =
      (next.input? target').map fun input => { input with wires := [] } := by
  obtain ⟨node, node', here, there, -, bare⟩ := reloaded.node same.1
  rw [bare_input?, bare_input?, bare?, bare?, here, there, Option.map_some, Option.map_some,
    Option.bind_some, Option.bind_some, bare, same.2]

theorem outputPort?_eq {source source' : OutputRef}
    (same : graph.renumbering.Output source source') :
    graph.outputPort? source = next.outputPort? source' := by
  obtain ⟨node, node', here, there, -, bare⟩ := reloaded.node same.1
  have ports : node'.ports = node.ports := by
    have forms := congrArg (fun node : Node => node.form.ports) bare
    simpa [Node.form, Node.ports, Node.bare, Function.comp_def] using forms
  rw [outputPort?, outputPort?, form?_eq_of_node? here, form?_eq_of_node? there, Option.bind_some,
    Option.bind_some, Node.form, Node.form, ports, same.2]

/-- An input of a node reads the same output or the same literal. -/
theorem input {target target' : InputRef} (same : graph.renumbering.Input target target')
    {input : Input} (found : graph.input? target = some input) :
    ∃ input', next.input? target' = some input' ∧ input.port = input'.port ∧
      input.literal? = input'.literal? ∧
      Option.Rel graph.renumbering.Output input.source? input'.source? := by
  have both := reloaded.bare_input?_eq same
  rw [found, Option.map_some, eq_comm, Option.map_eq_some_iff] at both
  obtain ⟨input', found', bare⟩ := both
  obtain ⟨port, -, inset⟩ := Input.mk.inj bare
  refine ⟨input', found', port.symm, by rw [Input.literal?, Input.literal?, port, inset], ?_⟩
  have wires := reloaded.wires same found found'
  rw [Input.source?, Input.source?]
  generalize input.wires = here at wires
  generalize input'.wires = there at wires
  cases wires with
  | nil => exact .none
  | cons first _ => exact .some first

theorem input_none {target target' : InputRef} (same : graph.renumbering.Input target target')
    (missing : graph.input? target = none) : next.input? target' = none := by
  have both := reloaded.bare_input?_eq same
  rw [missing, Option.map_none, eq_comm, Option.map_eq_none_iff] at both
  exact both

theorem exists_target {source : OutputRef} {target : InputRef}
    (leads : graph.signalTarget? source = some target) :
    ∃ target', graph.renumbering.Input target target' := by
  rw [signalTarget?_eq, Option.bind_eq_some_iff] at leads
  obtain ⟨output, out, first⟩ := leads
  obtain ⟨input, found, -⟩ := reloaded.formed.wired.target out (List.mem_of_head? first)
  obtain ⟨node, here, -⟩ := Option.bind_eq_some_iff.1 found
  obtain ⟨number, address⟩ := exists_number? here
  exact ⟨⟨number, target.slot⟩, address, rfl⟩

end Reloaded

private theorem exists_left_of_forall₂ {α β : Type} {rel : α → β → Prop} {xs : List α} {ys : List β}
    (related : List.Forall₂ rel xs ys) {y : β} (mem : y ∈ ys) : ∃ x ∈ xs, rel x y := by
  obtain ⟨i, inside, rfl⟩ := List.getElem_of_mem mem
  refine ⟨xs.get ⟨i, ?_⟩, List.get_mem _ _, related.get _ inside⟩
  rw [related.length_eq]
  exact inside

theorem Wired.signalTarget?_eq_some_iff (wired : graph.Wired) {source : OutputRef} {port : Port}
    (found : graph.outputPort? source = some port) (signal : port.isSignal = true)
    {target : InputRef} : graph.signalTarget? source = some target ↔
      ∃ input, graph.input? target = some input ∧ ∃ wire ∈ input.wires, wire.source = source := by
  rw [outputPort?_eq, Option.map_eq_some_iff] at found
  obtain ⟨output, out, rfl⟩ := found
  rw [signalTarget?_eq, out, Option.bind_some]
  constructor
  · intro first
    exact wired.target out (List.mem_of_head? first)
  · rintro ⟨input, here, wire, mem, rfl⟩
    obtain ⟨output', out', leads, -⟩ := wired.source here mem
    obtain rfl := Option.some.inj (out.symm.trans out')
    have few := wired.oneTarget out signal
    match targets : output.targets, few with
    | [other], _ =>
      rw [targets, List.mem_singleton] at leads
      rw [leads]
      rfl
    | [], _ => simp [targets] at leads

namespace Reloaded

variable (reloaded : graph.Reloaded next)
include reloaded

private theorem signalTarget?_iff {source source' : OutputRef}
    (same : graph.renumbering.Output source source')
    (leaves : graph.renumbering.leaves source.node source.slot) {target target' : InputRef}
    (moved : graph.renumbering.Input target target') :
    graph.signalTarget? source = some target ↔ next.signalTarget? source' = some target' := by
  obtain ⟨port, out, signal⟩ := leaves
  have out : graph.outputPort? source = some port := out
  have out' := (reloaded.outputPort?_eq same).symm.trans out
  rw [reloaded.formed.wired.signalTarget?_eq_some_iff out signal,
    reloaded.formed'.wired.signalTarget?_eq_some_iff out' signal]
  constructor
  · rintro ⟨input, found, wire, mem, rfl⟩
    obtain ⟨input', found', -⟩ := reloaded.input moved found
    obtain ⟨wire', mem', there⟩ := exists_left_of_forall₂
      (reloaded.wires moved found found').flip mem
    exact ⟨input', found', wire', mem', Moving.Output.unique there same⟩
  · rintro ⟨input', found', wire', mem', rfl⟩
    cases found : graph.input? target with
    | none => simp [reloaded.input_none moved found] at found'
    | some input =>
      obtain ⟨wire, mem, here⟩ := exists_left_of_forall₂ (reloaded.wires moved found found') mem'
      exact ⟨input, rfl, wire, mem, Moving.Output.injective here same⟩

/-- Control goes on at the same input. -/
theorem target {source source' : OutputRef} (same : graph.renumbering.Output source source')
    (leaves : graph.renumbering.leaves source.node source.slot) :
    Option.Rel graph.renumbering.Input (graph.signalTarget? source)
      (next.signalTarget? source') := by
  cases leads : graph.signalTarget? source with
  | some target =>
    obtain ⟨target', moved⟩ := reloaded.exists_target leads
    rw [(reloaded.signalTarget?_iff same leaves moved).1 leads]
    exact .some moved
  | none =>
    cases leads' : next.signalTarget? source' with
    | none => exact .none
    | some target' =>
      rw [signalTarget?_eq, Option.bind_eq_some_iff] at leads'
      obtain ⟨output, out, first⟩ := leads'
      obtain ⟨input, found, -⟩ := reloaded.formed'.wired.target out (List.mem_of_head? first)
      obtain ⟨node, there, -⟩ := Option.bind_eq_some_iff.1 found
      obtain ⟨id, address⟩ := reloaded.exists_original there
      have moved : graph.renumbering.Input ⟨id, target'.slot⟩ target' := ⟨address, rfl⟩
      have back := (reloaded.signalTarget?_iff same leaves moved).2
        (by rw [signalTarget?_eq, out]; exact first)
      simp [leads] at back

/-- The only node of a boundary kind. -/
private theorem boundary {kind kind' : NodeKind} (alike : graph.Alike next kind kind')
    (boundary : kind.IsBoundary) {id id' : NodeId} (here : graph.HasKind id kind)
    (there : next.HasKind id' kind') : graph.number? id = some id' := by
  obtain ⟨node', found, -⟩ := Graph.hasKind_iff.1 there
  obtain ⟨original, address⟩ := reloaded.exists_original found
  have other := (reloaded.hasKind_iff alike address).2 there
  rw [reloaded.sole.unique boundary here other]
  exact address

/-- A call finds the same nodes at the boundary of its function. -/
theorem boundaryNodes {f f' : FunctionId} {call call' : NodeId} (limit : Nat)
    (calls : graph.HasKind call (.call f)) (calls' : next.HasKind call' (.call f'))
    (alike : graph.Alike next (.call f) (.call f')) : ∃ entry exit entry' exit',
    (graph.machine .builtin limit).boundaryNodes call f = pure (entry, exit) ∧
      (next.machine .builtin limit).boundaryNodes call' f' = pure (entry', exit') ∧
      graph.number? entry = some entry' ∧ graph.number? exit = some exit' ∧
      graph.HasKind entry (.functionInput f) ∧ graph.HasKind exit (.functionOutput f) := by
  obtain ⟨entry, exit, nodes, begins, ends⟩ := reloaded.formed.boundaryNodes .builtin limit calls
  obtain ⟨entry', exit', nodes', begins', ends'⟩ :=
    reloaded.formed'.boundaryNodes .builtin limit calls'
  cases alike with
  | call here there =>
    exact ⟨entry, exit, entry', exit', nodes, nodes',
      reloaded.boundary (.functionInput here there) trivial begins begins',
      reloaded.boundary (.functionOutput here there) trivial ends ends', begins, ends⟩

end Reloaded

end Graph

end NodeScript
