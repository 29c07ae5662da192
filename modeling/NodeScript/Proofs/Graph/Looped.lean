import NodeScript.Proofs.Graph.Acyclic

/-!
Wires that are refused. `Graph.ReadsWith` relates a node to the nodes whose values it would read
with one more wire, which takes the place of those at the same input. Main statement: a wire
between values is refused exactly when this relation has a loop, and otherwise it is the relation
of the next graph (`Wired.connect_value`).
-/

set_option autoImplicit false
set_option relaxedAutoImplicit false

namespace NodeScript.Graph

open Relation

/-- A node reads a value of another once a wire has taken the place of those into an input of
values. -/
inductive ReadsWith (graph : Graph) (source : OutputRef) (target : InputRef) :
    NodeId → NodeId → Prop where
  | kept {ref : InputRef} {input : Input} {wire : Wire} (elsewhere : ref ≠ target)
      (found : graph.input? ref = some input) (value : input.port.isSignal = false)
      (wired : wire ∈ input.wires) : ReadsWith graph source target ref.node wire.source.node
  | new : ReadsWith graph source target target.node source.node

variable {graph : Graph} {source : OutputRef} {target : InputRef} {output : Output} {input : Input}

theorem ReadsWith.reads_or_new {id other : NodeId}
    (reads : graph.ReadsWith source target id other) :
    graph.Reads id other ∨ (id = target.node ∧ other = source.node) := by
  cases reads with
  | @kept ref input wire _ found value wired =>
    exact .inl (reads_iff.2 ⟨ref.slot, input, wire, found, value, wired, rfl⟩)
  | new => exact .inr ⟨rfl, rfl⟩

theorem Reads.readsWith {id other : NodeId} (reads : graph.Reads id other)
    (apart : id ≠ target.node) :
    graph.ReadsWith source target id other := by
  obtain ⟨slot, input, wire, found, value, wired, rfl⟩ := reads_iff.1 reads
  have elsewhere : (⟨id, slot⟩ : InputRef) ≠ target := by
    intro same
    subst same
    exact apart rfl
  exact ReadsWith.kept elsewhere found value wired

theorem readsWith_path {id : NodeId} (path : ReflTransGen graph.Reads id target.node) :
    ReflTransGen (graph.ReadsWith source target) id target.node := by
  induction path using ReflTransGen.head_induction_on with
  | refl => exact .refl
  | @head id other reads _ ih =>
    by_cases here : id = target.node
    · subst here
      exact .refl
    · exact .head (reads.readsWith here) ih

theorem Acyclic.loop_iff (acyclic : graph.Acyclic) :
    (∃ id, TransGen (graph.ReadsWith source target) id id) ↔
      ReflTransGen graph.Reads source.node target.node := by
  constructor
  · rintro ⟨id, loop⟩
    have pairs (id other : NodeId) (reads : graph.ReadsWith source target id other) :
        graph.Reads id other ∨ (id = target.node ∧ other = source.node) := reads.reads_or_new
    rcases transGen_of_added pairs loop with old | ⟨_, _, ⟨rfl, upTo⟩, rfl, onwards⟩
    · exact absurd old (acyclic id)
    · exact onwards.trans upTo
  · intro path
    exact ⟨target.node, .head' .new (readsWith_path path)⟩

/-- What is read once the wire is put in. -/
theorem reads_link (found : graph.input? target = some input)
    (value : output.port.isSignal = false) (same : output.port.type.same input.port.type = true)
    (relays : List Position) (id other : NodeId) :
    (graph.link source target relays (displaced source target output input)).Reads id other ↔
      graph.ReadsWith source target id other := by
  have valueInput : input.port.isSignal = false := (DataType.isSignal_of_same same).symm.trans value
  -- only wires into the target are taken out, and all of those are
  have inputs (ref : InputRef) :
      (graph.link source target relays (displaced source target output input)).input? ref =
        if ref = target then some { input with wires := [{ source, relays }] }
        else graph.input? ref := by
    rw [link_eq_join, input?_join, Graph.restrict, input?_restrictEnds, input?_restrictEnds, found]
    generalize removed : Keep.without (displaced source target output input ++
      [(source, target)]) = keep
    by_cases here : ref = target
    · have gone : ∀ wire ∈ input.wires, keep wire.source target = false := by
        intro wire hw
        simp only [← removed, displaced, value, Bool.false_eq_true, if_false, Keep.without]
        simpa using fun absent => absurd rfl (absent wire hw)
      simp only [here, if_true, Option.map_some, Input.restrict, Option.some.injEq]
      rw [List.filter_eq_nil_iff.2 fun wire hw => by simp [gone wire hw]]
      rfl
    · have stays (old : Input) : old.restrict keep ref = old := by
        refine Input.restrict_eq_self fun wire _ => ?_
        simp [← removed, Keep.without, displaced, value, here, Ne.symm here]
      cases graph.input? ref <;> simp [here, stays]
  rw [reads_iff]
  constructor
  · rintro ⟨slot, new, wire, hnew, hv, hw, rfl⟩
    rw [inputs] at hnew
    split at hnew
    · rename_i here
      cases hnew
      obtain rfl := List.mem_singleton.1 hw
      subst here
      exact .new
    · rename_i elsewhere
      exact ReadsWith.kept elsewhere hnew hv hw
  · intro reads
    cases reads with
    | @kept ref old wire elsewhere hold hv hw =>
      exact ⟨ref.slot, old, wire, (inputs ref).trans (by rw [if_neg elsewhere, hold]), hv, hw, rfl⟩
    | new =>
      exact ⟨target.slot, _, { source, relays }, (inputs target).trans (if_pos rfl), valueInput,
        List.mem_singleton_self _, rfl⟩

/-- A wire between ports of one type of values is refused exactly when it would close a loop. -/
theorem Wired.connect_value (wired : graph.Wired) (acyclic : graph.Acyclic)
    (outputAt : graph.output? source = some output) (inputAt : graph.input? target = some input)
    (same : output.port.type.same input.port.type = true)
    (value : output.port.isSignal = false) (relays : List Position) :
    (graph.connect source target relays = .error (.valueLoop target.node) ↔
        ∃ id, TransGen (graph.ReadsWith source target) id id) ∧
      ((¬∃ id, TransGen (graph.ReadsWith source target) id id) →
        ∃ next, graph.connect source target relays = .ok next ∧
          ∀ id other, next.Reads id other ↔ graph.ReadsWith source target id other) := by
  rw [acyclic.loop_iff, ← wired.dependsOn_iff]
  cases loops : graph.dependsOn source.node target.node with
  | true =>
    have refused : graph.connect source target relays = .error (.valueLoop target.node) := by
      simp [connect, displacedBy, output_eq_ok_iff.2 outputAt, input_eq_ok_iff.2 inputAt,
        same, value,
        loops, bind, Except.bind, throw, throwThe, MonadExceptOf.throw]
    exact ⟨iff_of_true refused rfl, fun free => absurd rfl free⟩
  | false =>
    have joinable : graph.Joinable source target output input :=
      ⟨outputAt, inputAt, same, fun _ => loops⟩
    have accepted : graph.connect source target relays =
        .ok (graph.link source target relays (displaced source target output input)) := by
      rw [connect, displacedBy_of_joinable joinable]
      rfl
    refine ⟨iff_of_false (by simp [accepted]) (by simp), fun _ => ⟨_, accepted, ?_⟩⟩
    exact reads_link inputAt value same relays

end NodeScript.Graph
