import NodeScript.Proofs.Graph.Vacated

/-!
What a function leaves behind that is changed or removed while no node calls it. Its nodes are
taken out with all their wires, and the nodes that may come in their stead have none. Main
statements: `WellFormed.abandoned_removeFunction` and `WellFormed.abandoned_redefineFunction`.
-/

set_option autoImplicit false
set_option relaxedAutoImplicit false

namespace NodeScript

/-- The wires stay that touch none of some nodes. -/
def Keep.off (ids : List NodeId) : Keep := fun source target =>
  !ids.contains source.node && !ids.contains target.node

theorem Keep.off_nil : Keep.off [] = Keep.all := rfl

theorem Keep.both_off (id : NodeId) (ids : List NodeId) :
    (Keep.apart id).both (Keep.off ids) = Keep.off (ids ++ [id]) := by
  funext source target
  simp only [both, apart, off, List.contains_append, List.contains_cons, List.contains_nil,
    Bool.or_false, Bool.not_or, bne]
  cases source.node == id <;> cases target.node == id <;> simp

theorem NodeKind.boundary_of_function? {kind : NodeKind} {f : FunctionId}
    (of : kind.function? = some f) (uncalled : kind ≠ .call f) :
    kind = .functionInput f ∨ kind = .functionOutput f := by
  cases kind <;> simp_all [function?]

namespace Graph

variable {admits : Admits} {graph state next : Graph} {f g : FunctionId} {id : NodeId}

def boundTo (graph : Graph) (f : FunctionId) : List NodeId :=
  graph.nodesOfKind (·.function? == some f)

theorem mem_boundTo : id ∈ graph.boundTo f ↔
    ∃ form, graph.form? id = some form ∧ form.kind.function? = some f := by
  simp only [boundTo, mem_nodesOfKind, beq_iff_eq]

def Outside (graph : Graph) (f : FunctionId) (id : NodeId) : Prop :=
  (graph.node? id).isSome ∧ id ∉ graph.boundTo f

/-- The nodes of a function are taken out with their wires. New nodes are inputs or outputs of
functions, and what the nodes that are left were made from stays. -/
structure Abandoned (graph next : Graph) (f : FunctionId) : Prop where
  nodes : ∀ id, graph.Outside f id →
    next.node? id = (graph.restrict (Keep.off (graph.boundTo f))).node? id
  others : ∀ id form, next.form? id = some form →
    graph.Outside f id ∨ ∃ g, form.kind = .functionInput g ∨ form.kind = .functionOutput g
  functions : ∀ g, g ≠ f → (graph.function? g).isSome → next.function? g = graph.function? g
  structs : next.structs = graph.structs

/-- Some nodes of a graph are gone with their wires, and perhaps a function has new ones. -/
structure Cleared (graph : Graph) (done : List NodeId) (state : Graph) : Prop where
  size : graph.arena.size ≤ state.arena.size
  nodes : ∀ id, (graph.node? id).isSome → id ∉ done →
    state.node? id = (graph.restrict (Keep.off done)).node? id
  others : ∀ id form, state.form? id = some form → (graph.node? id).isSome ∧ id ∉ done ∨
    ∃ g, form.kind = .functionInput g ∨ form.kind = .functionOutput g
  structs : state.structs = graph.structs

variable {done : List NodeId}

theorem Cleared.start (arena : state.arena = graph.arena)
    (structs : state.structs = graph.structs) :
    Cleared graph [] state := by
  have same (id : NodeId) : state.node? id = graph.node? id := by rw [node?, node?, arena]
  refine ⟨Nat.le_of_eq (congrArg Array.size arena.symm), fun id _ _ => ?_, fun id form hf => ?_,
    structs⟩
  · rw [same, Keep.off_nil, restrict, restrictEnds_all]
  · obtain ⟨node, hn, -⟩ := node?_of_form? hf
    exact .inl ⟨Option.isSome_of_eq_some ((same id).symm.trans hn), by simp⟩

/-- Another node is taken out. -/
theorem Cleared.detached (cleared : Cleared graph done state) (id : NodeId) :
    Cleared graph (done ++ [id]) ((state.restrict (Keep.apart id)).clear id) := by
  refine ⟨by simpa [restrict] using cleared.size, fun other here left => ?_,
    fun other form hf => ?_,
    cleared.structs⟩
  · rw [List.mem_append, List.mem_singleton, not_or] at left
    rw [node?_clear, if_neg left.2, restrict, node?_restrictEnds, cleared.nodes other here left.1,
      ← node?_restrictEnds, ← restrict, restrict, restrict, restrictEnds_restrictEnds,
      Keep.both_off, restrict]
  · rw [form?_clear, form?_restrict] at hf
    split at hf
    · simp at hf
    · rename_i apart
      refine (cleared.others other form hf).imp_left ?_
      rintro ⟨here, left⟩
      refine ⟨here, fun mem => ?_⟩
      rcases List.mem_append.1 mem with before | same
      · exact left before
      · exact apart (List.mem_singleton.1 same)

/-- A new node for a function comes. -/
theorem Cleared.push (cleared : Cleared graph done state) {node : Node}
    (kind : node.kind = .functionInput g ∨ node.kind = .functionOutput g) :
    Cleared graph done (state.push node).2 := by
  refine ⟨?_, fun id here left => ?_, fun id form hf => ?_, cleared.structs⟩
  · simpa [Graph.push] using Nat.le_succ_of_le cleared.size
  · have fresh : graph.node? ⟨state.arena.size⟩ = none := node?_eq_none_of_size_le cleared.size
    have older : id ≠ ⟨state.arena.size⟩ := by
      rintro rfl
      simp [fresh] at here
    rw [node?_push, if_neg older]
    exact cleared.nodes id here left
  · rw [form?_push] at hf
    split at hf
    · obtain rfl := Option.some.inj hf
      exact .inr ⟨g, kind⟩
    · exact cleared.others id form hf

theorem Cleared.of_definitions (cleared : Cleared graph done state)
    (arena : next.arena = state.arena)
    (structs : next.structs = state.structs) : Cleared graph done next := by
  have same (id : NodeId) : next.node? id = state.node? id := by rw [node?, node?, arena]
  have forms (id : NodeId) : next.form? id = state.form? id := by rw [form?, form?, same]
  refine ⟨?_, ?_, ?_, structs.trans cleared.structs⟩
  · rw [arena]
    exact cleared.size
  · intro id here left
    rw [same]
    exact cleared.nodes id here left
  · intro id form hf
    rw [forms] at hf
    exact cleared.others id form hf

theorem Pending.cleared_foldl_detach {bound : NodeKind → Prop} {start : NodeId → Option Form}
    {rest : List NodeId} (pending : Pending admits bound start rest state)
    (cleared : Cleared graph done state) : Cleared graph (done ++ rest) (rest.foldl detach state) ∧
      (rest.foldl detach state).functions = state.functions := by
  induction rest generalizing state done with
  | nil => exact ⟨by simpa using cleared, rfl⟩
  | cons id rest ih =>
    obtain ⟨node, -, -, detached⟩ := pending.detach?_eq
    rw [List.foldl_cons, detach, detached]
    obtain ⟨cleared', functions⟩ := ih pending.detached (cleared.detached id)
    exact ⟨by simpa using cleared', functions⟩

theorem Cleared.abandoned (cleared : Cleared graph (graph.boundTo f) next)
    (functions : ∀ g, g ≠ f → (graph.function? g).isSome → next.function? g = graph.function? g) :
    graph.Abandoned next f := by
  refine ⟨?_, cleared.others, functions, cleared.structs⟩
  intro id outside
  exact cleared.nodes id outside.1 outside.2

theorem WellFormed.abandoned_removeFunction (formed : graph.WellFormed admits)
    (removed : graph.removeFunction f = (true, next)) : graph.Abandoned next f := by
  unfold Graph.removeFunction at removed
  split at removed
  · simp at removed
  have pending := (formed.withoutFunction f).pending graph
    (·.function? == some f) (fun _ => rfl) (fun kind => by simp [BoundTo])
    (fun entry he => by
      simp [BoundTo, NodeKind.function?, (mem_withoutFunction.1 he).2])
    (fun entry _ => by simp [BoundTo, NodeKind.function?])
  have start : Cleared graph [] (graph.withoutFunction f) := .start rfl rfl
  obtain ⟨cleared, functions⟩ := pending.cleared_foldl_detach start
  obtain rfl : _ = next := congrArg Prod.snd removed
  refine Cleared.abandoned cleared fun g other _ => ?_
  refine (congrArg (List.find? (·.id == g)) functions).trans ?_
  simp only [withoutFunction, function?, List.find?_filter]
  congr 1
  funext entry
  by_cases same : entry.id = g <;> simp [same, other]

theorem function?_modifyFunction {change : FunctionEntry → FunctionEntry} (other : g ≠ f)
    (same : ∀ entry, entry.id = f → (change entry).id ≠ g) :
    (graph.modifyFunction f change).function? g = graph.function? g := by
  simp only [modifyFunction, function?]
  induction graph.functions with
  | nil => rfl
  | cons entry entries ih =>
    rw [List.map_cons, List.find?_cons, List.find?_cons, ih]
    by_cases here : entry.id = f
    · have apart : entry.id ≠ g := fun h => other (h.symm.trans here)
      rw [if_pos here, beq_false_of_ne (same entry here), beq_false_of_ne apart]
    · simp [here]

/-- The entries of functions while the nodes of one that is changed are replaced: the new entry has
the nodes that have been. -/
structure Refilled (graph : Graph) (old : FunctionEntry) (f : FunctionId) (done : List NodeId)
    (state : Graph) : Prop where
  others : ∀ g, g ≠ f → g ≠ old.id → state.function? g = graph.function? g
  entries : ∀ entry ∈ state.functions, entry ∈ graph.functions ∨ entry.id = f ∧
    (∀ id ∈ done, old.input = some id → entry.input.isSome) ∧
      ∀ id ∈ done, old.output = some id → entry.output.isSome

theorem Refilled.start (old : FunctionEntry) (signature : Signature) :
    Refilled graph old ⟨graph.nextDefinition⟩ [] (graph.redeclareFunction old.id signature) where
  others _ new other := function?_modifyFunction other fun _ _ => new.symm
  entries _ member := by
    rcases mem_redeclareFunction member with rfl | kept
    · exact .inr ⟨rfl, fun _ none => by simp at none, fun _ none => by simp at none⟩
    · exact .inl kept.1

def handOver (old : FunctionEntry) (node fresh : NodeId) (entry : FunctionEntry) : FunctionEntry :=
  if old.input = some node then { entry with input := some fresh }
  else if old.output = some node then { entry with output := some fresh }
  else entry

theorem id_handOver (old : FunctionEntry) (node fresh : NodeId) (entry : FunctionEntry) :
    (handOver old node fresh entry).id = entry.id := by
  unfold handOver
  split
  · rfl
  · split <;> rfl

theorem input_handOver {old entry : FunctionEntry} {node : NodeId} (fresh : NodeId)
    (filled : entry.input.isSome ∨ old.input = some node) :
    (handOver old node fresh entry).input.isSome := by
  unfold handOver
  split
  · rfl
  · have filled := filled.resolve_right ‹_›
    split <;> exact filled

theorem output_handOver {old entry : FunctionEntry} {node : NodeId} (fresh : NodeId)
    (apart : old.input = some node → old.output ≠ some node)
    (filled : entry.output.isSome ∨ old.output = some node) :
    (handOver old node fresh entry).output.isSome := by
  unfold handOver
  split
  · exact filled.resolve_right (apart ‹_›)
  · split
    · rfl
    · exact filled.resolve_right ‹_›

theorem replaceBound_cleared {old : FunctionEntry} {start : NodeId → Option Form}
    {rest : List NodeId} (newer : ∀ entry ∈ graph.functions, entry.id ≠ f)
    (uncalled : ∀ form, start id = some form → form.kind ≠ .call old.id)
    (apart : old.input = some id → old.output ≠ some id)
    (pending : Pending admits (BoundTo old.id) start (id :: rest) state)
    (cleared : Cleared graph done state) (refilled : Refilled graph old f done state)
    (accepted : state.replaceBound old f id = .ok next) :
    Cleared graph (done ++ [id]) next ∧ Refilled graph old f (done ++ [id]) next := by
  obtain ⟨node, hnode, hbound, detached⟩ := pending.detach?_eq
  simp only [Graph.replaceBound, detached] at accepted
  obtain ⟨⟨fresh, middle⟩, added, changed⟩ := Accepted.bind_iff.1 accepted
  have changed : middle.modifyFunction f (handOver old id fresh) = next := Except.ok.inj changed
  subst changed
  obtain ⟨ports, -, -, rfl⟩ := addDefined_eq_ok_iff.1 added
  have kind : rebind f node.kind = .functionInput f ∨ rebind f node.kind = .functionOutput f := by
    rcases NodeKind.boundary_of_function? hbound (uncalled _ hnode) with kind | kind <;>
      simp [kind, rebind]
  refine ⟨((cleared.detached id).push kind).of_definitions rfl rfl, ⟨fun g new other => ?_, ?_⟩⟩
  · refine (function?_modifyFunction new fun entry same => ?_).trans (refilled.others g new other)
    rw [id_handOver, same]
    exact new.symm
  · intro entry member
    obtain ⟨before, hbefore, rfl⟩ := List.mem_map.1 member
    rcases refilled.entries before hbefore with kept | ⟨here, input, output⟩
    · rw [if_neg (newer before kept)]
      exact .inl kept
    rw [if_pos here]
    refine .inr ⟨(id_handOver ..).trans here, fun other mem own => ?_, fun other mem own => ?_⟩
    · refine input_handOver fresh ((List.mem_append.1 mem).imp (input other · own) fun same => ?_)
      rw [← List.mem_singleton.1 same]
      exact own
    · refine output_handOver fresh apart
        ((List.mem_append.1 mem).imp (output other · own) fun same => ?_)
      rw [← List.mem_singleton.1 same]
      exact own

/-- When all nodes have been replaced the new entry has the nodes that it needs. -/
theorem Refilled.complete {old : FunctionEntry} (formed : graph.WellFormed admits)
    (member : old ∈ graph.functions) (refilled : Refilled graph old f (graph.boundTo old.id) state)
    (structs : state.structs = graph.structs) : state.Complete := by
  have listed {id : NodeId} {kind : NodeKind} (has : graph.HasKind id kind)
      (of : kind.function? = some old.id) : id ∈ graph.boundTo old.id := by
    obtain ⟨form, hf, rfl⟩ := has
    exact mem_boundTo.2 ⟨form, hf, of⟩
  have constructors := formed.complete.constructors
  rw [← structs] at constructors
  refine ⟨fun entry he => ?_, fun entry he => ?_, constructors⟩
  · rcases refilled.entries entry he with kept | ⟨-, filled, -⟩
    · exact formed.complete.inputs entry kept
    · obtain ⟨id, own⟩ := Option.isSome_iff_exists.1 (formed.complete.inputs old member)
      exact filled id (listed (formed.owned.inputs old member id own) rfl) own
  · rcases refilled.entries entry he with kept | ⟨-, -, filled⟩
    · exact formed.complete.outputs entry kept
    · obtain ⟨id, own⟩ := Option.isSome_iff_exists.1 (formed.complete.outputs old member)
      exact filled id (listed (formed.owned.outputs old member id own) rfl) own

theorem WellFormed.abandoned_redefineFunction (formed : graph.WellFormed admits)
    {signature : Signature} (unused : graph.functionInUse f = false)
    (accepted : graph.redefineFunction f signature = .ok (some (g, next))) :
    graph.Abandoned next f := by
  obtain ⟨old, middle, found, rfl, free, -, replaced, completed⟩ :=
    redefineFunction_eq_some accepted
  obtain ⟨member, rfl⟩ := formed.declared.function?_iff.1 found
  obtain ⟨other, start⟩ := formed.pending_redeclareFunction member free
  have newer := formed.declared.function_ne_next
  have uncalled (id : NodeId) (form : Form) (hf : graph.form? id = some form) :
      form.kind ≠ .call old.id := fun call => by
    rw [functionInUse_iff.2 ⟨id, form, hf, call⟩] at unused
    simp at unused
  obtain ⟨-, cleared, refilled⟩ := Accepted.foldlM_done
    (fun done rest state => Pending admits (BoundTo old.id) graph.form? rest state ∧
      Cleared graph done state ∧ Refilled graph old ⟨graph.nextDefinition⟩ done state)
    (graph.nodesOfKind_nodup _)
    (fun done id rest state next _ held accepted => by
      obtain ⟨pending, cleared, refilled⟩ := held
      exact ⟨pending.replaceBound other (formed.owned.inputs old member id)
        (formed.owned.outputs old member id) accepted, replaceBound_cleared newer (uncalled id)
        (formed.owned.input_ne_output member) pending cleared refilled accepted⟩)
    ⟨start, .start rfl rfl, .start old signature⟩ replaced
  have complete := refilled.complete formed member cleared.structs
  obtain rfl : middle = next := Except.ok.inj (complete.completeDefinitions.symm.trans completed)
  refine cleared.abandoned fun g other known => refilled.others g ?_ other
  rintro rfl
  obtain ⟨entry, found⟩ := Option.isSome_iff_exists.1 known
  obtain ⟨mem, here⟩ := formed.declared.function?_iff.1 found
  exact newer entry mem here

end Graph

end NodeScript
