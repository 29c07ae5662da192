import NodeScript.Proofs.Format.Replaced
import NodeScript.Proofs.Graph.Numbers

/-!
Definitions that are changed while they are in use. Main statement:
`Graph.Authored.redefined_in_place`, by which the definition and the nodes made from it are replaced
as a whole, at addresses that are new, and nothing else changes.
-/

set_option autoImplicit false
set_option relaxedAutoImplicit false

namespace NodeScript

namespace Graph

variable {admits : Admits} {graph state next : Graph} {done : List NodeId} {id : NodeId}

theorem mem_boundTo_of_node? {node : Node} (here : graph.node? id = some node) {f : FunctionId} :
    id ∈ graph.boundTo f ↔ node.kind.function? = some f := by
  rw [mem_boundTo, form?_eq_of_node? here]
  simp [Node.form]

theorem boundTo_live {f : FunctionId} (mem : id ∈ graph.boundTo f) : (graph.node? id).isSome := by
  obtain ⟨form, found, -⟩ := mem_boundTo.1 mem
  obtain ⟨node, here, -⟩ := node?_of_form? found
  exact Option.isSome_of_eq_some here

theorem boundTo_nodup (graph : Graph) (f : FunctionId) : (graph.boundTo f).Nodup :=
  graph.nodesOfKind_nodup _

theorem WellFormed.boundTo_eq_nil (formed : graph.WellFormed admits) {f : FunctionId}
    (absent : ∀ entry ∈ graph.functions, entry.id ≠ f) : graph.boundTo f = [] := by
  refine List.eq_nil_iff_forall_not_mem.2 fun id mem => ?_
  obtain ⟨form, found, of⟩ := mem_boundTo.1 mem
  have mirrors := formed.mirrors found
  cases kind : form.kind <;> rw [kind] at of mirrors <;>
    simp only [NodeKind.function?, Option.some.injEq, reduceCtorEq] at of
  all_goals
    obtain ⟨entry, member, same, -⟩ := mirrors
    exact absent entry member (same.trans of)

theorem portsOf_rebind (f : FunctionId) (k : NodeKind) (signature : Signature) :
    (rebind f k).portsOf signature = k.portsOf signature := by
  cases k <;> rfl

/-- What a changed function is like when some of its nodes have been replaced. -/
structure Refitting (graph : Graph) (old : FunctionEntry) (f : FunctionId) (signature : Signature)
    (done : List NodeId) (state : Graph) : Prop where
  nodes : Exchanging (rebind f) (·.portsOf signature) graph done state
  functions : state.functions = graph.functions.map fun entry =>
    if entry.id = old.id then graph.refit old f signature done else entry
  structs : state.structs = graph.structs

theorem Refitting.replaceBound {old : FunctionEntry} {f : FunctionId} {signature : Signature}
    {rest : List NodeId} (refitting : graph.Refitting old f signature done state)
    (member : old ∈ graph.functions) (newer : ∀ entry ∈ graph.functions, entry.id ≠ f)
    (left : id ∉ done) (apart : old.input = some id → old.output ≠ some id)
    (pending : Pending admits (BoundTo old.id) graph.form? (id :: rest) state)
    (accepted : state.replaceBound old f id = .ok next) :
    graph.Refitting old f signature (done ++ [id]) next := by
  obtain ⟨node, there, bound, detached⟩ := pending.detach?_eq
  obtain ⟨before, here, -⟩ := node?_of_form? there
  simp only [Graph.replaceBound, detached] at accepted
  obtain ⟨⟨fresh, middle⟩, added, changed⟩ := Accepted.bind_iff.1 accepted
  have changed : middle.modifyFunction f (handOver old id fresh) = next := Except.ok.inj changed
  subst changed
  have known : ((state.restrict (Keep.apart id)).clear id).signature? f = some signature := by
    refine pending.sound.declared.signature?_eq_some_iff.2
      ⟨graph.refit old f signature done, ?_, rfl, rfl⟩
    rw [refitting.functions]
    exact List.mem_map.2 ⟨old, member, if_pos rfl⟩
  have defined : ((state.restrict (Keep.apart id)).clear id).definedPorts (rebind f node.kind) =
      .ok (node.kind.portsOf signature) := by
    rw [definedPorts_of_function _ (function?_rebind bound), known, ← portsOf_rebind f]
  obtain ⟨rfl, nodes, functions, structs⟩ :=
    refitting.nodes.exchanged pending.sound.wired here left detached defined added
  refine ⟨nodes.of_arena rfl, ?_, structs.trans refitting.structs⟩
  show middle.functions.map _ = _
  rw [functions, refitting.functions, List.map_map]
  refine List.map_congr_left fun entry mem => ?_
  by_cases same : entry.id = old.id
  · simp only [Function.comp_apply, same, if_true]
    exact (if_pos rfl).trans (handOver_refit f signature left apart)
  · simp [same, newer entry mem]

/-- A changed function has its nodes when all have been replaced. -/
theorem Refitting.complete {old : FunctionEntry} {f : FunctionId} {signature : Signature}
    (refitting : graph.Refitting old f signature (graph.boundTo old.id) next)
    (formed : graph.WellFormed admits) (member : old ∈ graph.functions) : next.Complete := by
  have listed {id : NodeId} {k : NodeKind} (has : graph.HasKind id k)
      (of : k.function? = some old.id) : id ∈ graph.boundTo old.id := by
    obtain ⟨form, found, rfl⟩ := has
    exact mem_boundTo.2 ⟨form, found, of⟩
  obtain ⟨input, own⟩ := Option.isSome_iff_exists.1 (formed.complete.inputs old member)
  obtain ⟨output, own'⟩ := Option.isSome_iff_exists.1 (formed.complete.outputs old member)
  have filled := graph.renamed_isSome own (listed (formed.owned.inputs old member input own) rfl)
  have filled' := graph.renamed_isSome own'
    (listed (formed.owned.outputs old member output own') rfl)
  have constructors := formed.complete.constructors
  rw [← refitting.structs] at constructors
  refine ⟨fun entry mem => ?_, fun entry mem => ?_, constructors⟩
  all_goals
    rw [refitting.functions] at mem
    obtain ⟨before, declared, rfl⟩ := List.mem_map.1 mem
    split
  · exact filled
  · exact formed.complete.inputs before declared
  · exact filled'
  · exact formed.complete.outputs before declared

theorem WellFormed.refitting_redefineFunction (formed : graph.WellFormed admits)
    {previous f : FunctionId} {signature : Signature}
    (accepted : graph.redefineFunction previous signature = .ok (some (f, next))) :
    ∃ old, graph.function? previous = some old ∧ f = ⟨graph.nextDefinition⟩ ∧
      graph.Refitting old f signature (graph.boundTo previous) next := by
  obtain ⟨old, middle, found, rfl, free, -, replaced, completed⟩ :=
    redefineFunction_eq_some accepted
  obtain ⟨member, rfl⟩ := formed.declared.function?_iff.1 found
  obtain ⟨other, start⟩ := formed.pending_redeclareFunction member free
  have newer := formed.declared.function_ne_next
  have first : graph.Refitting old ⟨graph.nextDefinition⟩ signature []
      (graph.redeclareFunction old.id signature) := by
    refine ⟨.start rfl, List.map_congr_left fun entry _ => ?_, rfl⟩
    have none (own : Option NodeId) : graph.renamed [] own = none := by cases own <;> rfl
    simp only [refit, none]
  obtain ⟨-, refitting⟩ := Accepted.foldlM_done
    (fun done rest state => Pending admits (BoundTo old.id) graph.form? rest state ∧
      graph.Refitting old ⟨graph.nextDefinition⟩ signature done state)
    (graph.boundTo_nodup old.id)
    (fun done id rest state next left held accepted => by
      obtain ⟨pending, refitting⟩ := held
      exact ⟨pending.replaceBound other (formed.owned.inputs old member id)
        (formed.owned.outputs old member id) accepted,
        refitting.replaceBound member newer left (formed.owned.input_ne_output member) pending
          accepted⟩)
    ⟨start, first⟩ replaced
  have complete := refitting.complete formed member
  obtain rfl : middle = next := Except.ok.inj (complete.completeDefinitions.symm.trans completed)
  exact ⟨old, found, rfl, refitting⟩

def constructorsOf (graph : Graph) (s : StructId) : List NodeId :=
  graph.nodesOfKind (· == .construct s)

theorem mem_constructorsOf {s : StructId} :
    id ∈ graph.constructorsOf s ↔ graph.HasKind id (.construct s) := by
  simp only [constructorsOf, mem_nodesOfKind, beq_iff_eq, HasKind]

theorem WellFormed.constructorsOf_eq_nil (formed : graph.WellFormed admits) {s : StructId}
    (absent : ∀ entry ∈ graph.structs, entry.id ≠ s) : graph.constructorsOf s = [] := by
  refine List.eq_nil_iff_forall_not_mem.2 fun id mem => ?_
  obtain ⟨form, found, kind⟩ := mem_constructorsOf.1 mem
  have mirrors := formed.mirrors found
  rw [kind] at mirrors
  obtain ⟨entry, member, same, -⟩ := mirrors
  exact absent entry member same

theorem mem_constructorsOf_of_node? {node : Node} (here : graph.node? id = some node)
    {s : StructId} : id ∈ graph.constructorsOf s ↔ node.kind = .construct s := by
  rw [mem_constructorsOf, HasKind, form?_eq_of_node? here]
  simp [Node.form]

theorem constructorsOf_live {s : StructId} (mem : id ∈ graph.constructorsOf s) :
    (graph.node? id).isSome := by
  obtain ⟨node, here, -⟩ := hasKind_iff.1 (mem_constructorsOf.1 mem)
  exact Option.isSome_of_eq_some here

theorem constructorsOf_nodup (graph : Graph) (s : StructId) : (graph.constructorsOf s).Nodup :=
  graph.nodesOfKind_nodup _

def rebuild (graph : Graph) (old : StructEntry) (s : StructId) (schema : Schema)
    (done : List NodeId) : StructEntry :=
  { id := s, schema, boundary := graph.renamed done old.boundary }

/-- What a changed struct is like when some of its constructors have been replaced. -/
structure Rebuilding (graph : Graph) (old : StructEntry) (s : StructId) (schema : Schema)
    (done : List NodeId) (state : Graph) : Prop where
  nodes : Exchanging (fun _ => .construct s) (fun _ => schema.ports) graph done state
  functions : state.functions = graph.functions
  structs : state.structs = graph.structs.map fun entry =>
    if entry.id = old.id then graph.rebuild old s schema done else entry

theorem Rebuilding.replaceConstructor {old : StructEntry} {s : StructId} {schema : Schema}
    {rest : List NodeId} (rebuilding : graph.Rebuilding old s schema done state)
    (member : old ∈ graph.structs) (newer : ∀ entry ∈ graph.structs, entry.id ≠ s)
    (left : id ∉ done)
    (pending : Pending admits (· = .construct old.id) graph.form? (id :: rest) state)
    (accepted : state.replaceConstructor old s id = .ok next) :
    graph.Rebuilding old s schema (done ++ [id]) next := by
  obtain ⟨node, there, -, detached⟩ := pending.detach?_eq
  obtain ⟨before, here, -⟩ := node?_of_form? there
  simp only [Graph.replaceConstructor, detached] at accepted
  obtain ⟨⟨fresh, middle⟩, added, changed⟩ := Accepted.bind_iff.1 accepted
  obtain rfl := Except.ok.inj changed
  have known : ((state.restrict (Keep.apart id)).clear id).schemaAt? s = some schema := by
    refine pending.sound.declared.schemaAt?_eq_some_iff.2
      ⟨graph.rebuild old s schema done, ?_, rfl, rfl⟩
    rw [rebuilding.structs]
    exact List.mem_map.2 ⟨old, member, if_pos rfl⟩
  have defined : ((state.restrict (Keep.apart id)).clear id).definedPorts (.construct s) =
      .ok schema.ports := by
    rw [definedPorts_construct, known]
  obtain ⟨rfl, nodes, functions, structs⟩ :=
    rebuilding.nodes.exchanged pending.sound.wired here left detached defined added
  refine ⟨nodes.of_arena rfl, functions.trans rebuilding.functions, ?_⟩
  show middle.structs.map _ = _
  rw [structs, rebuilding.structs, List.map_map]
  refine List.map_congr_left fun entry mem => ?_
  by_cases same : entry.id = old.id
  · simp only [Function.comp_apply, same, if_true, rebuild, renamed_append graph left]
    split <;> rfl
  · simp [same, newer entry mem]

/-- A struct that is changed is rebuilt as a whole, but for the order of all structs. -/
theorem WellFormed.rebuilding_redefineStruct (formed : graph.WellFormed admits)
    {previous s : StructId} {schema : Schema}
    (accepted : graph.redefineStruct previous schema = .ok (some (s, next))) :
    ∃ old last, graph.struct? previous = some old ∧ s = ⟨graph.nextDefinition⟩ ∧
      graph.Rebuilding old s schema (graph.constructorsOf previous) last ∧
      next = { last with structs := inOrder last.structs } := by
  obtain ⟨old, middle, last, found, rfl, free, -, replaced, completed, rfl⟩ :=
    redefineStruct_eq_some accepted
  obtain ⟨member, rfl⟩ := formed.declared.struct?_iff.1 found
  obtain ⟨other, start⟩ := formed.pending_redeclareStruct member free
  have newer := formed.declared.struct_ne_next
  have first : graph.Rebuilding old ⟨graph.nextDefinition⟩ schema []
      (graph.redeclareStruct old.id schema) := by
    refine ⟨.start rfl, rfl, List.map_congr_left fun entry _ => ?_⟩
    have none (own : Option NodeId) : graph.renamed [] own = none := by cases own <;> rfl
    simp only [rebuild, none]
  obtain ⟨-, rebuilding⟩ := Accepted.foldlM_done
    (fun done rest state => Pending admits (· = .construct old.id) graph.form? rest state ∧
      graph.Rebuilding old ⟨graph.nextDefinition⟩ schema done state)
    (graph.constructorsOf_nodup old.id)
    (fun done id rest state next left held accepted => by
      obtain ⟨pending, rebuilding⟩ := held
      exact ⟨pending.replaceConstructor other accepted,
        rebuilding.replaceConstructor member newer left pending accepted⟩)
    ⟨start, first⟩ replaced
  obtain ⟨boundary, own⟩ := Option.isSome_iff_exists.1 (formed.complete.constructors old member)
  have filled := graph.renamed_isSome own
    (mem_constructorsOf.2 (formed.owned.constructors old member boundary own))
  have complete : middle.Complete := by
    have inputs := formed.complete.inputs
    have outputs := formed.complete.outputs
    rw [← rebuilding.functions] at inputs outputs
    refine ⟨inputs, outputs, fun entry mem => ?_⟩
    rw [rebuilding.structs] at mem
    obtain ⟨before, declared, rfl⟩ := List.mem_map.1 mem
    split
    · exact filled
    · exact formed.complete.constructors before declared
  obtain rfl : middle = last := Except.ok.inj (complete.completeDefinitions.symm.trans completed)
  exact ⟨old, middle, found, rfl, rebuilding, rfl⟩

/-- A function has another signature at another address. Its nodes have been replaced by nodes of
the new one, and owned nodes by owned ones. -/
structure FunctionReplaced (graph next : Graph) (previous f : FunctionId) (signature : Signature) :
    Prop where
  unregistered : ∀ entry ∈ next.functions, entry.id ≠ previous
  unbound : next.boundTo previous = []
  nodes : graph.Replaced next (graph.boundTo previous) (next.boundTo f) (rebind f)
    (·.portsOf signature)
  entries : ∃ old ∈ graph.functions, old.id = previous ∧ ∃ input output,
    next.functions = graph.functions.map (fun entry => if entry.id = previous then
      { id := f, signature, input := some input, output := some output } else entry) ∧
    List.Forall₂ (fun a b => (old.input = some a ↔ input = b) ∧ (old.output = some a ↔ output = b))
      (graph.boundTo previous) (next.boundTo f)
  structs : next.structs = graph.structs

/-- A struct has another schema at another address. Its constructors have been replaced by those of
the new one, and the owned one by the owned one. The structs may be in another order. -/
structure StructReplaced (graph next : Graph) (previous s : StructId) (schema : Schema) :
    Prop where
  unregistered : ∀ entry ∈ next.structs, entry.id ≠ previous
  unbound : next.constructorsOf previous = []
  nodes : graph.Replaced next (graph.constructorsOf previous) (next.constructorsOf s)
    (fun _ => .construct s) fun _ => schema.ports
  entries : ∃ old ∈ graph.structs, old.id = previous ∧ ∃ boundary,
    next.structs.Perm (graph.structs.map fun entry => if entry.id = previous then
      { id := s, schema, boundary := some boundary } else entry) ∧
    List.Forall₂ (fun a b => old.boundary = some a ↔ boundary = b)
      (graph.constructorsOf previous) (next.constructorsOf s)
  functions : next.functions = graph.functions

theorem Refitting.boundTo_eq {old : FunctionEntry} {f : FunctionId} {signature : Signature}
    (refitting : graph.Refitting old f signature (graph.boundTo old.id) next)
    (unbound : graph.boundTo f = []) (other : f ≠ old.id) :
    next.boundTo f = graph.successors (graph.boundTo old.id) ∧ next.boundTo old.id = [] := by
  have rebound (a : NodeId) (node : Node) (mem : a ∈ graph.boundTo old.id)
      (here : graph.node? a = some node) : (rebind f node.kind).function? = some f :=
    function?_rebind ((mem_boundTo_of_node? here).1 mem)
  constructor
  · refine refitting.nodes.nodesOfKind_eq (fun _ => boundTo_live) (fun id node here _ => ?_)
      fun a node mem here => by simp [rebound a node mem here]
    refine Bool.eq_false_iff.2 fun of => ?_
    have mem := (mem_boundTo_of_node? here).2 (beq_iff_eq.1 of)
    simp [unbound] at mem
  · refine refitting.nodes.nodesOfKind_eq_nil (fun id node here left => ?_)
      fun a node mem here => by simpa [rebound a node mem here] using other
    exact Bool.eq_false_iff.2 fun of => left ((mem_boundTo_of_node? here).2 (beq_iff_eq.1 of))

theorem WellFormed.functionReplaced (formed : graph.WellFormed admits)
    {previous f : FunctionId} {signature : Signature}
    (accepted : graph.redefineFunction previous signature = .ok (some (f, next))) :
    f = ⟨graph.nextDefinition⟩ ∧ graph.FunctionReplaced next previous f signature ∧
      next.boundTo f = graph.successors (graph.boundTo previous) := by
  have formed' := formed.redefineFunction accepted
  obtain ⟨old, found, rfl, refitting⟩ := formed.refitting_redefineFunction accepted
  obtain ⟨member, rfl⟩ := formed.declared.function?_iff.1 found
  have newer := formed.declared.function_ne_next
  have other := (newer old member).symm
  obtain ⟨fresh, gone⟩ := refitting.boundTo_eq (formed.boundTo_eq_nil newer) other
  have listed : graph.refit old ⟨graph.nextDefinition⟩ signature (graph.boundTo old.id) ∈
      next.functions := by
    rw [refitting.functions]
    exact List.mem_map.2 ⟨old, member, if_pos rfl⟩
  obtain ⟨input, hasInput⟩ := Option.isSome_iff_exists.1 (formed'.complete.inputs _ listed)
  obtain ⟨output, hasOutput⟩ := Option.isSome_iff_exists.1 (formed'.complete.outputs _ listed)
  have hasInput : graph.renamed (graph.boundTo old.id) old.input = some input := hasInput
  have hasOutput : graph.renamed (graph.boundTo old.id) old.output = some output := hasOutput
  have replaced := refitting.nodes.replaced fun _ => boundTo_live
  rw [← fresh] at replaced
  refine ⟨rfl, ⟨fun entry mem => ?_, gone, replaced,
    ⟨old, member, rfl, input, output, ?_, ?_⟩, refitting.structs⟩, fresh⟩
  · rw [refitting.functions] at mem
    obtain ⟨before, -, rfl⟩ := List.mem_map.1 mem
    split
    · exact other
    · assumption
  · rw [refitting.functions, ← hasInput, ← hasOutput]
    rfl
  · have pairs := graph.renamed_pairs (graph.boundTo_nodup old.id) old.input old.output
    rw [hasInput, hasOutput] at pairs
    rw [fresh]
    simpa using pairs

theorem Rebuilding.constructorsOf_eq {old : StructEntry} {s : StructId} {schema : Schema}
    (rebuilding : graph.Rebuilding old s schema (graph.constructorsOf old.id) next)
    (unbound : graph.constructorsOf s = []) (other : s ≠ old.id) :
    next.constructorsOf s = graph.successors (graph.constructorsOf old.id) ∧
      next.constructorsOf old.id = [] := by
  constructor
  · refine rebuilding.nodes.nodesOfKind_eq (fun _ => constructorsOf_live) (fun id node here _ => ?_)
      fun a node mem here => by simp
    refine Bool.eq_false_iff.2 fun of => ?_
    have mem := (mem_constructorsOf_of_node? here).2 (beq_iff_eq.1 of)
    simp [unbound] at mem
  · refine rebuilding.nodes.nodesOfKind_eq_nil (fun id node here left => ?_)
      fun a node mem here => by simpa using other
    refine Bool.eq_false_iff.2 fun of => left ?_
    exact (mem_constructorsOf_of_node? here).2 (beq_iff_eq.1 of)

theorem WellFormed.structReplaced (formed : graph.WellFormed admits)
    {previous s : StructId} {schema : Schema}
    (accepted : graph.redefineStruct previous schema = .ok (some (s, next))) :
    s = ⟨graph.nextDefinition⟩ ∧ graph.StructReplaced next previous s schema ∧
      next.constructorsOf s = graph.successors (graph.constructorsOf previous) := by
  have formed' := formed.redefineStruct accepted
  obtain ⟨old, last, found, rfl, rebuilding, rfl⟩ := formed.rebuilding_redefineStruct accepted
  obtain ⟨member, rfl⟩ := formed.declared.struct?_iff.1 found
  have newer := formed.declared.struct_ne_next
  have other := (newer old member).symm
  obtain ⟨fresh, gone⟩ := rebuilding.constructorsOf_eq (formed.constructorsOf_eq_nil newer) other
  have perm := inOrder_perm last.structs
  have listed : graph.rebuild old ⟨graph.nextDefinition⟩ schema (graph.constructorsOf old.id) ∈
      last.structs := by
    rw [rebuilding.structs]
    exact List.mem_map.2 ⟨old, member, if_pos rfl⟩
  obtain ⟨boundary, has⟩ := Option.isSome_iff_exists.1
    (formed'.complete.constructors _ (perm.mem_iff.2 listed))
  have has : graph.renamed (graph.constructorsOf old.id) old.boundary = some boundary := has
  refine ⟨rfl, ⟨fun entry mem => ?_, gone, ?_, ⟨old, member, rfl, boundary, ?_, ?_⟩,
    rebuilding.functions⟩, fresh⟩
  · have mem := perm.mem_iff.1 mem
    rw [rebuilding.structs] at mem
    obtain ⟨before, -, rfl⟩ := List.mem_map.1 mem
    split
    · exact other
    · assumption
  · have nodes := rebuilding.nodes.replaced fun _ => constructorsOf_live
    rw [← fresh] at nodes
    exact ⟨nodes.pairs, ⟨nodes.wires.wires, nodes.wires.atInputs, nodes.wires.atOutputs⟩,
      nodes.others⟩
  · rw [← has]
    refine perm.trans ?_
    rw [rebuilding.structs]
    exact .refl _
  · have pairs := graph.renamed_pairs (graph.constructorsOf_nodup old.id) old.boundary old.boundary
    rw [has] at pairs
    show List.Forall₂ _ _ (last.constructorsOf _)
    rw [fresh]
    simpa using pairs

/-- What is given next has not been given before. -/
theorem Lasting.unused {earlier : Graph} (lasting : earlier.Lasting graph)
    (declared : earlier.Declared) {number : Nat} (next : graph.nextDefinition ≤ number) :
    number ∉ earlier.numbers := by
  intro mem
  rcases List.mem_append.1 mem with mem | mem
  · obtain ⟨entry, listed, rfl⟩ := List.mem_map.1 mem
    exact absurd (declared.functionsOlder entry listed)
      (Nat.not_lt.2 (Nat.le_trans lasting.nextDefinition next))
  · obtain ⟨entry, listed, rfl⟩ := List.mem_map.1 mem
    exact absurd (declared.structsOlder entry listed)
      (Nat.not_lt.2 (Nat.le_trans lasting.nextDefinition next))

theorem Lasting.absent {earlier : Graph} (lasting : earlier.Lasting graph) {old : List NodeId}
    (new : id ∈ graph.successors old) : earlier.node? id = none :=
  node?_eq_none_of_size_le (Nat.le_trans lasting.size (mem_successors.1 new).1)

end Graph

/-- A definition that is changed is replaced as a whole, in use or not, and nothing else changes.
Its address is a new one, and so are those of its nodes: no graph had them from which the changed
one came. -/
theorem Graph.Authored.redefined_in_place {catalogs : Registry → Prop}
    {allowed : Graph → Edit → Prop} {graph : Graph} (authored : graph.Authored catalogs allowed) :
    (∀ previous signature f next,
      graph.redefineFunction previous signature = .ok (some (f, next)) →
      graph.FunctionReplaced next previous f signature ∧
      ∀ earlier : Graph, earlier.Authored catalogs allowed → Edited catalogs earlier graph →
        f.number ∉ earlier.numbers ∧ earlier.boundTo f = [] ∧
          ∀ id ∈ next.boundTo f, earlier.node? id = none) ∧
    (∀ previous schema s next, graph.redefineStruct previous schema = .ok (some (s, next)) →
      graph.StructReplaced next previous s schema ∧
      ∀ earlier : Graph, earlier.Authored catalogs allowed → Edited catalogs earlier graph →
        s.number ∉ earlier.numbers ∧ earlier.constructorsOf s = [] ∧
          ∀ id ∈ next.constructorsOf s, earlier.node? id = none) := by
  refine ⟨fun previous signature f next accepted => ?_, fun previous schema s next accepted => ?_⟩
  · obtain ⟨rfl, replaced, fresh⟩ := authored.wellFormed.functionReplaced accepted
    refine ⟨replaced, fun earlier authored' edited => ?_⟩
    have formed := authored'.wellFormed
    have unused := edited.lasting.unused formed.declared (Nat.le_refl graph.nextDefinition)
    refine ⟨unused, formed.boundTo_eq_nil fun entry mem same => unused ?_, fun id new => ?_⟩
    · exact List.mem_append_left _ (List.mem_map.2 ⟨entry, mem, congrArg FunctionId.number same⟩)
    · rw [fresh] at new
      exact edited.lasting.absent new
  · obtain ⟨rfl, replaced, fresh⟩ := authored.wellFormed.structReplaced accepted
    refine ⟨replaced, fun earlier authored' edited => ?_⟩
    have formed := authored'.wellFormed
    have unused := edited.lasting.unused formed.declared (Nat.le_refl graph.nextDefinition)
    refine ⟨unused, formed.constructorsOf_eq_nil fun entry mem same => unused ?_, fun id new => ?_⟩
    · exact List.mem_append_right _ (List.mem_map.2 ⟨entry, mem, congrArg StructId.number same⟩)
    · rw [fresh] at new
      exact edited.lasting.absent new

def Edit.recasting : List Edit := [
  .defineFunction { name := "f", inputs := [("x", .number)], outputs := [("y", .number)] } .zero,
  .connect ⟨⟨0⟩, 0⟩ ⟨⟨1⟩, 0⟩ [],
  .addCall ⟨0⟩ .zero,
  .addBuiltin "math/Add" .null .zero,
  .addBuiltin "math/Add" .null .zero,
  .connect ⟨⟨3⟩, 0⟩ ⟨⟨4⟩, 0⟩ [.zero],
  .connect ⟨⟨3⟩, 0⟩ ⟨⟨2⟩, 0⟩ []]

theorem recasting_in_place : ∃ graph next,
    Edit.recasting.foldlM (Edit.apply Registry.builtin) .empty = .ok graph ∧
      graph.Authored (fun _ => True) (fun _ _ => True) ∧
      graph.redefineFunction ⟨0⟩ { name := "g", inputs := [("x", .text)], outputs := [] } =
        .ok (some (⟨1⟩, next)) ∧
      next.boundTo ⟨0⟩ = [] ∧ next.targetsAt ⟨⟨3⟩, 0⟩ = [⟨⟨4⟩, 0⟩] ∧
      next.wiresAt ⟨⟨4⟩, 0⟩ = [⟨⟨⟨3⟩, 0⟩, [.zero]⟩] := by
  have facts : ∃ graph ∈ (Edit.recasting.foldlM (Edit.apply Registry.builtin) .empty).toOption,
      (∃ changed ∈ (graph.redefineFunction ⟨0⟩
          { name := "g", inputs := [("x", .text)], outputs := [] }).toOption,
        ∃ made ∈ changed, made.1 = ⟨1⟩) ∧
      graph.targetsAt ⟨⟨3⟩, 0⟩ = [⟨⟨4⟩, 0⟩, ⟨⟨2⟩, 0⟩] ∧
      graph.wiresAt ⟨⟨4⟩, 0⟩ = [⟨⟨⟨3⟩, 0⟩, [.zero]⟩] ∧
      graph.boundTo ⟨0⟩ = [⟨0⟩, ⟨1⟩, ⟨2⟩] := by decide +kernel
  obtain ⟨graph, built, ⟨_, changed, ⟨_, next⟩, rfl, rfl⟩, targets, wires, bound⟩ := facts
  have built := Accepted.toOption_eq_some_iff.1 built
  have changed := Accepted.toOption_eq_some_iff.1 changed
  have authored : graph.Authored (fun _ => True) (fun _ _ => True) :=
    .of_reached (Reached.foldlM trivial (.first rfl) (fun _ _ _ => trivial) built)
  obtain ⟨replaced, -⟩ := authored.redefined_in_place.1 ⟨0⟩ _ ⟨1⟩ next changed
  refine ⟨graph, next, built, authored, changed, replaced.unbound, ?_, ?_⟩
  · rw [replaced.nodes.wires.atOutputs, targets, bound]
    rfl
  · rw [replaced.nodes.wires.atInputs, wires, bound]
    rfl

end NodeScript
