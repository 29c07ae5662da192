import NodeScript.Proofs.Graph.Effect

/-!
The nodes at the boundaries of functions. Edits put none into a graph but those that a function
owns: one that gives the inputs to its body, and one that collects the outputs. Main statement:
`Reached.soleBoundaries`.
-/

set_option autoImplicit false
set_option relaxedAutoImplicit false

namespace NodeScript

def NodeKind.IsBoundary : NodeKind → Prop
  | functionInput _ | functionOutput _ => True
  | builtin _ | call _ | construct _ => False

namespace Graph

def SoleAs (view : NodeKind → NodeKind) (graph : Graph) : Prop :=
  ∀ a b kind kind', graph.HasKind a kind → graph.HasKind b kind' → (view kind).IsBoundary →
    view kind = view kind' → a = b

/-- A function has one node for its inputs, and one for its outputs. -/
abbrev SoleBoundaries (graph : Graph) : Prop := graph.SoleAs id

variable {registry : Registry} {admits : Admits} {graph next : Graph}
  {view : NodeKind → NodeKind} {id : NodeId} {kind : NodeKind}

theorem SoleBoundaries.unique (sole : graph.SoleBoundaries) (boundary : kind.IsBoundary)
    {a b : NodeId} (ha : graph.HasKind a kind) (hb : graph.HasKind b kind) : a = b :=
  sole a b kind kind ha hb boundary rfl

theorem soleAs_empty (view : NodeKind → NodeKind) : empty.SoleAs view := by
  rintro a b kind kind' ⟨form, found, -⟩
  simp [form?, node?, empty] at found

theorem SoleAs.of_before (sole : graph.SoleAs view)
    (before : ∀ id kind, (view kind).IsBoundary → next.HasKind id kind → graph.HasKind id kind) :
    next.SoleAs view := by
  intro a b kind kind' ha hb boundary same
  have boundary' := boundary
  rw [same] at boundary'
  exact sole a b kind kind' (before a kind boundary ha) (before b kind' boundary' hb) boundary same

theorem SoleAs.of_forms (sole : graph.SoleAs view)
    (forms : ∀ id, next.form? id = graph.form? id) : next.SoleAs view := by
  refine sole.of_before fun id _ _ has => ?_
  exact has.congr (forms id).symm

theorem hasKind_push {node : Node} (has : (graph.push node).2.HasKind id kind) :
    id = ⟨graph.arena.size⟩ ∧ kind = node.kind ∨ graph.HasKind id kind := by
  obtain ⟨form, found, rfl⟩ := has
  rw [form?_push] at found
  split at found
  · obtain rfl := Option.some.inj found
    exact .inl ⟨‹_›, rfl⟩
  · exact .inr ⟨form, found, rfl⟩

/-- A new node whose kind no other one has. -/
theorem SoleAs.push (sole : graph.SoleAs view) {node : Node}
    (free : (view node.kind).IsBoundary → ∀ other kind, graph.HasKind other kind →
      view kind ≠ view node.kind) : (graph.push node).2.SoleAs view := by
  intro a b kind kind' ha hb boundary same
  rcases hasKind_push ha with ⟨rfl, rfl⟩ | ha
  · rcases hasKind_push hb with ⟨rfl, -⟩ | hb
    · rfl
    · exact absurd same.symm (free boundary b kind' hb)
  · rcases hasKind_push hb with ⟨rfl, rfl⟩ | hb
    · rw [same] at boundary
      exact absurd same (free boundary a kind ha)
    · exact sole a b kind kind' ha hb boundary same

theorem SoleAs.addDefined (sole : graph.SoleAs view) {position : Position}
    (added : graph.addDefined kind position = .ok (id, next))
    (free : (view kind).IsBoundary → ∀ other kind', graph.HasKind other kind' →
      view kind' ≠ view kind) : next.SoleAs view := by
  obtain ⟨ports, -, -, rfl⟩ := addDefined_eq_ok_iff.1 added
  exact sole.push free

theorem form?_detach? {node : Node} (detached : graph.detach? id = some (node, next))
    (other : NodeId) : next.form? other = if other = id then none else graph.form? other := by
  rw [(Still.detach? detached).forms, form?_clear]

theorem hasKind_detach? {node : Node} (detached : graph.detach? id = some (node, next))
    {other : NodeId} (has : next.HasKind other kind) : graph.HasKind other kind ∧ other ≠ id := by
  obtain ⟨form, found, rfl⟩ := has
  rw [form?_detach? detached] at found
  split at found
  · simp at found
  · exact ⟨⟨form, found, rfl⟩, ‹_›⟩

theorem SoleAs.detach? (sole : graph.SoleAs view) {node : Node}
    (detached : graph.detach? id = some (node, next)) : next.SoleAs view := by
  refine sole.of_before fun _ _ _ has => ?_
  exact (hasKind_detach? detached has).1

theorem SoleAs.detach (sole : graph.SoleAs view) (id : NodeId) : (graph.detach id).SoleAs view := by
  unfold Graph.detach
  split
  · exact sole.detach? ‹_›
  · exact sole

theorem SoleAs.foldl_detach (sole : graph.SoleAs view) (ids : List NodeId) :
    (ids.foldl Graph.detach graph).SoleAs view := by
  induction ids generalizing graph with
  | nil => exact sole
  | cons id ids ih => exact ih (sole.detach id)

theorem SoleAs.firstOrNew (sole : graph.SoleBoundaries)
    (found : graph.firstOrNew kind = .ok (id, next)) : next.SoleBoundaries := by
  unfold Graph.firstOrNew at found
  split at found
  · obtain ⟨-, rfl⟩ := Prod.mk.inj (Except.ok.inj found)
    exact sole
  · rename_i absent
    refine sole.addDefined found fun _ other kind' has same => ?_
    obtain ⟨node, here, rfl⟩ := hasKind_iff.1 has
    have place : some node ∈ graph.arena := Array.mem_of_getElem? (Option.join_eq_some_iff.1 here)
    have apart := Array.findIdx?_eq_none_iff.1 absent (some node) place
    simp [show node.kind = kind from same] at apart

theorem SoleAs.fillFunction (sole : graph.SoleBoundaries) {f : FunctionId} {lacks : Bool}
    {give : NodeId → FunctionEntry → FunctionEntry}
    (filled : graph.fillFunction f lacks kind give = .ok next) : next.SoleBoundaries := by
  unfold Graph.fillFunction at filled
  split at filled
  · obtain ⟨⟨node, middle⟩, found, filled⟩ := Accepted.bind_iff.1 filled
    obtain rfl := Except.ok.inj filled
    exact (sole.firstOrNew found).of_forms fun _ => rfl
  · obtain rfl := Except.ok.inj filled
    exact sole

theorem SoleAs.completeFunction (sole : graph.SoleBoundaries) {f : FunctionId}
    (completed : graph.completeFunction f = .ok next) : next.SoleBoundaries := by
  unfold Graph.completeFunction at completed
  split at completed
  · obtain rfl := Except.ok.inj completed
    exact sole
  · obtain ⟨middle, first, second⟩ := Accepted.bind_iff.1 completed
    exact (sole.fillFunction first).fillFunction second

theorem SoleAs.completeStruct (sole : graph.SoleBoundaries) {s : StructId}
    (completed : graph.completeStruct s = .ok next) : next.SoleBoundaries := by
  unfold Graph.completeStruct at completed
  split at completed
  · obtain rfl := Except.ok.inj completed
    exact sole
  · split at completed
    · obtain rfl := Except.ok.inj completed
      exact sole
    · obtain ⟨⟨node, middle⟩, found, completed⟩ := Accepted.bind_iff.1 completed
      obtain rfl := Except.ok.inj completed
      exact (sole.firstOrNew found).of_forms fun _ => rfl

theorem SoleAs.completeDefinitions (sole : graph.SoleBoundaries)
    (completed : graph.completeDefinitions = .ok next) : next.SoleBoundaries := by
  obtain ⟨middle, first, second⟩ := Accepted.bind_iff.1 completed
  have functions := Accepted.foldlM (fun _ (graph : Graph) => graph.SoleBoundaries)
    (fun _ _ _ _ sole completed => sole.completeFunction completed) sole first
  exact Accepted.foldlM (fun _ (graph : Graph) => graph.SoleBoundaries)
    (fun _ _ _ _ sole completed => sole.completeStruct completed) functions second

theorem WellFormed.not_fresh (formed : graph.WellFormed admits) (has : graph.HasKind id kind) :
    kind.function? ≠ some ⟨graph.nextDefinition⟩ := by
  intro fresh
  obtain ⟨form, found, rfl⟩ := has
  have fits := formed.fit found
  have defined : graph.definedPorts form.kind = .ok form.ports := by
    unfold Fits at fits
    cases kind : form.kind <;> simp only [kind, NodeKind.function?, reduceCtorEq] at fits fresh
    all_goals exact fits.1
  obtain ⟨signature, declared, -⟩ := signature_of_definedPorts fresh defined
  obtain ⟨entry, mem, same, -⟩ := formed.declared.signature?_eq_some_iff.1 declared
  exact formed.declared.function_ne_next entry mem same

theorem WellFormed.sole_defineFunction (formed : graph.WellFormed admits)
    (sole : graph.SoleBoundaries) {signature : Signature} {position : Position} {f : FunctionId}
    (accepted : graph.defineFunction signature position = .ok (f, next)) : next.SoleBoundaries := by
  obtain ⟨input, first, output, second, -, -, rfl, hinput, houtput, rfl⟩ :=
    defineFunction_eq_ok accepted
  have fresh {other : NodeId} {kind : NodeKind}
      (has : (graph.withFunction signature).HasKind other kind) :
      kind.function? ≠ some ⟨graph.nextDefinition⟩ := formed.not_fresh has
  have declared : (graph.withFunction signature).SoleBoundaries := sole.of_forms fun _ => rfl
  have begins : first.SoleBoundaries := by
    refine declared.addDefined hinput ?_
    rintro - other kind has rfl
    exact fresh has rfl
  have ends : second.SoleBoundaries := ?_
  · exact ends.of_forms fun _ => rfl
  refine begins.addDefined houtput ?_
  rintro - other kind has rfl
  obtain ⟨ports, -, -, rfl⟩ := addDefined_eq_ok_iff.1 hinput
  rcases hasKind_push has with ⟨-, same⟩ | has
  · exact absurd same (by simp [Node.ofPorts])
  · exact fresh has rfl

private def boundAs (previous f : FunctionId) (kind : NodeKind) : NodeKind :=
  if kind.function? = some previous then rebind f kind else kind

private theorem boundAs_rebind {previous f : FunctionId} (other : f ≠ previous)
    (bound : kind.function? = some previous) :
    boundAs previous f (rebind f kind) = boundAs previous f kind := by
  rw [boundAs, boundAs, if_pos bound, function?_rebind bound, if_neg]
  intro same
  exact other (Option.some.inj same)

/-- A new node takes the stead of the one that was of its kind. -/
private theorem SoleAs.replaceBound {previous f : FunctionId} {old : FunctionEntry} {node : Node}
    {middle : Graph} (sole : graph.SoleAs (boundAs previous f)) (other : f ≠ previous)
    (here : graph.HasKind id node.kind) (bound : node.kind.function? = some previous)
    (detached : graph.detach? id = some (node, middle))
    (accepted : graph.replaceBound old f id = .ok next) : next.SoleAs (boundAs previous f) := by
  simp only [Graph.replaceBound, detached] at accepted
  obtain ⟨⟨fresh, last⟩, added, changed⟩ := Accepted.bind_iff.1 accepted
  obtain rfl := Except.ok.inj changed
  have replaced : last.SoleAs (boundAs previous f) := by
    refine (sole.detach? detached).addDefined added fun boundary another kind has same => ?_
    obtain ⟨has, apart⟩ := hasKind_detach? detached has
    rw [boundAs_rebind other bound] at boundary same
    rw [← same] at boundary
    exact apart (sole another id kind node.kind has here boundary same)
  exact replaced.of_forms fun _ => rfl

theorem eq_of_rebind_eq {previous f : FunctionId} {kind' : NodeKind}
    (bound : kind.function? = some previous) (bound' : kind'.function? = some previous)
    (same : rebind f kind = rebind f kind') : kind = kind' := by
  cases kind <;> cases kind' <;> simp_all [rebind, NodeKind.function?]

private theorem SoleAs.boundAs {previous f : FunctionId} (sole : graph.SoleBoundaries)
    (fresh : ∀ id kind, graph.HasKind id kind → kind.function? ≠ some f) :
    graph.SoleAs (boundAs previous f) := by
  intro a b kind kind' ha hb boundary same
  unfold Graph.boundAs at boundary same
  split at same
  · rename_i bound
    rw [if_pos bound] at boundary
    split at same
    · rename_i bound'
      obtain rfl := eq_of_rebind_eq bound bound' same
      refine sole.unique ?_ ha hb
      cases kind <;> trivial
    · have rebound := (function?_rebind bound : (rebind f _).function? = some f)
      rw [same] at rebound
      exact absurd rebound (fresh b kind' hb)
  · rename_i free
    rw [if_neg free] at boundary
    split at same
    · rename_i bound'
      have rebound := (function?_rebind bound' : (rebind f _).function? = some f)
      rw [← same] at rebound
      exact absurd rebound (fresh a kind ha)
    · exact sole a b kind kind' ha hb boundary same

private theorem SoleAs.of_boundAs {previous f : FunctionId}
    (sole : graph.SoleAs (Graph.boundAs previous f)) : graph.SoleBoundaries := by
  rintro a b kind _ ha hb boundary rfl
  refine sole a b kind kind ha hb ?_ rfl
  unfold Graph.boundAs
  split
  · cases kind <;> exact boundary
  · exact boundary

theorem WellFormed.sole_redefineFunction (formed : graph.WellFormed admits)
    (sole : graph.SoleBoundaries) {previous f : FunctionId} {signature : Signature}
    (accepted : graph.redefineFunction previous signature = .ok (some (f, next))) :
    next.SoleBoundaries := by
  obtain ⟨old, middle, hold, rfl, new, -, replaced, completed⟩ := redefineFunction_eq_some accepted
  obtain ⟨member, rfl⟩ := formed.declared.function?_iff.1 hold
  obtain ⟨other, pending⟩ := formed.pending_redeclareFunction member new
  have start : (graph.redeclareFunction old.id signature).SoleAs
      (Graph.boundAs old.id ⟨graph.nextDefinition⟩) :=
    SoleAs.of_forms (SoleAs.boundAs sole fun _ _ => formed.not_fresh) fun _ => rfl
  have done := Accepted.foldlM
    (fun rest state => Pending admits (BoundTo old.id) graph.form? rest state ∧
      state.SoleAs (Graph.boundAs old.id ⟨graph.nextDefinition⟩))
    (fun id rest state next ⟨pending, sole⟩ accepted => by
      obtain ⟨node, hnode, bound, detached⟩ := pending.detach?_eq
      have here : state.HasKind id node.kind :=
        ⟨node.form, (pending.same id List.mem_cons_self).trans hnode, rfl⟩
      exact ⟨pending.replaceBound other (formed.owned.inputs old member id)
        (formed.owned.outputs old member id) accepted,
        sole.replaceBound other here bound detached accepted⟩)
    ⟨pending, start⟩ replaced
  exact SoleAs.completeDefinitions done.2.of_boundAs completed

/-- Constructors do not stand at the boundary of a function. -/
private theorem SoleAs.replaceConstructor {old : StructEntry} {s : StructId}
    (sole : graph.SoleBoundaries) (accepted : graph.replaceConstructor old s id = .ok next) :
    next.SoleBoundaries := by
  unfold Graph.replaceConstructor at accepted
  split at accepted
  · obtain rfl := Except.ok.inj accepted
    exact sole
  · obtain ⟨⟨fresh, middle⟩, added, changed⟩ := Accepted.bind_iff.1 accepted
    obtain rfl := Except.ok.inj changed
    have replaced := (sole.detach? ‹_›).addDefined added fun boundary => boundary.elim
    exact replaced.of_forms fun _ => rfl

theorem SoleAs.redefineStruct (sole : graph.SoleBoundaries) {previous s : StructId}
    {schema : Schema} (accepted : graph.redefineStruct previous schema = .ok (some (s, next))) :
    next.SoleBoundaries := by
  obtain ⟨old, middle, last, -, -, -, -, replaced, completed, rfl⟩ :=
    redefineStruct_eq_some accepted
  have start : (graph.redeclareStruct previous schema).SoleBoundaries :=
    sole.of_forms fun _ => rfl
  have done := Accepted.foldlM (fun _ (graph : Graph) => graph.SoleBoundaries)
    (fun _ _ _ _ sole accepted => SoleAs.replaceConstructor sole accepted) start replaced
  exact (done.completeDefinitions completed).of_forms fun _ => rfl

theorem SoleAs.removeFunction (sole : graph.SoleBoundaries) (f : FunctionId) :
    (graph.removeFunction f).2.SoleBoundaries := by
  unfold Graph.removeFunction
  split
  · exact sole
  · have without : (graph.withoutFunction f).SoleBoundaries := sole.of_forms fun _ => rfl
    exact without.foldl_detach _

theorem SoleAs.removeStruct (sole : graph.SoleBoundaries) (s : StructId) :
    (graph.removeStruct s).2.SoleBoundaries := by
  unfold Graph.removeStruct
  split
  · exact sole
  · have without : (graph.withoutStruct s).SoleBoundaries := sole.of_forms fun _ => rfl
    exact without.foldl_detach _

end Graph

open NodeScript.Graph

variable {registry : Registry} {admits : Admits} {graph next : Graph}

/-- An accepted edit gives a function no second node at its boundary. -/
theorem Edit.soleBoundaries {edit : Edit} (formed : graph.WellFormed admits)
    (sole : graph.SoleBoundaries) (accepted : edit.apply registry graph = .ok next) :
    next.SoleBoundaries := by
  cases Edit.effect accepted with
  | still same => exact sole.of_forms same.forms
  | builtin _ _ => exact sole.push fun boundary => boundary.elim
  | called added => exact sole.addDefined added fun boundary => boundary.elim
  | constructed added => exact sole.addDefined added fun boundary => boundary.elim
  | removed _ detached => exact sole.detach? detached
  | definedFunction accepted => exact formed.sole_defineFunction sole accepted
  | @definedStruct schema _ _ _ accepted =>
    obtain ⟨boundary, first, -, -, rfl, hnode, rfl⟩ := defineStruct_eq_ok accepted
    have declared : (graph.withStruct schema).SoleBoundaries := sole.of_forms fun _ => rfl
    exact (declared.addDefined hnode fun boundary => boundary.elim).of_forms fun _ => rfl
  | redefinedFunction accepted => exact formed.sole_redefineFunction sole accepted
  | redefinedStruct accepted => exact SoleAs.redefineStruct sole accepted
  | removedFunction => exact SoleAs.removeFunction sole _
  | removedStruct => exact SoleAs.removeStruct sole _

/-- In a graph that edits make of the empty one, each function has one node for its inputs and one
for its outputs. -/
theorem Reached.soleBoundaries {first : Graph → Prop} {allowed : Graph → Edit → Prop}
    (start : ∀ graph, first graph → graph = .empty)
    (reached : Reached first (Edit.Leads (· = registry) allowed) graph) :
    graph.SoleBoundaries := by
  have both : graph.WellFormed registry.Canonical ∧ graph.SoleBoundaries := by
    induction reached with
    | first h =>
      rw [start _ h]
      exact ⟨wellFormed_empty, soleAs_empty id⟩
    | step _ made ih =>
      obtain ⟨_, edit, rfl, -, accepted⟩ := made
      exact ⟨Edit.wellFormed (fun _ _ _ h => h) ih.1 accepted,
        Edit.soleBoundaries ih.1 ih.2 accepted⟩
  exact both.2

end NodeScript
