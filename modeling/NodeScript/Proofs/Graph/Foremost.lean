import NodeScript.Proofs.Graph.Boundaries

/-!
The nodes that definitions own stand before all others of their kinds. A new node is put behind
those that are there, and where the nodes of a definition are replaced one after the other, the new
ones come in the order of the old ones. Main statement: `Edit.foremost`.
-/

set_option autoImplicit false
set_option relaxedAutoImplicit false

namespace NodeScript

namespace Graph

/-- The nodes that definitions own, each as one of a kind. -/
inductive OwnedAs (graph : Graph) (id : NodeId) : NodeKind → Prop where
  | input {entry : FunctionEntry} (member : entry ∈ graph.functions)
      (own : entry.input = some id) : OwnedAs graph id (.functionInput entry.id)
  | output {entry : FunctionEntry} (member : entry ∈ graph.functions)
      (own : entry.output = some id) : OwnedAs graph id (.functionOutput entry.id)
  | boundary {entry : StructEntry} (member : entry ∈ graph.structs)
      (own : entry.boundary = some id) : OwnedAs graph id (.construct entry.id)

/-- No node of the kind stands before the place. -/
structure FirstOf (graph : Graph) (id : NodeId) (kind : NodeKind) : Prop where
  placed : id.index < graph.arena.size
  first : ∀ other, graph.HasKind other kind → id.index ≤ other.index

def Foremost (graph : Graph) : Prop := ∀ id kind, graph.OwnedAs id kind → graph.FirstOf id kind

variable {admits : Admits} {graph next : Graph} {id : NodeId} {kind : NodeKind}

theorem owns_iff : graph.owns id = true ↔ ∃ kind, graph.OwnedAs id kind := by
  simp only [owns, Bool.or_eq_true, List.any_eq_true, beq_iff_eq]
  constructor
  · rintro (⟨entry, member, own | own⟩ | ⟨entry, member, own⟩)
    · exact ⟨_, .input member own⟩
    · exact ⟨_, .output member own⟩
    · exact ⟨_, .boundary member own⟩
  · rintro ⟨_, own⟩
    cases own with
    | input member own => exact .inl ⟨_, member, .inl own⟩
    | output member own => exact .inl ⟨_, member, .inr own⟩
    | boundary member own => exact .inr ⟨_, member, own⟩

theorem Owned.hasKind (owned : graph.Owned) (own : graph.OwnedAs id kind) :
    graph.HasKind id kind := by
  cases own with
  | input member own => exact owned.inputs _ member id own
  | output member own => exact owned.outputs _ member id own
  | boundary member own => exact owned.constructors _ member id own

theorem OwnedAs.of_entries (own : next.OwnedAs id kind)
    (functions : ∀ entry ∈ next.functions,
      entry ∈ graph.functions ∨ entry.input = none ∧ entry.output = none)
    (structs : ∀ entry ∈ next.structs, entry ∈ graph.structs ∨ entry.boundary = none) :
    graph.OwnedAs id kind := by
  cases own with
  | input member own =>
    rcases functions _ member with member | ⟨bare, -⟩
    · exact .input member own
    · simp [bare] at own
  | output member own =>
    rcases functions _ member with member | ⟨-, bare⟩
    · exact .output member own
    · simp [bare] at own
  | boundary member own =>
    rcases structs _ member with member | bare
    · exact .boundary member own
    · simp [bare] at own

theorem OwnedAs.congr (own : next.OwnedAs id kind) (functions : next.functions = graph.functions)
    (structs : next.structs = graph.structs) : graph.OwnedAs id kind := by
  refine own.of_entries (fun _ member => ?_) fun _ member => ?_
  · rw [functions] at member
    exact .inl member
  · rw [structs] at member
    exact .inl member

theorem foremost_empty : empty.Foremost := by
  intro id kind own
  cases own <;> rename_i member _ <;> simp [empty] at member

theorem FirstOf.of_fewer (first : graph.FirstOf id kind)
    (size : next.arena.size = graph.arena.size)
    (fewer : ∀ other, next.HasKind other kind → graph.HasKind other kind) :
    next.FirstOf id kind := by
  refine ⟨?_, ?_⟩
  · rw [size]
    exact first.placed
  · intro other has
    exact first.first other (fewer other has)

theorem FirstOf.push (first : graph.FirstOf id kind) (node : Node) :
    (graph.push node).2.FirstOf id kind where
  placed := by
    have placed := first.placed
    simp only [Graph.push, Array.size_push]
    omega
  first other has := by
    rcases hasKind_push has with ⟨rfl, -⟩ | has
    · exact Nat.le_of_lt first.placed
    · exact first.first other has

theorem firstOf_addDefined {position : Position}
    (added : graph.addDefined kind position = .ok (id, next))
    (absent : ∀ other, ¬graph.HasKind other kind) : next.FirstOf id kind := by
  obtain ⟨ports, -, rfl, rfl⟩ := addDefined_eq_ok_iff.1 added
  refine ⟨by simp [Graph.push], fun other has => ?_⟩
  rcases hasKind_push has with ⟨rfl, -⟩ | has
  · exact Nat.le_refl _
  · exact absurd has (absent other)

theorem Foremost.of_owned (foremost : graph.Foremost)
    (owned : ∀ id kind, next.OwnedAs id kind → graph.OwnedAs id kind)
    (first : ∀ id kind, graph.FirstOf id kind → next.FirstOf id kind) : next.Foremost := by
  intro id kind own
  exact first id kind (foremost id kind (owned id kind own))

theorem Foremost.of_entries (foremost : graph.Foremost) (arena : next.arena = graph.arena)
    (functions : ∀ entry ∈ next.functions,
      entry ∈ graph.functions ∨ entry.input = none ∧ entry.output = none)
    (structs : ∀ entry ∈ next.structs, entry ∈ graph.structs ∨ entry.boundary = none) :
    next.Foremost := by
  have forms (other : NodeId) : next.form? other = graph.form? other := by
    rw [form?, form?, node?, node?, arena]
  exact foremost.of_owned (fun _ _ own => own.of_entries functions structs) fun _ _ first =>
    first.of_fewer (congrArg Array.size arena) fun other has => has.congr (forms other).symm

theorem Foremost.still (foremost : graph.Foremost) (still : graph.Still next) : next.Foremost := by
  refine foremost.of_owned (fun _ _ own => own.congr still.functions still.structs)
    fun _ _ first => ?_
  refine first.of_fewer still.size fun other has => ?_
  exact has.congr (still.forms other).symm

theorem Foremost.push (foremost : graph.Foremost) (node : Node) : (graph.push node).2.Foremost := by
  refine foremost.of_owned (fun _ _ own => own.congr rfl rfl) fun _ _ first => ?_
  exact first.push node

theorem Foremost.addDefined (foremost : graph.Foremost) {position : Position}
    (added : graph.addDefined kind position = .ok (id, next)) : next.Foremost := by
  obtain ⟨ports, -, -, rfl⟩ := addDefined_eq_ok_iff.1 added
  exact foremost.push _

theorem Foremost.detach? (foremost : graph.Foremost) {node : Node}
    (detached : graph.detach? id = some (node, next)) : next.Foremost := by
  have still := Still.detach? detached
  exact foremost.of_owned (fun _ _ own => own.congr still.functions still.structs)
    fun _ _ first => first.of_fewer (still.size.trans (size_clear graph id)) fun _ has =>
      (hasKind_detach? detached has).1

theorem Foremost.foldl_detach (foremost : graph.Foremost) (ids : List NodeId) :
    (ids.foldl detach graph).Foremost := by
  induction ids generalizing graph with
  | nil => exact foremost
  | cons id ids ih =>
    refine ih ?_
    unfold detach
    split
    · exact foremost.detach? ‹_›
    · exact foremost

theorem Foremost.modifyFunction (foremost : graph.Foremost) (f : FunctionId)
    {change : FunctionEntry → FunctionEntry} (ids : ∀ entry, (change entry).id = entry.id)
    (inputs : ∀ entry node, (change entry).input = some node →
      entry.input = some node ∨ graph.FirstOf node (.functionInput f))
    (outputs : ∀ entry node, (change entry).output = some node →
      entry.output = some node ∨ graph.FirstOf node (.functionOutput f)) :
    (graph.modifyFunction f change).Foremost := by
  intro id kind own
  have known : graph.OwnedAs id kind ∨ graph.FirstOf id kind := by
    cases own with
    | input member own =>
      obtain ⟨old, hold, rfl⟩ := List.mem_map.1 member
      by_cases here : old.id = f
      · simp only [here, if_true] at own ⊢
        rw [ids, here]
        refine (inputs old id own).imp_left fun own => ?_
        subst here
        exact .input hold own
      · simp only [here, if_false] at own ⊢
        exact .inl (.input hold own)
    | output member own =>
      obtain ⟨old, hold, rfl⟩ := List.mem_map.1 member
      by_cases here : old.id = f
      · simp only [here, if_true] at own ⊢
        rw [ids, here]
        refine (outputs old id own).imp_left fun own => ?_
        subst here
        exact .output hold own
      · simp only [here, if_false] at own ⊢
        exact .inl (.output hold own)
    | boundary member own => exact .inl (.boundary member own)
  exact (known.elim (foremost id kind) fun first => first).of_fewer rfl fun _ has => has

theorem Foremost.modifyStruct (foremost : graph.Foremost) (s : StructId)
    {change : StructEntry → StructEntry} (ids : ∀ entry, (change entry).id = entry.id)
    (boundaries : ∀ entry node, (change entry).boundary = some node →
      entry.boundary = some node ∨ graph.FirstOf node (.construct s)) :
    (graph.modifyStruct s change).Foremost := by
  intro id kind own
  have known : graph.OwnedAs id kind ∨ graph.FirstOf id kind := by
    cases own with
    | input member own => exact .inl (.input member own)
    | output member own => exact .inl (.output member own)
    | boundary member own =>
      obtain ⟨old, hold, rfl⟩ := List.mem_map.1 member
      by_cases here : old.id = s
      · simp only [here, if_true] at own ⊢
        rw [ids, here]
        refine (boundaries old id own).imp_left fun own => ?_
        subst here
        exact .boundary hold own
      · simp only [here, if_false] at own ⊢
        exact .inl (.boundary hold own)
  exact (known.elim (foremost id kind) fun first => first).of_fewer rfl fun _ has => has

theorem firstOf_firstOrNew (found : graph.firstOrNew kind = .ok (id, next)) :
    next.FirstOf id kind := by
  unfold Graph.firstOrNew at found
  split at found
  · rename_i index here
    obtain ⟨rfl, rfl⟩ := Prod.mk.inj (Except.ok.inj found)
    obtain ⟨inside, -, before⟩ := Array.findIdx?_eq_some_iff_getElem.1 here
    refine ⟨inside, fun other has => Nat.le_of_not_lt fun less => ?_⟩
    obtain ⟨node, hn, hk⟩ := hasKind_iff.1 has
    have place := Option.join_eq_some_iff.1 hn
    obtain ⟨_, place⟩ := Array.getElem?_eq_some_iff.1 place
    have apart := before other.index less
    rw [place] at apart
    simp [hk] at apart
  · rename_i absent
    refine firstOf_addDefined found fun other has => ?_
    obtain ⟨node, hn, hk⟩ := hasKind_iff.1 has
    have place : some node ∈ graph.arena := Array.mem_of_getElem? (Option.join_eq_some_iff.1 hn)
    simpa [hk] using Array.findIdx?_eq_none_iff.1 absent (some node) place

theorem Foremost.firstOrNew (foremost : graph.Foremost)
    (found : graph.firstOrNew kind = .ok (id, next)) : next.Foremost := by
  unfold Graph.firstOrNew at found
  split at found
  · obtain ⟨-, rfl⟩ := Prod.mk.inj (Except.ok.inj found)
    exact foremost
  · exact foremost.addDefined found

theorem Foremost.fillFunction (foremost : graph.Foremost) {f : FunctionId} {lacks : Bool}
    {give : NodeId → FunctionEntry → FunctionEntry}
    (filled : graph.fillFunction f lacks kind give = .ok next)
    (ids : ∀ node entry, (give node entry).id = entry.id)
    (inputs : ∀ node entry, (give node entry).input = entry.input ∨
      ((give node entry).input = some node ∧ kind = .functionInput f))
    (outputs : ∀ node entry, (give node entry).output = entry.output ∨
      ((give node entry).output = some node ∧ kind = .functionOutput f)) : next.Foremost := by
  unfold Graph.fillFunction at filled
  split at filled
  · obtain ⟨⟨node, middle⟩, found, filled⟩ := Accepted.bind_iff.1 filled
    obtain rfl := Except.ok.inj filled
    have first := firstOf_firstOrNew found
    refine (foremost.firstOrNew found).modifyFunction f (ids node) ?_ ?_
    · intro entry other own
      rcases inputs node entry with same | ⟨given, rfl⟩
      · rw [← same]
        exact .inl own
      · obtain rfl := Option.some.inj (given.symm.trans own)
        exact .inr first
    · intro entry other own
      rcases outputs node entry with same | ⟨given, rfl⟩
      · rw [← same]
        exact .inl own
      · obtain rfl := Option.some.inj (given.symm.trans own)
        exact .inr first
  · obtain rfl := Except.ok.inj filled
    exact foremost

theorem Foremost.completeFunction (foremost : graph.Foremost) {f : FunctionId}
    (completed : graph.completeFunction f = .ok next) : next.Foremost := by
  unfold Graph.completeFunction at completed
  split at completed
  · obtain rfl := Except.ok.inj completed
    exact foremost
  · obtain ⟨middle, first, second⟩ := Accepted.bind_iff.1 completed
    have begun := foremost.fillFunction first (fun _ _ => rfl) (fun _ _ => .inr ⟨rfl, rfl⟩)
      (fun _ _ => .inl rfl)
    exact begun.fillFunction second (fun _ _ => rfl) (fun _ _ => .inl rfl)
      (fun _ _ => .inr ⟨rfl, rfl⟩)

theorem Foremost.completeStruct (foremost : graph.Foremost) {s : StructId}
    (completed : graph.completeStruct s = .ok next) : next.Foremost := by
  unfold Graph.completeStruct at completed
  split at completed
  · obtain rfl := Except.ok.inj completed
    exact foremost
  · split at completed
    · obtain rfl := Except.ok.inj completed
      exact foremost
    · obtain ⟨⟨node, middle⟩, found, completed⟩ := Accepted.bind_iff.1 completed
      obtain rfl := Except.ok.inj completed
      refine (foremost.firstOrNew found).modifyStruct s (fun _ => rfl) fun entry other own => ?_
      obtain rfl := Option.some.inj own
      exact .inr (firstOf_firstOrNew found)

theorem Foremost.completeDefinitions (foremost : graph.Foremost)
    (completed : graph.completeDefinitions = .ok next) : next.Foremost := by
  obtain ⟨middle, first, second⟩ := Accepted.bind_iff.1 completed
  have functions := Accepted.foldlM (fun _ (graph : Graph) => graph.Foremost)
    (fun _ _ _ _ foremost completed => foremost.completeFunction completed) foremost first
  exact Accepted.foldlM (fun _ (graph : Graph) => graph.Foremost)
    (fun _ _ _ _ foremost completed => foremost.completeStruct completed) functions second

theorem WellFormed.not_fresh_construct (formed : graph.WellFormed admits) :
    ¬graph.HasKind id (.construct ⟨graph.nextDefinition⟩) := by
  rintro ⟨form, found, kind⟩
  have fits := formed.fit found
  simp only [Fits, kind] at fits
  obtain ⟨schema, declared, -⟩ := schema_of_definedPorts fits.1
  obtain ⟨entry, member, same, -⟩ := formed.declared.schemaAt?_eq_some_iff.1 declared
  exact formed.declared.struct_ne_next entry member same

theorem bare_of_withFunction {signature : Signature} {entry : FunctionEntry}
    (member : entry ∈ (graph.withFunction signature).functions) :
    entry ∈ graph.functions ∨ entry.input = none ∧ entry.output = none := by
  refine (mem_withFunction.1 member).imp_right fun same => ?_
  simp [same]

theorem bare_of_withStruct {schema : Schema} {entry : StructEntry}
    (member : entry ∈ (graph.withStruct schema).structs) :
    entry ∈ graph.structs ∨ entry.boundary = none := by
  refine (mem_withStruct.1 member).imp_right fun same => ?_
  simp [same]

theorem Foremost.withFunction (foremost : graph.Foremost) (signature : Signature) :
    (graph.withFunction signature).Foremost := by
  exact foremost.of_entries rfl (fun _ => bare_of_withFunction) fun _ => .inl

theorem Foremost.withStruct (foremost : graph.Foremost) (schema : Schema) :
    (graph.withStruct schema).Foremost := by
  refine foremost.of_entries rfl (fun _ => .inl) fun _ => ?_
  exact bare_of_withStruct

theorem Foremost.defineFunction (foremost : graph.Foremost) (formed : graph.WellFormed admits)
    {signature : Signature} {position : Position} {f : FunctionId}
    (accepted : graph.defineFunction signature position = .ok (f, next)) : next.Foremost := by
  obtain ⟨input, first, output, second, -, -, rfl, hinput, houtput, rfl⟩ :=
    defineFunction_eq_ok accepted
  have fresh (other : NodeId) (kind : NodeKind)
      (of : kind.function? = some ⟨graph.nextDefinition⟩) :
      ¬(graph.withFunction signature).HasKind other kind := fun has => formed.not_fresh has of
  have begins := firstOf_addDefined hinput fun other => fresh other _ rfl
  have ends := firstOf_addDefined houtput fun other has => by
    obtain ⟨ports, -, -, rfl⟩ := addDefined_eq_ok_iff.1 hinput
    rcases hasKind_push has with ⟨-, same⟩ | has
    · simp [Node.ofPorts] at same
    · exact fresh other _ rfl has
  have stays : second.FirstOf input (.functionInput ⟨graph.nextDefinition⟩) := by
    obtain ⟨ports, -, -, rfl⟩ := addDefined_eq_ok_iff.1 houtput
    exact begins.push _
  refine (((foremost.withFunction signature).addDefined hinput).addDefined houtput).modifyFunction
    _ (fun _ => rfl) ?_ ?_
  · intro _ _ own
    obtain rfl := Option.some.inj own
    exact .inr stays
  · intro _ _ own
    obtain rfl := Option.some.inj own
    exact .inr ends

theorem Foremost.defineStruct (foremost : graph.Foremost) (formed : graph.WellFormed admits)
    {schema : Schema} {position : Position} {s : StructId}
    (accepted : graph.defineStruct schema position = .ok (s, next)) : next.Foremost := by
  obtain ⟨boundary, first, -, -, rfl, hnode, rfl⟩ := defineStruct_eq_ok accepted
  have begins := firstOf_addDefined hnode fun other has => formed.not_fresh_construct has
  refine ((foremost.withStruct schema).addDefined hnode).modifyStruct _ (fun _ => rfl) ?_
  intro _ _ own
  obtain rfl := Option.some.inj own
  exact .inr begins

/-- The nodes that are left to be replaced stand in order. Each new one stands for one of before,
which is of the kind that the new one had then and stands before all that are left. -/
structure Replacing (graph : Graph) (bound : NodeKind → Prop) (renewed : NodeKind → NodeKind)
    (rest : List NodeId) (state : Graph) : Prop where
  foremost : state.Foremost
  ascending : rest.Pairwise (·.index < ·.index)
  stems : ∀ other kind, bound kind → state.HasKind other (renewed kind) →
    ∃ origin, graph.HasKind origin kind ∧ ∀ id ∈ rest, origin.index < id.index

variable {bound : NodeKind → Prop} {renewed : NodeKind → NodeKind} {rest : List NodeId}
  {state : Graph}

theorem nodesOfKind_ascending (graph : Graph) (kinds : NodeKind → Bool) :
    (graph.nodesOfKind kinds).Pairwise (·.index < ·.index) :=
  List.pairwise_map.2 (graph.live_pairwise.sublist List.filter_sublist)

/-- The new node is the first of its kind if the old one was. -/
theorem Replacing.step (replacing : Replacing graph bound renewed (id :: rest) state)
    (injective : ∀ kind kind', bound kind → bound kind' → renewed kind = renewed kind' →
      kind = kind')
    {node : Node} {middle last : Graph} {fresh : NodeId} {position : Position}
    (here : graph.HasKind id node.kind) (isBound : bound node.kind)
    (detached : state.detach? id = some (node, middle))
    (added : middle.addDefined (renewed node.kind) position = .ok (fresh, last)) :
    Replacing graph bound renewed rest last ∧
      (graph.FirstOf id node.kind → last.FirstOf fresh (renewed node.kind)) := by
  obtain ⟨before, ascending⟩ := List.pairwise_cons.1 replacing.ascending
  have foremost := (replacing.foremost.detach? detached).addDefined added
  obtain ⟨ports, -, rfl, rfl⟩ := addDefined_eq_ok_iff.1 added
  refine ⟨⟨foremost, ascending, fun other kind hb has => ?_⟩, fun first =>
    ⟨?_, fun other has => ?_⟩⟩
  · rcases hasKind_push has with ⟨-, same⟩ | has
    · obtain rfl := injective kind node.kind hb isBound same
      exact ⟨id, here, before⟩
    · obtain ⟨origin, old, less⟩ := replacing.stems other kind hb (hasKind_detach? detached has).1
      exact ⟨origin, old, fun id hid => less id (List.mem_cons_of_mem _ hid)⟩
  · simp [Graph.push]
  · rcases hasKind_push has with ⟨rfl, -⟩ | has
    · exact Nat.le_refl _
    · obtain ⟨origin, old, less⟩ :=
        replacing.stems other node.kind isBound (hasKind_detach? detached has).1
      have later := less id List.mem_cons_self
      have sooner := first.first origin old
      omega

theorem Replacing.of_foremost (replacing : Replacing graph bound renewed rest state)
    (foremost : next.Foremost) (arena : next.arena = state.arena) :
    Replacing graph bound renewed rest next where
  foremost := foremost
  ascending := replacing.ascending
  stems other kind hb has := by
    refine replacing.stems other kind hb (has.congr ?_)
    rw [form?, form?, node?, node?, arena]

theorem Replacing.replaceBound {previous f : FunctionId} {old : FunctionEntry}
    (replacing : Replacing graph (BoundTo previous) (rebind f) (id :: rest) state)
    {node : Node} {middle : Graph} (here : graph.HasKind id node.kind)
    (isBound : BoundTo previous node.kind) (detached : state.detach? id = some (node, middle))
    (input : old.input = some id → node.kind = .functionInput previous ∧ graph.FirstOf id node.kind)
    (output : old.output = some id →
      node.kind = .functionOutput previous ∧ graph.FirstOf id node.kind)
    (accepted : state.replaceBound old f id = .ok next) :
    Replacing graph (BoundTo previous) (rebind f) rest next := by
  simp only [Graph.replaceBound, detached] at accepted
  obtain ⟨⟨fresh, last⟩, added, changed⟩ := Accepted.bind_iff.1 accepted
  obtain rfl := Except.ok.inj changed
  obtain ⟨replaced, first⟩ :=
    replacing.step (fun _ _ => eq_of_rebind_eq) here isBound detached added
  refine replaced.of_foremost (replaced.foremost.modifyFunction f (fun entry => ?_) ?_ ?_) rfl
  · split
    · rfl
    · split <;> rfl
  · intro entry other own
    split at own
    · rename_i isInput
      obtain ⟨kind, old⟩ := input isInput
      obtain rfl := Option.some.inj own
      refine .inr ?_
      simpa [kind, rebind] using first old
    · split at own <;> exact .inl own
  · intro entry other own
    split at own
    · exact .inl own
    · split at own
      · rename_i isOutput
        obtain ⟨kind, old⟩ := output isOutput
        obtain rfl := Option.some.inj own
        refine .inr ?_
        simpa [kind, rebind] using first old
      · exact .inl own

theorem Replacing.replaceConstructor {previous s : StructId} {old : StructEntry}
    (replacing : Replacing graph (· = .construct previous) (fun _ => .construct s)
      (id :: rest) state)
    {node : Node} {middle : Graph} (here : graph.HasKind id node.kind)
    (isBound : node.kind = .construct previous)
    (detached : state.detach? id = some (node, middle))
    (boundary : old.boundary = some id → graph.FirstOf id node.kind)
    (accepted : state.replaceConstructor old s id = .ok next) :
    Replacing graph (· = .construct previous) (fun _ => .construct s) rest next := by
  simp only [Graph.replaceConstructor, detached] at accepted
  obtain ⟨⟨fresh, last⟩, added, changed⟩ := Accepted.bind_iff.1 accepted
  obtain rfl := Except.ok.inj changed
  obtain ⟨replaced, first⟩ :=
    replacing.step (fun _ _ a b _ => a.trans b.symm) here isBound detached added
  refine replaced.of_foremost (replaced.foremost.modifyStruct s (fun entry => ?_) ?_) rfl
  · split <;> rfl
  · intro entry other own
    split at own
    · rename_i isBoundary
      obtain rfl := Option.some.inj own
      exact .inr (first (boundary isBoundary))
    · exact .inl own

theorem Foremost.redeclareFunction (foremost : graph.Foremost) (previous : FunctionId)
    (signature : Signature) : (graph.redeclareFunction previous signature).Foremost := by
  refine foremost.of_entries rfl (fun _ member => ?_) fun _ => .inl
  refine (mem_redeclareFunction member).symm.imp And.left fun same => ?_
  simp [same]

theorem Foremost.redeclareStruct (foremost : graph.Foremost) (previous : StructId)
    (schema : Schema) : (graph.redeclareStruct previous schema).Foremost := by
  refine foremost.of_entries rfl (fun _ => .inl) fun _ member => ?_
  refine (mem_redeclareStruct member).symm.imp And.left fun same => ?_
  simp [same]

theorem Foremost.redefineFunction (foremost : graph.Foremost) (formed : graph.WellFormed admits)
    {previous f : FunctionId} {signature : Signature}
    (accepted : graph.redefineFunction previous signature = .ok (some (f, next))) :
    next.Foremost := by
  obtain ⟨old, middle, hold, rfl, new, -, replaced, completed⟩ := redefineFunction_eq_some accepted
  obtain ⟨member, rfl⟩ := formed.declared.function?_iff.1 hold
  obtain ⟨other, pending⟩ := formed.pending_redeclareFunction member new
  have start : Replacing graph (BoundTo old.id) (rebind ⟨graph.nextDefinition⟩)
      (graph.nodesOfKind (·.function? == some old.id))
      (graph.redeclareFunction old.id signature) := by
    refine ⟨foremost.redeclareFunction _ _, nodesOfKind_ascending .., fun id kind bound has => ?_⟩
    exact absurd (function?_rebind bound) (formed.not_fresh has)
  have done := Accepted.foldlM
    (fun rest state => Pending admits (BoundTo old.id) graph.form? rest state ∧
      Replacing graph (BoundTo old.id) (rebind ⟨graph.nextDefinition⟩) rest state)
    (fun id rest state next ⟨pending, replacing⟩ accepted => by
      obtain ⟨node, hnode, bound, detached⟩ := pending.detach?_eq
      have here : graph.HasKind id node.kind := ⟨node.form, hnode, rfl⟩
      have owned {kind : NodeKind} (own : graph.OwnedAs id kind) :
          node.kind = kind ∧ graph.FirstOf id node.kind := by
        obtain rfl := here.unique (formed.owned.hasKind own)
        exact ⟨rfl, foremost id _ own⟩
      exact ⟨pending.replaceBound other (formed.owned.inputs old member id)
          (formed.owned.outputs old member id) accepted,
        replacing.replaceBound here bound detached (fun own => owned (.input member own))
          (fun own => owned (.output member own)) accepted⟩)
    ⟨pending, start⟩ replaced
  exact done.2.foremost.completeDefinitions completed

theorem Foremost.redefineStruct (foremost : graph.Foremost) (formed : graph.WellFormed admits)
    {previous s : StructId} {schema : Schema}
    (accepted : graph.redefineStruct previous schema = .ok (some (s, next))) :
    next.Foremost := by
  obtain ⟨old, middle, last, hold, rfl, new, -, replaced, completed, rfl⟩ :=
    redefineStruct_eq_some accepted
  obtain ⟨member, rfl⟩ := formed.declared.struct?_iff.1 hold
  obtain ⟨other, pending⟩ := formed.pending_redeclareStruct member new
  have start : Replacing graph (· = .construct old.id) (fun _ => .construct ⟨graph.nextDefinition⟩)
      (graph.nodesOfKind (· == .construct old.id)) (graph.redeclareStruct old.id schema) := by
    refine ⟨foremost.redeclareStruct _ _, nodesOfKind_ascending .., fun id kind bound has => ?_⟩
    exact absurd has formed.not_fresh_construct
  have done := Accepted.foldlM
    (fun rest state => Pending admits (· = .construct old.id) graph.form? rest state ∧
      Replacing graph (· = .construct old.id)
        (fun _ => .construct ⟨graph.nextDefinition⟩) rest state)
    (fun id rest state next ⟨pending, replacing⟩ accepted => by
      obtain ⟨node, hnode, bound, detached⟩ := pending.detach?_eq
      have here : graph.HasKind id node.kind := ⟨node.form, hnode, rfl⟩
      refine ⟨pending.replaceConstructor other accepted,
        replacing.replaceConstructor here bound detached (fun own => ?_) accepted⟩
      rw [bound]
      exact foremost id _ (.boundary member own))
    ⟨pending, start⟩ replaced
  have perm := inOrder_perm last.structs
  exact (done.2.foremost.completeDefinitions completed).of_entries rfl (fun _ => .inl)
    fun _ member => .inl (perm.mem_iff.1 member)

theorem Foremost.removeFunction (foremost : graph.Foremost) (f : FunctionId) :
    (graph.removeFunction f).2.Foremost := by
  unfold Graph.removeFunction
  split
  · exact foremost
  have without : (graph.withoutFunction f).Foremost := foremost.of_entries rfl
    (fun _ member => .inl (mem_withoutFunction.1 member).1) fun _ => .inl
  exact without.foldl_detach _

theorem Foremost.removeStruct (foremost : graph.Foremost) (s : StructId) :
    (graph.removeStruct s).2.Foremost := by
  unfold Graph.removeStruct
  split
  · exact foremost
  have without : (graph.withoutStruct s).Foremost := foremost.of_entries rfl (fun _ => .inl)
    fun _ member => .inl (mem_withoutStruct.1 member).1
  exact without.foldl_detach _

end Graph

open NodeScript.Graph

/-- An accepted edit keeps the nodes that definitions own before the others of their kinds. -/
theorem Edit.foremost {registry : Registry} {admits : Admits} {graph next : Graph} {edit : Edit}
    (formed : graph.WellFormed admits) (foremost : graph.Foremost)
    (accepted : edit.apply registry graph = .ok next) : next.Foremost := by
  cases Edit.effect accepted with
  | still same => exact foremost.still same
  | builtin _ _ => exact foremost.push _
  | called added => exact foremost.addDefined added
  | constructed added => exact foremost.addDefined added
  | removed _ detached => exact foremost.detach? detached
  | definedFunction accepted => exact foremost.defineFunction formed accepted
  | definedStruct accepted => exact foremost.defineStruct formed accepted
  | redefinedFunction accepted => exact foremost.redefineFunction formed accepted
  | redefinedStruct accepted => exact foremost.redefineStruct formed accepted
  | removedFunction => exact foremost.removeFunction _
  | removedStruct => exact foremost.removeStruct _

end NodeScript
