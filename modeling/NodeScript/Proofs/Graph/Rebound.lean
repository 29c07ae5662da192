import NodeScript.Proofs.Graph.Completion

/-!
What happens to the nodes of a definition that gets another address or is removed: one after the
other they are taken out, and in their stead new ones may be put in. Main statement: no node is
left without its definition at the end (`Pending.done`).
-/

set_option autoImplicit false
set_option relaxedAutoImplicit false

namespace NodeScript.Graph

variable {admits : Admits} {bound excused : NodeKind → Prop} {graph next : Graph}

theorem live_nodup (graph : Graph) : (graph.live.map (·.1)).Nodup := by
  refine List.pairwise_map.2 (graph.live_pairwise.imp fun {a b} less same => ?_)
  rw [same] at less
  exact Nat.lt_irrefl _ less

theorem mem_nodesOfKind {kind : NodeKind → Bool} {id : NodeId} :
    id ∈ graph.nodesOfKind kind ↔ ∃ form, graph.form? id = some form ∧ kind form.kind = true := by
  simp only [nodesOfKind, List.mem_map, List.mem_filter, Prod.exists, mem_live]
  constructor
  · rintro ⟨id, node, ⟨hn, hk⟩, rfl⟩
    exact ⟨node.form, form?_eq_of_node? hn, hk⟩
  · rintro ⟨form, hf, hk⟩
    obtain ⟨node, hn, rfl⟩ := node?_of_form? hf
    exact ⟨id, node, ⟨hn, hk⟩, rfl⟩

theorem not_hasKind_of_nodesOfKind {kind : NodeKind} (none : graph.nodesOfKind (· == kind) = [])
    (id : NodeId) : ¬graph.HasKind id kind := by
  rintro ⟨form, here, rfl⟩
  have mem : id ∈ graph.nodesOfKind (· == form.kind) := mem_nodesOfKind.2 ⟨form, here, by simp⟩
  simp [none] at mem

theorem nodesOfKind_nodup (graph : Graph) (kind : NodeKind → Bool) :
    (graph.nodesOfKind kind).Nodup :=
  graph.live_nodup.sublist (List.filter_sublist.map _)

/-- The nodes of the bound kinds, which no definition owns any more, are those in the list. They
are still as they were in the beginning. -/
structure Pending (admits : Admits) (bound : NodeKind → Prop) (start : NodeId → Option Form)
    (rest : List NodeId) (graph : Graph) : Prop where
  sound : graph.Sound admits bound
  functions : ∀ entry ∈ graph.functions,
    ¬bound (.functionInput entry.id) ∧ ¬bound (.functionOutput entry.id)
  structs : ∀ entry ∈ graph.structs, ¬bound (.construct entry.id)
  nodup : rest.Nodup
  same : ∀ id ∈ rest, graph.form? id = start id
  kinds : ∀ id ∈ rest, ∃ form, start id = some form ∧ bound form.kind
  all : ∀ id form, graph.form? id = some form → bound form.kind → id ∈ rest

variable {start : NodeId → Option Form} {rest : List NodeId} {id : NodeId}

theorem Pending.done (pending : Pending admits bound start [] graph) :
    graph.Sound admits fun _ => False where
  wired := pending.sound.wired
  acyclic := pending.sound.acyclic
  insets := pending.sound.insets
  declared := pending.sound.declared
  fits id form h := (pending.sound.fits id form h).imp_left fun hb => by
    simpa using pending.all id form h hb
  owned := pending.sound.owned

theorem Pending.owns_eq_false (pending : Pending admits bound start (id :: rest) graph) :
    graph.owns id = false := by
  have here : id ∈ id :: rest := List.mem_cons_self
  obtain ⟨form, hf, hb⟩ := pending.kinds id here
  rw [← pending.same id here] at hf
  have apart (kind : NodeKind) (free : ¬bound kind) : ¬graph.HasKind id kind := by
    intro has
    rw [← has.unique ⟨form, hf, rfl⟩] at hb
    exact free hb
  simp only [owns, Bool.or_eq_false_iff, List.any_eq_false, Bool.or_eq_true, beq_iff_eq, not_or]
  refine ⟨fun entry he => ⟨fun h => ?_, fun h => ?_⟩, fun entry he h => ?_⟩
  · exact apart _ (pending.functions entry he).1 (pending.sound.owned.inputs entry he id h)
  · exact apart _ (pending.functions entry he).2 (pending.sound.owned.outputs entry he id h)
  · exact apart _ (pending.structs entry he) (pending.sound.owned.constructors entry he id h)

/-- The first of the nodes is taken out. -/
theorem Pending.detached (pending : Pending admits bound start (id :: rest) graph) :
    Pending admits bound start rest ((graph.restrict (Keep.apart id)).clear id) where
  sound := pending.sound.detached pending.owns_eq_false
  functions := pending.functions
  structs := pending.structs
  nodup := (List.nodup_cons.1 pending.nodup).2
  same other ho := by
    rw [form?_clear, form?_restrict, if_neg]
    · exact pending.same other (List.mem_cons_of_mem id ho)
    · rintro rfl
      exact (List.nodup_cons.1 pending.nodup).1 ho
  kinds other ho := pending.kinds other (List.mem_cons_of_mem id ho)
  all other form h hb := by
    rw [form?_clear, form?_restrict] at h
    split at h
    · simp at h
    · rename_i hne
      exact (List.mem_cons.1 (pending.all other form h hb)).resolve_left hne

theorem Pending.detach?_eq (pending : Pending admits bound start (id :: rest) graph) :
    ∃ node, start id = some node.form ∧ bound node.kind ∧
      graph.detach? id = some (node, (graph.restrict (Keep.apart id)).clear id) := by
  have here : id ∈ id :: rest := List.mem_cons_self
  obtain ⟨form, hf, hb⟩ := pending.kinds id here
  rw [← pending.same id here] at hf
  obtain ⟨node, hn, rfl⟩ := node?_of_form? hf
  refine ⟨node, ?_, hb, ?_⟩
  · rw [← pending.same id here, form?_eq_of_node? hn]
  · rw [pending.sound.wired.detach?_eq, hn]
    rfl

/-- A node of another kind is put in. -/
theorem Pending.addDefined (pending : Pending admits bound start rest graph) {kind : NodeKind}
    {position : Position} (free : ¬bound kind)
    (added : graph.addDefined kind position = .ok (id, next)) :
    Pending admits bound start rest next ∧ next.HasKind id kind := by
  obtain ⟨sound, has⟩ := pending.sound.addDefined added
  refine ⟨?_, has⟩
  obtain ⟨ports, hports, rfl, rfl⟩ := addDefined_eq_ok_iff.1 added
  refine ⟨sound, pending.functions, pending.structs, pending.nodup, ?_, pending.kinds, ?_⟩
  · intro other ho
    obtain ⟨form, hf, -⟩ := pending.kinds other ho
    rw [hf]
    rw [← pending.same other ho] at hf
    exact form?_push_of_some _ hf
  · intro other form h hb
    rw [form?_push] at h
    split at h
    · rw [Node.form_ofPorts, Option.some.injEq] at h
      subst h
      exact absurd hb free
    · exact pending.all other form h hb

theorem Pending.of_definitions (pending : Pending admits bound start rest graph)
    (sound : next.Sound admits bound) (arena : next.arena = graph.arena)
    (functions : next.functions.map (·.id) = graph.functions.map (·.id))
    (structs : next.structs.map (·.id) = graph.structs.map (·.id)) :
    Pending admits bound start rest next where
  sound := sound
  functions entry he := by
    have mem : entry.id ∈ graph.functions.map (·.id) := by
      rw [← functions]
      exact List.mem_map_of_mem he
    obtain ⟨old, hold, same⟩ := List.mem_map.1 mem
    rw [← same]
    exact pending.functions old hold
  structs entry he := by
    have mem : entry.id ∈ graph.structs.map (·.id) := by
      rw [← structs]
      exact List.mem_map_of_mem he
    obtain ⟨old, hold, same⟩ := List.mem_map.1 mem
    rw [← same]
    exact pending.structs old hold
  nodup := pending.nodup
  same other ho := by
    rw [form?, node?, arena]
    exact pending.same other ho
  kinds := pending.kinds
  all other form h hb := by
    rw [form?, node?, arena] at h
    exact pending.all other form h hb

theorem function?_rebind {old id : FunctionId} {kind : NodeKind}
    (h : kind.function? = some old) : (rebind id kind).function? = some id := by
  cases kind <;> simp_all [rebind, NodeKind.function?]

/-- A new node takes the stead of one of a function. -/
theorem Pending.replaceBound {previous f : FunctionId} {old : FunctionEntry}
    (pending : Pending admits (BoundTo previous) start (id :: rest) graph) (other : f ≠ previous)
    (input : old.input = some id → ∃ form, start id = some form ∧
      form.kind = .functionInput previous)
    (output : old.output = some id → ∃ form, start id = some form ∧
      form.kind = .functionOutput previous)
    (accepted : graph.replaceBound old f id = .ok next) :
    Pending admits (BoundTo previous) start rest next := by
  obtain ⟨node, hnode, hbound, detached⟩ := pending.detach?_eq
  simp only [Graph.replaceBound, detached] at accepted
  obtain ⟨⟨fresh, middle⟩, added, changed⟩ := Accepted.bind_iff.1 accepted
  simp only [pure, Except.pure, Except.ok.injEq] at changed
  subst changed
  have free : ¬BoundTo previous (rebind f node.kind) := fun h => by
    rw [BoundTo, function?_rebind hbound, Option.some.injEq] at h
    exact other h
  obtain ⟨pending', has⟩ := pending.detached.addDefined free added
  have kind {k : NodeKind} (h : ∃ form, start id = some form ∧ form.kind = k) : node.kind = k := by
    obtain ⟨form, hf, hk⟩ := h
    rw [hnode, Option.some.injEq] at hf
    subst hf
    exact hk
  refine pending'.of_definitions ?_ rfl ?_ rfl
  · refine pending'.sound.modifyFunction f _ (fun entry => ?_) ?_ ?_
    · split
      · exact ⟨rfl, rfl⟩
      · split <;> exact ⟨rfl, rfl⟩
    · intro entry _ _ m h
      split at h
      · rename_i isInput
        rw [kind (input isInput)] at has
        simp only [Option.some.injEq] at h
        subst h
        exact .inr has
      · split at h <;> exact .inl h
    · intro entry _ _ m h
      split at h
      · exact .inl h
      · split at h
        · rename_i isOutput
          rw [kind (output isOutput)] at has
          simp only [Option.some.injEq] at h
          subst h
          exact .inr has
        · exact .inl h
  · apply map_modifyFunction
    intro entry
    split
    · rfl
    · split <;> rfl

/-- A new constructor takes the stead of one of a struct. -/
theorem Pending.replaceConstructor {previous s : StructId} {old : StructEntry}
    (pending : Pending admits (· = .construct previous) start (id :: rest) graph)
    (other : s ≠ previous) (accepted : graph.replaceConstructor old s id = .ok next) :
    Pending admits (· = .construct previous) start rest next := by
  obtain ⟨node, hnode, hbound, detached⟩ := pending.detach?_eq
  simp only [Graph.replaceConstructor, detached] at accepted
  obtain ⟨⟨fresh, middle⟩, added, changed⟩ := Accepted.bind_iff.1 accepted
  simp only [pure, Except.pure, Except.ok.injEq] at changed
  subst changed
  have free : NodeKind.construct s ≠ .construct previous := by simpa using other
  obtain ⟨pending', has⟩ := pending.detached.addDefined free added
  refine pending'.of_definitions ?_ rfl rfl ?_
  · refine pending'.sound.modifyStruct s _ (fun entry => ?_) ?_
    · split <;> exact ⟨rfl, rfl⟩
    · intro entry _ _ m h
      split at h
      · simp only [Option.some.injEq] at h
        subst h
        exact .inr has
      · exact .inl h
  · apply map_modifyStruct
    intro entry
    split <;> rfl

theorem Upkeep.replaceBound {old : FunctionEntry} {f : FunctionId}
    (accepted : graph.replaceBound old f id = .ok next) : graph.Upkeep next := by
  unfold Graph.replaceBound at accepted
  split at accepted
  · obtain rfl := Except.ok.inj accepted
    exact .refl graph
  · obtain ⟨⟨fresh, middle⟩, added, changed⟩ := Accepted.bind_iff.1 accepted
    obtain rfl := Except.ok.inj changed
    refine ((Upkeep.detach? ‹_›).trans (.addDefined added)).trans (.modifyFunction middle f ?_)
    intro entry
    split
    · exact ⟨rfl, rfl⟩
    · split <;> exact ⟨rfl, rfl⟩

theorem Upkeep.replaceConstructor {old : StructEntry} {s : StructId}
    (accepted : graph.replaceConstructor old s id = .ok next) : graph.Upkeep next := by
  unfold Graph.replaceConstructor at accepted
  split at accepted
  · obtain rfl := Except.ok.inj accepted
    exact .refl graph
  · obtain ⟨⟨fresh, middle⟩, added, changed⟩ := Accepted.bind_iff.1 accepted
    obtain rfl := Except.ok.inj changed
    refine ((Upkeep.detach? ‹_›).trans (.addDefined added)).trans (.modifyStruct middle s ?_)
    intro entry
    split <;> exact ⟨rfl, rfl⟩

/-- The nodes of some kinds wait to be replaced or taken out once no definition owns them. -/
theorem Sound.pending (sound : next.Sound admits bound) (graph : Graph)
    (kinds : NodeKind → Bool) (forms : ∀ id, next.form? id = graph.form? id)
    (same : ∀ kind, kinds kind = true ↔ bound kind)
    (functions : ∀ entry ∈ next.functions,
      ¬bound (.functionInput entry.id) ∧ ¬bound (.functionOutput entry.id))
    (structs : ∀ entry ∈ next.structs, ¬bound (.construct entry.id)) :
    Pending admits bound graph.form? (graph.nodesOfKind kinds) next where
  sound := sound
  functions := functions
  structs := structs
  nodup := graph.nodesOfKind_nodup kinds
  same id _ := forms id
  kinds id hid := by
    obtain ⟨form, hf, hk⟩ := mem_nodesOfKind.1 hid
    exact ⟨form, hf, (same _).1 hk⟩
  all id form h hb := by
    rw [forms] at h
    exact mem_nodesOfKind.2 ⟨form, h, (same _).2 hb⟩

theorem redefineFunction_eq_some {previous f : FunctionId} {signature : Signature}
    (accepted : graph.redefineFunction previous signature = .ok (some (f, next))) :
    ∃ old middle, graph.function? previous = some old ∧ f = ⟨graph.nextDefinition⟩ ∧
      (∀ entry ∈ graph.functions, entry.id ≠ previous → entry.signature.name ≠ signature.name) ∧
      graph.checkMentions signature.types [] = .ok () ∧
      (graph.nodesOfKind (·.function? == some previous)).foldlM (replaceBound old f)
        (graph.redeclareFunction previous signature) = .ok middle ∧
      middle.completeDefinitions = .ok next := by
  unfold Graph.redefineFunction at accepted
  split at accepted
  · simp [pure, Except.pure] at accepted
  rename_i old hold
  split at accepted
  · simp [throw, throwThe, MonadExceptOf.throw, bind, Except.bind] at accepted
  rename_i fresh
  obtain ⟨_, checked, accepted⟩ := Accepted.bind_iff.1 accepted
  obtain ⟨middle, replaced, accepted⟩ := Accepted.bind_iff.1 accepted
  obtain ⟨last, completed, accepted⟩ := Accepted.bind_iff.1 accepted
  simp only [pure, Except.pure, Except.ok.injEq, Option.some.injEq, Prod.mk.injEq] at accepted
  obtain ⟨rfl, rfl⟩ := accepted
  refine ⟨old, middle, hold, rfl, fun entry he hne same => fresh ?_, checked, replaced, completed⟩
  rw [List.any_eq_true]
  exact ⟨entry, he, by simp [hne, same]⟩

theorem redefineStruct_eq_some {previous s : StructId} {schema : Schema}
    (accepted : graph.redefineStruct previous schema = .ok (some (s, next))) :
    ∃ old middle last, graph.struct? previous = some old ∧ s = ⟨graph.nextDefinition⟩ ∧
      (∀ entry ∈ graph.structs, entry.id ≠ previous → entry.schema.name ≠ schema.name) ∧
      graph.checkMentions (schema.fields.map Field.type) [schema.name, old.schema.name] = .ok () ∧
      (graph.nodesOfKind (· == .construct previous)).foldlM (replaceConstructor old s)
        (graph.redeclareStruct previous schema) = .ok middle ∧
      middle.completeDefinitions = .ok last ∧
      next = { last with structs := inOrder last.structs } := by
  unfold Graph.redefineStruct at accepted
  split at accepted
  · simp [pure, Except.pure] at accepted
  rename_i old hold
  split at accepted
  · simp [throw, throwThe, MonadExceptOf.throw, bind, Except.bind] at accepted
  rename_i fresh
  obtain ⟨_, checked, accepted⟩ := Accepted.bind_iff.1 accepted
  obtain ⟨middle, replaced, accepted⟩ := Accepted.bind_iff.1 accepted
  obtain ⟨last, completed, accepted⟩ := Accepted.bind_iff.1 accepted
  simp only [pure, Except.pure, Except.ok.injEq, Option.some.injEq, Prod.mk.injEq] at accepted
  obtain ⟨rfl, rfl⟩ := accepted
  refine ⟨old, middle, last, hold, rfl, fun entry he hne same => fresh ?_, checked, replaced,
    completed, rfl⟩
  rw [List.any_eq_true]
  exact ⟨entry, he, by simp [hne, same]⟩

theorem Sound.pending_redeclareFunction (sound : graph.Sound admits fun _ => False)
    {old : FunctionEntry} {signature : Signature} (member : old ∈ graph.functions)
    (fresh : ∀ entry ∈ graph.functions, entry.id ≠ old.id → entry.signature.name ≠ signature.name) :
    ⟨graph.nextDefinition⟩ ≠ old.id ∧
      Pending admits (BoundTo old.id) graph.form? (graph.nodesOfKind (·.function? == some old.id))
        (graph.redeclareFunction old.id signature) := by
  have other := (sound.declared.function_ne_next old member).symm
  have ids : ∀ entry ∈ (graph.redeclareFunction old.id signature).functions, entry.id ≠ old.id := by
    intro entry he
    rcases mem_redeclareFunction he with rfl | ⟨-, hne⟩
    · exact other
    · exact hne
  refine ⟨other, (sound.redeclareFunction fresh).pending graph
    (·.function? == some old.id) (fun _ => rfl) (fun kind => by simp [BoundTo])
    (fun entry he => ?_) (fun entry _ => by simp [BoundTo, NodeKind.function?])⟩
  simp [BoundTo, NodeKind.function?, ids entry he]

theorem Sound.pending_redeclareStruct (sound : graph.Sound admits fun _ => False)
    {old : StructEntry} {schema : Schema} (member : old ∈ graph.structs)
    (fresh : ∀ entry ∈ graph.structs, entry.id ≠ old.id → entry.schema.name ≠ schema.name) :
    ⟨graph.nextDefinition⟩ ≠ old.id ∧
      Pending admits (· = .construct old.id) graph.form?
        (graph.nodesOfKind (· == .construct old.id)) (graph.redeclareStruct old.id schema) := by
  have other := (sound.declared.struct_ne_next old member).symm
  have ids : ∀ entry ∈ (graph.redeclareStruct old.id schema).structs, entry.id ≠ old.id := by
    intro entry he
    rcases mem_redeclareStruct he with rfl | ⟨-, hne⟩
    · exact other
    · exact hne
  exact ⟨other, (sound.redeclareStruct fresh).pending graph
    (· == .construct old.id) (fun _ => rfl) (fun kind => by simp)
    (fun entry _ => by simp) (fun entry he => by simpa using ids entry he)⟩

theorem Sound.redefineFunction (sound : graph.Sound admits fun _ => False)
    {previous f : FunctionId} {signature : Signature}
    (accepted : graph.redefineFunction previous signature = .ok (some (f, next))) :
    next.WellFormed admits := by
  obtain ⟨old, middle, hold, rfl, fresh, -, replaced, completed⟩ :=
    redefineFunction_eq_some accepted
  obtain ⟨member, rfl⟩ := sound.declared.function?_iff.1 hold
  obtain ⟨other, start⟩ := sound.pending_redeclareFunction member fresh
  have done := Accepted.foldlM
    (fun rest graph' => Pending admits (BoundTo old.id) graph.form? rest graph')
    (fun id rest state next pending accepted => pending.replaceBound other
      (sound.owned.inputs old member id) (sound.owned.outputs old member id) accepted)
        start replaced
  exact done.done.completeDefinitions completed

theorem Sound.redefineStruct (sound : graph.Sound admits fun _ => False)
    {previous s : StructId} {schema : Schema}
    (accepted : graph.redefineStruct previous schema = .ok (some (s, next))) :
    next.WellFormed admits := by
  obtain ⟨old, middle, last, hold, rfl, fresh, -, replaced, completed, rfl⟩ :=
    redefineStruct_eq_some accepted
  obtain ⟨member, rfl⟩ := sound.declared.struct?_iff.1 hold
  obtain ⟨other, start⟩ := sound.pending_redeclareStruct member fresh
  have done := Accepted.foldlM (fun rest graph' =>
      Pending admits (· = .construct old.id) graph.form? rest graph')
    (fun id rest state next pending accepted => pending.replaceConstructor other accepted)
    start replaced
  have formed := done.done.completeDefinitions completed
  have perm := inOrder_perm last.structs
  exact { formed.structs_perm perm with
    complete := ⟨formed.complete.inputs, formed.complete.outputs,
      fun entry he => formed.complete.constructors entry (perm.mem_iff.1 he)⟩ }

private theorem Pending.foldl_detach {rest : List NodeId} {graph : Graph}
    (pending : Pending admits bound start rest graph) :
    Pending admits bound start [] (rest.foldl detach graph) ∧
      (rest.foldl detach graph).functions = graph.functions ∧
      (rest.foldl detach graph).structs = graph.structs := by
  induction rest generalizing graph with
  | nil => exact ⟨pending, rfl, rfl⟩
  | cons id rest ih =>
    obtain ⟨node, -, -, detached⟩ := pending.detach?_eq
    rw [List.foldl_cons, detach, detached]
    exact ih pending.detached

theorem WellFormed.removeFunction (formed : graph.WellFormed admits) (f : FunctionId) :
    (graph.removeFunction f).2.WellFormed admits := by
  unfold Graph.removeFunction
  split
  · exact formed
  have start := (formed.withoutFunction f).pending graph
    (·.function? == some f) (fun _ => rfl) (fun kind => by simp [BoundTo])
    (fun entry he => by
      simp [BoundTo, NodeKind.function?, (mem_withoutFunction.1 he).2])
    (fun entry _ => by simp [BoundTo, NodeKind.function?])
  obtain ⟨done, functions, structs⟩ := start.foldl_detach
  have complete : (graph.withoutFunction f).Complete :=
    ⟨fun entry he => formed.complete.inputs entry (mem_withoutFunction.1 he).1,
      fun entry he => formed.complete.outputs entry (mem_withoutFunction.1 he).1,
      formed.complete.constructors⟩
  exact { done.done with complete := complete.congr functions structs }

theorem WellFormed.removeStruct (formed : graph.WellFormed admits) (s : StructId) :
    (graph.removeStruct s).2.WellFormed admits := by
  unfold Graph.removeStruct
  split
  · exact formed
  have start := (formed.withoutStruct s).pending graph
    (· == .construct s) (fun _ => rfl) (fun kind => by simp)
    (fun entry _ => by simp) (fun entry he => by simpa using (mem_withoutStruct.1 he).2)
  obtain ⟨done, functions, structs⟩ := start.foldl_detach
  have complete : (graph.withoutStruct s).Complete :=
    ⟨formed.complete.inputs, formed.complete.outputs,
      fun entry he => formed.complete.constructors entry (mem_withoutStruct.1 he).1⟩
  exact { done.done with complete := complete.congr functions structs }

end NodeScript.Graph
