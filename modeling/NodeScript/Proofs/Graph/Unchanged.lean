import NodeScript.Proofs.Format.Authored
import NodeScript.Proofs.Graph.Editing

/-!
Refused edits in place. All that can be refused is asked before the first change: what comes after
the last check is never refused in a graph that is well-formed. Main statement: an edit that is
refused or finds nothing to change leaves the graph as it was (`Edit.whole`, `Edit.idle`).
-/

set_option autoImplicit false
set_option relaxedAutoImplicit false

namespace NodeScript

namespace Graph

variable {admits : Admits} {graph next : Graph}

private theorem addDefined_isOk {kind : NodeKind} {f : FunctionId} (of : kind.function? = some f)
    (known : (graph.signature? f).isSome) (position : Position) :
    ∃ id next, graph.addDefined kind position = .ok (id, next) := by
  obtain ⟨signature, known⟩ := Option.isSome_iff_exists.1 known
  have ports := definedPorts_of_function graph of
  rw [known] at ports
  exact ⟨_, _, addDefined_eq_ok_iff.2 ⟨_, ports, rfl, rfl⟩⟩

private theorem addConstructor_isOk {s : StructId} (known : (graph.schemaAt? s).isSome)
    (position : Position) :
    ∃ id next, graph.addDefined (.construct s) position = .ok (id, next) := by
  obtain ⟨schema, known⟩ := Option.isSome_iff_exists.1 known
  have ports := definedPorts_construct graph s
  rw [known] at ports
  exact ⟨_, _, addDefined_eq_ok_iff.2 ⟨_, ports, rfl, rfl⟩⟩

theorem defineFunction_isOk {signature : Signature} (position : Position)
    (checked : graph.checkMentions signature.types [] = .ok ())
    (fresh : graph.functionNamed? signature.name = none) :
    ∃ made, graph.defineFunction signature position = .ok made := by
  have known : ((graph.withFunction signature).signature? ⟨graph.nextDefinition⟩).isSome := by
    simp [signature?, function?, withFunction]
  obtain ⟨input, first, inputAdded⟩ := addDefined_isOk
    (rfl : (NodeKind.functionInput ⟨graph.nextDefinition⟩).function? = _) known position
  rw [← (Upkeep.addDefined inputAdded).signature? _] at known
  obtain ⟨output, second, outputAdded⟩ := addDefined_isOk
    (rfl : (NodeKind.functionOutput ⟨graph.nextDefinition⟩).function? = _)
    known ⟨position.x.add boundaryGap, position.y⟩
  exact ⟨_, Accepted.bind_iff.2 ⟨(), checked, Accepted.bind_iff.2
    ⟨_, declareFunction_eq_ok_iff.2 ⟨fresh, rfl, rfl⟩, Accepted.bind_iff.2
      ⟨_, inputAdded, Accepted.bind_iff.2 ⟨_, outputAdded, rfl⟩⟩⟩⟩⟩

theorem defineStruct_isOk {schema : Schema} (position : Position)
    (checked : graph.checkMentions (schema.fields.map Field.type) [schema.name] = .ok ())
    (fresh : graph.structNamed? schema.name = none) :
    ∃ made, graph.defineStruct schema position = .ok made := by
  have known : ((graph.withStruct schema).schemaAt? ⟨graph.nextDefinition⟩).isSome := by
    simp [schemaAt?, struct?, withStruct]
  obtain ⟨boundary, first, added⟩ := addConstructor_isOk known position
  unfold Graph.defineStruct
  rw [fresh]
  exact ⟨_, Accepted.bind_iff.2 ⟨(), checked, Accepted.bind_iff.2
    ⟨_, declareStruct_eq_ok_iff.2 ⟨fresh, rfl, rfl⟩, Accepted.bind_iff.2 ⟨_, added, rfl⟩⟩⟩⟩

private theorem foldlM_isOk_of (step : Graph → NodeId → Except GraphError Graph)
    (invariant : List NodeId → Graph → Prop)
    (each : ∀ id rest graph, invariant (id :: rest) graph →
      ∃ next, step graph id = .ok next ∧ invariant rest next) {ids : List NodeId} {graph : Graph}
    (start : invariant ids graph) : ∃ next, ids.foldlM step graph = .ok next := by
  induction ids generalizing graph with
  | nil => exact ⟨graph, rfl⟩
  | cons id ids ih =>
    obtain ⟨next, first, rest⟩ := each id ids graph start
    obtain ⟨last, replaced⟩ := ih rest
    exact ⟨last, by rw [List.foldlM_cons, first]; exact replaced⟩

theorem Sound.replaceFunction_isOk (sound : graph.Sound admits fun _ => False)
    {old : FunctionEntry} {signature : Signature} (member : old ∈ graph.functions)
    (fresh : ∀ entry ∈ graph.functions, entry.id ≠ old.id → entry.signature.name ≠ signature.name) :
    ∃ made, graph.replaceFunction old signature = .ok made := by
  obtain ⟨other, start⟩ := sound.pending_redeclareFunction member fresh
  have known : ((graph.redeclareFunction old.id signature).signature?
      ⟨graph.nextDefinition⟩).isSome := by
    rw [signature?, Option.isSome_map, function?, List.find?_isSome]
    exact ⟨_, List.mem_map.2 ⟨old, member, if_pos rfl⟩, by simp⟩
  have each (id : NodeId) (rest : List NodeId) (state : Graph)
      (invariant : Pending admits (BoundTo old.id) graph.form? (id :: rest) state ∧
        (state.signature? ⟨graph.nextDefinition⟩).isSome) :
      ∃ next, state.replaceBound old ⟨graph.nextDefinition⟩ id = .ok next ∧
        Pending admits (BoundTo old.id) graph.form? rest next ∧
        (next.signature? ⟨graph.nextDefinition⟩).isSome := by
    obtain ⟨pending, known⟩ := invariant
    obtain ⟨node, -, bound, detached⟩ := pending.detach?_eq
    have known' := known
    rw [← (Upkeep.detach? detached).signature?] at known'
    obtain ⟨fresh, next, added⟩ := addDefined_isOk (function?_rebind bound) known' node.position
    obtain ⟨last, accepted⟩ :
        ∃ last, state.replaceBound old ⟨graph.nextDefinition⟩ id = .ok last := by
      simp only [Graph.replaceBound, detached]
      exact ⟨_, Accepted.bind_iff.2 ⟨_, added, rfl⟩⟩
    rw [← (Upkeep.replaceBound accepted).signature? _] at known
    exact ⟨_, accepted, pending.replaceBound other (sound.owned.inputs old member id)
      (sound.owned.outputs old member id) accepted, known⟩
  obtain ⟨middle, replaced⟩ := foldlM_isOk_of _
    (fun rest state => Pending admits (BoundTo old.id) graph.form? rest state ∧
      (state.signature? ⟨graph.nextDefinition⟩).isSome) each ⟨start, known⟩
  obtain ⟨last, completed, -⟩ := middle.completeDefinitions_isOk
  exact ⟨_, Accepted.bind_iff.2 ⟨middle, replaced, Accepted.bind_iff.2 ⟨last, completed, rfl⟩⟩⟩

theorem Sound.replaceStruct_isOk (sound : graph.Sound admits fun _ => False)
    {old : StructEntry} {schema : Schema} (member : old ∈ graph.structs)
    (fresh : ∀ entry ∈ graph.structs, entry.id ≠ old.id → entry.schema.name ≠ schema.name) :
    ∃ made, graph.replaceStruct old schema = .ok made := by
  obtain ⟨other, start⟩ := sound.pending_redeclareStruct member fresh
  have known : ((graph.redeclareStruct old.id schema).schemaAt? ⟨graph.nextDefinition⟩).isSome := by
    rw [schemaAt?, Option.isSome_map, struct?, List.find?_isSome]
    exact ⟨_, List.mem_map.2 ⟨old, member, if_pos rfl⟩, by simp⟩
  have each (id : NodeId) (rest : List NodeId) (state : Graph)
      (invariant : Pending admits (· = .construct old.id) graph.form? (id :: rest) state ∧
        (state.schemaAt? ⟨graph.nextDefinition⟩).isSome) :
      ∃ next, state.replaceConstructor old ⟨graph.nextDefinition⟩ id = .ok next ∧
        Pending admits (· = .construct old.id) graph.form? rest next ∧
        (next.schemaAt? ⟨graph.nextDefinition⟩).isSome := by
    obtain ⟨pending, known⟩ := invariant
    obtain ⟨node, -, -, detached⟩ := pending.detach?_eq
    have known' := known
    rw [← (Upkeep.detach? detached).schemaAt?] at known'
    obtain ⟨fresh, next, added⟩ := addConstructor_isOk known' node.position
    obtain ⟨last, accepted⟩ :
        ∃ last, state.replaceConstructor old ⟨graph.nextDefinition⟩ id = .ok last := by
      simp only [Graph.replaceConstructor, detached]
      exact ⟨_, Accepted.bind_iff.2 ⟨_, added, rfl⟩⟩
    rw [← (Upkeep.replaceConstructor accepted).schemaAt? _] at known
    exact ⟨_, accepted, pending.replaceConstructor other accepted, known⟩
  obtain ⟨middle, replaced⟩ := foldlM_isOk_of _
    (fun rest state => Pending admits (· = .construct old.id) graph.form? rest state ∧
      (state.schemaAt? ⟨graph.nextDefinition⟩).isSome) each ⟨start, known⟩
  obtain ⟨last, completed, -⟩ := middle.completeDefinitions_isOk
  exact ⟨_, Accepted.bind_iff.2 ⟨middle, replaced, Accepted.bind_iff.2 ⟨last, completed, rfl⟩⟩⟩

theorem restrict_eq_self {keep : Keep}
    (inputs : ∀ target input, graph.input? target = some input → ∀ wire ∈ input.wires,
      keep wire.source target = true)
    (outputs : ∀ source output, graph.output? source = some output → ∀ target ∈ output.targets,
      keep source target = true) : graph.restrict keep = graph := by
  refine ext_node? (by simp [restrict]) (fun id => ?_) rfl rfl rfl
  rw [restrict, node?_restrictEnds]
  cases hn : graph.node? id with
  | none => rfl
  | some node =>
    obtain ⟨kind, position, config, ins, outs⟩ := node
    have same : (ins.mapIdx fun slot input => input.restrict keep ⟨id, slot⟩) = ins := by
      refine List.ext_getElem? fun slot => ?_
      rw [List.getElem?_mapIdx]
      cases hi : ins[slot]? with
      | none => rfl
      | some input =>
        exact congrArg some
          (Input.restrict_eq_self (inputs ⟨id, slot⟩ input (by simp [input?, hn, hi])))
    have same' : (outs.mapIdx fun slot output => output.restrict keep ⟨id, slot⟩) = outs := by
      refine List.ext_getElem? fun slot => ?_
      rw [List.getElem?_mapIdx]
      cases ho : outs[slot]? with
      | none => rfl
      | some output =>
        exact congrArg some
          (Output.restrict_eq_self (outputs ⟨id, slot⟩ output (by simp [output?, hn, ho])))
    simp only [Option.map_some, Node.restrictEnds, same, same']

theorem Wired.unlink_eq_self (wired : graph.Wired) {source : OutputRef} {target : InputRef}
    (absent : ¬graph.Leaves source target) : graph.unlink source target = graph := by
  rw [unlink_eq_restrict]
  apply restrict_eq_self
  · intro target' input hi wire hw
    have enters : graph.Enters wire.source target' := ⟨input, hi, wire, hw, rfl⟩
    simp only [Keep.without, List.contains_cons, List.contains_nil, Bool.or_false,
      Bool.not_eq_true', beq_eq_false_iff_ne, ne_eq, Prod.mk.injEq]
    rintro ⟨rfl, rfl⟩
    exact absent ((wired.enters_iff_leaves _ _).1 enters)
  · intro source' output ho target' ht
    simp only [Keep.without, List.contains_cons, List.contains_nil, Bool.or_false,
      Bool.not_eq_true', beq_eq_false_iff_ne, ne_eq, Prod.mk.injEq]
    rintro ⟨rfl, rfl⟩
    exact absent ⟨output, ho, ht⟩

theorem Wired.disconnect_false (wired : graph.Wired) {source : OutputRef} {target : InputRef}
    (idle : (graph.disconnect source target).1 = false) :
    (graph.disconnect source target).2 = graph := by
  have absent : ¬graph.Leaves source target := by
    rintro ⟨output, ho, ht⟩
    simp [disconnect, output_eq_ok_iff.2 ho, ht] at idle
  refine Eq.trans ?_ (wired.unlink_eq_self absent)
  cases ho : graph.output source with
  | error => simp [disconnect, ho]
  | ok output =>
    have unlinked : target ∉ output.targets := fun ht => absent ⟨output, output_eq_ok_iff.1 ho, ht⟩
    simp [disconnect, ho, unlinked]

end Graph

namespace Editing

variable {α β : Type} {graph : Graph}

def Whole (editing : Editing α) (graph : Graph) : Prop :=
  ∀ error after, editing.run graph = .error error after → after = graph

theorem run_ne_error {editing : Editing α} (done : ∃ made, editing.outcome graph = .ok made)
    (error : GraphError) (after : Graph) : editing.run graph ≠ .error error after := by
  intro refused
  obtain ⟨made, done⟩ := done
  simp [outcome, refused] at done

theorem Whole.of_isOk {editing : Editing α} (done : ∃ made, editing.outcome graph = .ok made) :
    editing.Whole graph := by
  intro error after refused
  exact absurd refused (run_ne_error done error after)

theorem Whole.throw (error : GraphError) : (throw error : Editing α).Whole graph := by
  intro _ _ refused
  cases refused
  rfl

/-- What comes after a step that is whole begins in the same graph, or is never refused. -/
theorem Whole.bind {editing : Editing α} {next : α → Editing β} (first : editing.Whole graph)
    (rest : ∀ a middle, editing.outcome graph = .ok (a, middle) →
      middle = graph ∧ (next a).Whole graph ∨ ∃ made, (next a).outcome middle = .ok made) :
    (editing >>= next).Whole graph := by
  intro error after refused
  rw [EStateM.run_bind] at refused
  cases ran : editing.run graph with
  | ok a middle =>
    rw [ran] at refused
    rcases rest a middle (by rw [outcome, ran]) with ⟨rfl, whole⟩ | done
    · exact whole error after refused
    · exact absurd refused (run_ne_error done error after)
  | error reason left =>
    rw [ran] at refused
    cases refused
    exact first error after ran

/-- What is decided by a look at the graph. -/
theorem Whole.get {next : Graph → Editing α} (rest : (next graph).Whole graph) :
    (get >>= next).Whole graph := rest

/-- What comes after a check that is passed. -/
theorem Whole.check {question : Graph → Except GraphError α} {next : α → Editing β}
    (rest : ∀ a, question graph = .ok a → (next a).Whole graph) :
    (check question >>= next).Whole graph := by
  refine .bind (fun error after refused => ?_) fun a middle passed => ?_
  · simp only [Editing.check, EStateM.run_bind, EStateM.run_get] at refused
    cases asked : question graph <;> rw [asked] at refused <;> cases refused
    rfl
  · rw [outcome_check, Accepted.map_iff] at passed
    obtain ⟨a, asked, same⟩ := passed
    cases same
    exact .inl ⟨rfl, rest a asked⟩

/-- An answer that is put in other words. -/
theorem Whole.map {editing : Editing α} (whole : editing.Whole graph) (f : α → β) :
    (editing >>= fun a => pure (f a)).Whole graph := by
  refine .bind whole fun _ _ _ => ?_
  exact .inr ⟨_, rfl⟩

theorem whole_addBuiltin (registry : Registry) (id : String) (config : Json)
    (position : Position) : (addBuiltin registry id config position).Whole graph := by
  unfold addBuiltin
  cases registry.behavior? id with
  | none => exact .throw _
  | some behavior => exact .check fun _ _ => .of_isOk ⟨_, rfl⟩

theorem whole_addDefined (kind : NodeKind) (position : Position) :
    (addDefined kind position).Whole graph := by
  refine .check fun _ _ => ?_
  exact .of_isOk ⟨_, rfl⟩

theorem whole_move (id : NodeId) (position : Position) : (move id position).Whole graph := by
  refine .get ?_
  split
  · exact .throw _
  · exact .of_isOk ⟨_, rfl⟩

theorem whole_remove (id : NodeId) : (remove id).Whole graph := by
  refine .get ?_
  split
  · exact .throw _
  refine .bind (.of_isOk ⟨_, rfl⟩) fun found middle detached => ?_
  cases found with
  | some removed => exact .inr ⟨_, rfl⟩
  | none =>
    rw [outcome_detach?] at detached
    cases gone : graph.detach? id with
    | some removed => simp [gone, Host.orUnchanged] at detached
    | none =>
      rw [gone] at detached
      cases detached
      exact .inl ⟨rfl, .throw _⟩

theorem whole_connect (source : OutputRef) (target : InputRef) (relays : List Position) :
    (connect source target relays).Whole graph := by
  refine .check fun _ _ => ?_
  exact .of_isOk ⟨_, rfl⟩

theorem whole_setInset (target : InputRef) (value : Option Value) :
    (setInset target value).Whole graph := by
  refine .check fun input _ => ?_
  cases value with
  | none => exact .of_isOk ⟨_, rfl⟩
  | some value =>
    dsimp only
    split
    · exact .throw _
    · exact .of_isOk ⟨_, rfl⟩

theorem whole_declareFunction (signature : Signature) :
    (declareFunction signature).Whole graph := by
  refine .get ?_
  split
  · exact .throw _
  · exact .of_isOk ⟨_, rfl⟩

theorem whole_defineFunction (signature : Signature) (position : Position) :
    (defineFunction signature position).Whole graph := by
  cases named : graph.functionNamed? signature.name with
  | some =>
    refine .check fun _ _ => .bind (whole_declareFunction signature) fun id middle declared => ?_
    rw [outcome_declareFunction, Graph.declareFunction_eq_ok_iff] at declared
    simp [named] at declared
  | none =>
    cases checked : graph.checkMentions signature.types [] with
    | error => exact .check fun _ passed => by simp [checked] at passed
    | ok =>
      refine .of_isOk ?_
      rw [outcome_defineFunction]
      exact Graph.defineFunction_isOk position checked named

theorem whole_defineStruct (schema : Schema) (position : Position) :
    (defineStruct schema position).Whole graph := by
  cases named : graph.structNamed? schema.name with
  | some =>
    refine .get ?_
    rw [named]
    exact .throw _
  | none =>
    cases checked : graph.checkMentions (schema.fields.map Field.type) [schema.name] with
    | error =>
      refine .get ?_
      rw [named]
      exact .check fun _ passed => by simp [checked] at passed
    | ok =>
      refine .of_isOk ?_
      rw [outcome_defineStruct]
      exact Graph.defineStruct_isOk position checked named

variable {admits : Graph.Admits}

theorem whole_redefineFunction (formed : graph.WellFormed admits) (previous : FunctionId)
    (next : Signature) : (redefineFunction previous next).Whole graph := by
  refine .get ?_
  cases found : graph.function? previous with
  | none => exact .of_isOk ⟨_, rfl⟩
  | some old =>
    obtain ⟨member, rfl⟩ := formed.declared.function?_iff.1 found
    refine .get ?_
    split
    · exact .throw _
    rename_i apart
    refine .check fun _ _ => .map (.of_isOk ?_) some
    rw [outcome_replaceFunction]
    refine formed.replaceFunction_isOk member fun entry he hne same => apart ?_
    rw [List.any_eq_true]
    exact ⟨entry, he, by simp [hne, same]⟩

theorem whole_redefineStruct (formed : graph.WellFormed admits) (previous : StructId)
    (next : Schema) : (redefineStruct previous next).Whole graph := by
  refine .get ?_
  cases found : graph.struct? previous with
  | none => exact .of_isOk ⟨_, rfl⟩
  | some old =>
    obtain ⟨member, rfl⟩ := formed.declared.struct?_iff.1 found
    refine .get ?_
    split
    · exact .throw _
    rename_i apart
    refine .check fun _ _ => .map (.of_isOk ?_) some
    rw [outcome_replaceStruct]
    refine formed.replaceStruct_isOk member fun entry he hne same => apart ?_
    rw [List.any_eq_true]
    exact ⟨entry, he, by simp [hne, same]⟩

end Editing

namespace Edit

variable {registry : Registry} {admits : Graph.Admits} {graph : Graph}

/-- An edit that is refused leaves the graph as it was. -/
theorem whole (formed : graph.WellFormed admits) (registry : Registry) (edit : Edit) :
    (edit.perform registry).Whole graph := by
  cases edit with
  | addBuiltin => exact .map (Editing.whole_addBuiltin _ _ _ _) _
  | addCall => exact .map (Editing.whole_addDefined _ _) _
  | addConstructor => exact .map (Editing.whole_addDefined _ _) _
  | move => exact .map (Editing.whole_move _ _) _
  | remove => exact .map (Editing.whole_remove _) _
  | connect => exact .map (Editing.whole_connect _ _ _) _
  | disconnect => exact .of_isOk ⟨_, rfl⟩
  | setInset => exact .map (Editing.whole_setInset _ _) _
  | defineFunction => exact .map (Editing.whole_defineFunction _ _) _
  | defineStruct => exact .map (Editing.whole_defineStruct _ _) _
  | redefineFunction => exact .map (Editing.whole_redefineFunction formed _ _) _
  | redefineStruct => exact .map (Editing.whole_redefineStruct formed _ _) _
  | removeFunction => exact .of_isOk ⟨_, rfl⟩
  | removeStruct => exact .of_isOk ⟨_, rfl⟩

private theorem orUnchanged_idle {α : Type} {changed : Except GraphError (Option (α × Graph))}
    {after : Graph} (performed : (changed.map (Host.orUnchanged graph) >>= fun made =>
      (pure made.1.isSome : Editing Bool).outcome made.2) = .ok (false, after)) :
        after = graph := by
  obtain ⟨made, mapped, answer⟩ := Accepted.bind_iff.1 performed
  obtain ⟨change, -, rfl⟩ := Accepted.map_iff.1 mapped
  cases change with
  | some => simp [Host.orUnchanged] at answer
  | none =>
    cases answer
    rfl

/-- An edit that finds nothing to change leaves the graph as it was. -/
theorem idle (formed : graph.WellFormed admits) {edit : Edit} {after : Graph}
    (performed : (edit.perform registry).outcome graph = .ok (false, after)) : after = graph := by
  cases edit <;> simp only [perform, outcome_certain, Accepted.map_iff, Prod.mk.injEq,
    Bool.true_eq_false, false_and, and_false, exists_false] at performed
  case disconnect =>
    rw [Editing.outcome_disconnect, Except.ok.injEq] at performed
    obtain rfl : _ = after := congrArg Prod.snd performed
    exact formed.wired.disconnect_false (congrArg Prod.fst performed)
  case redefineFunction f signature =>
    rw [Editing.outcome_bind, Editing.outcome_redefineFunction] at performed
    exact orUnchanged_idle performed
  case redefineStruct s schema =>
    rw [Editing.outcome_bind, Editing.outcome_redefineStruct] at performed
    exact orUnchanged_idle performed
  case removeFunction f =>
    obtain performed : graph.removeFunction f = (false, after) := Except.ok.inj performed
    unfold Graph.removeFunction at performed
    split at performed <;> simp_all
  case removeStruct s =>
    obtain performed : graph.removeStruct s = (false, after) := Except.ok.inj performed
    unfold Graph.removeStruct at performed
    split at performed <;> simp_all

end Edit

end NodeScript
