import NodeScript.Proofs.Graph.Effect

/-!
Addresses are never given twice. New nodes get places behind all others, empty places stay empty,
and the numbers of definitions go up. Main statement: `Edited.lasting`.
-/

set_option autoImplicit false
set_option relaxedAutoImplicit false

namespace NodeScript

open NodeScript.Graph

/-- One graph comes of the other by edits that are accepted, each with a catalog of its own. -/
def Edited (catalogs : Registry → Prop) (graph : Graph) : Graph → Prop :=
  Reached (· = graph) (Edit.Leads catalogs fun _ _ => True)

namespace Graph

/-- What is gone stays gone, and no address is given again. -/
structure Lasting (graph next : Graph) : Prop where
  size : graph.arena.size ≤ next.arena.size
  gone : ∀ id, id.index < graph.arena.size → graph.form? id = none → next.form? id = none
  nextDefinition : graph.nextDefinition ≤ next.nextDefinition

variable {graph next : Graph} {id : NodeId}

theorem Lasting.refl (graph : Graph) : graph.Lasting graph := by
  refine ⟨Nat.le_refl _, ?_, Nat.le_refl _⟩
  intro _ _ gone
  exact gone

theorem Lasting.trans {last : Graph} (first : graph.Lasting next) (second : next.Lasting last) :
    graph.Lasting last where
  size := Nat.le_trans first.size second.size
  gone id old gone :=
    second.gone id (Nat.lt_of_lt_of_le old first.size) (first.gone id old gone)
  nextDefinition := Nat.le_trans first.nextDefinition second.nextDefinition

theorem Lasting.of_arena (same : next.arena = graph.arena)
    (later : graph.nextDefinition ≤ next.nextDefinition) : graph.Lasting next where
  size := Nat.le_of_eq (congrArg Array.size same.symm)
  gone id _ gone := by rwa [form?, node?, same]
  nextDefinition := later

theorem Still.lasting (still : graph.Still next) : graph.Lasting next where
  size := Nat.le_of_eq still.size.symm
  gone id _ gone := (still.forms id).trans gone
  nextDefinition := Nat.le_of_eq still.nextDefinition.symm

theorem Lasting.push (graph : Graph) (node : Node) : graph.Lasting (graph.push node).2 where
  size := by simp [Graph.push]
  gone id old gone := by
    rw [form?_push, if_neg, gone]
    rintro rfl
    exact Nat.lt_irrefl _ old
  nextDefinition := Nat.le_refl _

theorem Lasting.clear (graph : Graph) (id : NodeId) : graph.Lasting (graph.clear id) where
  size := by simp
  gone other _ gone := by rw [form?_clear, gone, ite_self]
  nextDefinition := Nat.le_refl _

theorem Lasting.addDefined {kind : NodeKind} {position : Position}
    (added : graph.addDefined kind position = .ok (id, next)) : graph.Lasting next := by
  obtain ⟨ports, -, -, rfl⟩ := addDefined_eq_ok_iff.1 added
  exact .push graph _

theorem Lasting.detach? {node : Node} (detached : graph.detach? id = some (node, next)) :
    graph.Lasting next := by
  exact (Lasting.clear graph id).trans (Still.detach? detached).lasting

theorem Lasting.detach (graph : Graph) (id : NodeId) : graph.Lasting (graph.detach id) := by
  unfold Graph.detach
  split
  · exact .detach? ‹_›
  · exact .refl graph

theorem Lasting.foldl_detach (ids : List NodeId) (graph : Graph) :
    graph.Lasting (ids.foldl Graph.detach graph) := by
  induction ids generalizing graph with
  | nil => exact .refl graph
  | cons id ids ih => exact (Lasting.detach graph id).trans (ih _)

theorem Lasting.completeDefinitions (completed : graph.completeDefinitions = .ok next) :
    graph.Lasting next :=
  completeDefinitions_keeps (motive := graph.Lasting)
    (fun lasting added => lasting.trans (.addDefined added))
    (fun _ _ lasting => lasting.trans (.of_arena rfl (Nat.le_refl _)))
    (fun _ _ lasting => lasting.trans (.of_arena rfl (Nat.le_refl _))) (.refl graph) completed

theorem Lasting.replaceBound {old : FunctionEntry} {f : FunctionId}
    (accepted : graph.replaceBound old f id = .ok next) : graph.Lasting next := by
  unfold Graph.replaceBound at accepted
  split at accepted
  · obtain rfl := Except.ok.inj accepted
    exact .refl graph
  · obtain ⟨⟨fresh, middle⟩, added, changed⟩ := Accepted.bind_iff.1 accepted
    obtain rfl := Except.ok.inj changed
    exact ((Lasting.detach? ‹_›).trans (.addDefined added)).trans (.of_arena rfl (Nat.le_refl _))

theorem Lasting.replaceConstructor {old : StructEntry} {s : StructId}
    (accepted : graph.replaceConstructor old s id = .ok next) : graph.Lasting next := by
  unfold Graph.replaceConstructor at accepted
  split at accepted
  · obtain rfl := Except.ok.inj accepted
    exact .refl graph
  · obtain ⟨⟨fresh, middle⟩, added, changed⟩ := Accepted.bind_iff.1 accepted
    obtain rfl := Except.ok.inj changed
    exact ((Lasting.detach? ‹_›).trans (.addDefined added)).trans (.of_arena rfl (Nat.le_refl _))

theorem Lasting.foldlM {α : Type} {step : Graph → α → Except GraphError Graph}
    (each : ∀ graph a next, step graph a = .ok next → graph.Lasting next) {items : List α}
    (accepted : items.foldlM step graph = .ok next) : graph.Lasting next :=
  Accepted.foldlM (fun _ state => graph.Lasting state)
    (fun a _ state next lasting accepted => lasting.trans (each state a next accepted))
    (.refl graph) accepted

end Graph

/-- An accepted edit gives no address again. -/
theorem Edit.Effect.lasting {registry : Registry} {graph next : Graph} {edit : Edit}
    (effect : edit.Effect registry graph next) : graph.Lasting next := by
  cases effect with
  | still same => exact same.lasting
  | builtin _ _ => exact .push graph _
  | called added => exact .addDefined added
  | constructed added => exact .addDefined added
  | removed _ detached => exact .detach? detached
  | @definedFunction signature _ _ _ accepted =>
    obtain ⟨input, first, output, second, -, -, rfl, hinput, houtput, rfl⟩ :=
      defineFunction_eq_ok accepted
    have declared : graph.Lasting (graph.withFunction signature) := .of_arena rfl (Nat.le_succ _)
    exact ((declared.trans (.addDefined hinput)).trans (.addDefined houtput)).trans
      (.of_arena rfl (Nat.le_refl _))
  | @definedStruct schema _ _ _ accepted =>
    obtain ⟨boundary, first, -, -, rfl, hnode, rfl⟩ := defineStruct_eq_ok accepted
    have declared : graph.Lasting (graph.withStruct schema) := .of_arena rfl (Nat.le_succ _)
    exact (declared.trans (.addDefined hnode)).trans (.of_arena rfl (Nat.le_refl _))
  | @redefinedFunction previous _ signature _ accepted =>
    obtain ⟨old, middle, -, rfl, -, -, replaced, completed⟩ := redefineFunction_eq_some accepted
    have declared : graph.Lasting (graph.redeclareFunction previous signature) :=
      .of_arena rfl (Nat.le_succ _)
    exact (declared.trans (.foldlM (fun _ _ _ => .replaceBound) replaced)).trans
      (.completeDefinitions completed)
  | @redefinedStruct previous _ schema _ accepted =>
    obtain ⟨old, middle, last, -, rfl, -, -, replaced, completed, rfl⟩ :=
      redefineStruct_eq_some accepted
    have declared : graph.Lasting (graph.redeclareStruct previous schema) :=
      .of_arena rfl (Nat.le_succ _)
    have ordered : last.Lasting { last with structs := inOrder last.structs } :=
      .of_arena rfl (Nat.le_refl _)
    exact ((declared.trans (.foldlM (fun _ _ _ => .replaceConstructor) replaced)).trans
      (.completeDefinitions completed)).trans ordered
  | @removedFunction f =>
    unfold Graph.removeFunction
    split
    · exact .refl graph
    · have without : graph.Lasting (graph.withoutFunction f) := .of_arena rfl (Nat.le_refl _)
      exact without.trans (.foldl_detach _ _)
  | @removedStruct s =>
    unfold Graph.removeStruct
    split
    · exact .refl graph
    · have without : graph.Lasting (graph.withoutStruct s) := .of_arena rfl (Nat.le_refl _)
      exact without.trans (.foldl_detach _ _)

/-- Edits give no address again, however many there are. -/
theorem Edited.lasting {catalogs : Registry → Prop} {graph next : Graph}
    (edited : Edited catalogs graph next) : graph.Lasting next := by
  induction edited with
  | first same =>
    rw [same]
    exact .refl graph
  | step _ made ih =>
    obtain ⟨registry, edit, -, -, accepted⟩ := made
    exact ih.trans (Edit.effect accepted).lasting

/-- A node that is gone does not come back. -/
theorem Edited.gone {catalogs : Registry → Prop} {first graph next : Graph} {id : NodeId}
    (before : Edited catalogs first graph) (after : Edited catalogs graph next)
    (here : (first.node? id).isSome) (gone : graph.node? id = none) : next.node? id = none := by
  obtain ⟨node, found⟩ := Option.isSome_iff_exists.1 here
  have old := Nat.lt_of_lt_of_le (index_lt_of_node? found) before.lasting.size
  have formless (graph : Graph) : graph.form? id = none ↔ graph.node? id = none := by
    rw [form?, Option.map_eq_none_iff]
  exact (formless next).1 (after.lasting.gone id old ((formless graph).2 gone))

end NodeScript
