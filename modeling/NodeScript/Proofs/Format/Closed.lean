import Mathlib
import NodeScript.Proofs.Format.Authored
import NodeScript.Proofs.Format.Older
import NodeScript.Proofs.Format.Reread
import NodeScript.Proofs.Graph.Closed

/-!
Structs of authored graphs. A file declares each struct behind those that it mentions, so that a
loaded graph is in order whatever nodes it has; what edits of unused definitions make of it can
always be written, but for structs with too many fields. Main statement:
`Graph.Authored.structs_in_order`.
-/

set_option autoImplicit false
set_option relaxedAutoImplicit false

namespace NodeScript

open Format NodeScript.Graph Schema

variable {registry : Registry} {graph next : Graph}

namespace Format

theorem Assembled.ordered (assembled : Assembled registry graph) : Ordered [] graph.schemas := by
  induction assembled with
  | empty => trivial
  | struct _ _ known _ _ ih =>
    rw [schemas_withStruct]
    exact ih.concat fun field hf => (known field hf).isNamed
  | function _ _ _ _ ih => exact ih
  | node _ _ ih => exact ih
  | literal _ accepted _ ih =>
    obtain ⟨-, -, -, rfl⟩ := setInset_eq_ok accepted
    exact ih
  | wire relays _ _ ih =>
    rw [(Still.link _ _ _ relays _).upkeep.schemas]
    exact ih

theorem Assembled.unlooped (assembled : Assembled registry graph) : Unlooped graph.schemas := by
  induction assembled with
  | empty => exact unlooped_nil
  | @struct graph schema before fresh known _ _ ih =>
    have absent : schema.name ∉ graph.schemas.map (·.name) := by
      rw [schemas, List.map_map]
      simpa [structNamed?] using fresh
    have named : schema.FieldsNamed (graph.schemas.map (·.name)) := fun field hf =>
      (known field hf).isNamed
    exact unlooped_withStruct ih fun name mentions =>
      before.ordered.unreached absent (fieldsNamed_iff.1 named name mentions)
  | function _ _ _ _ ih => exact ih
  | node _ _ ih => exact ih
  | literal _ accepted _ ih =>
    obtain ⟨-, -, -, rfl⟩ := setInset_eq_ok accepted
    exact ih
  | wire relays _ _ ih =>
    rw [(Still.link _ _ _ relays _).upkeep.schemas]
    exact ih

theorem Assembled.closed (drawn : registry.Drawn) (assembled : Assembled registry graph) :
    graph.Closed := by
  induction assembled with
  | empty => exact closed_empty
  | struct _ _ known _ _ ih => exact ih.withStruct fun field hf => (known field hf).isNamed
  | function _ _ known _ ih => exact ih.withFunction fun type ht => (known type ht).isNamed
  | node _ placeable ih =>
    obtain ⟨kind, config, ports, position, rfl, fits, -⟩ := placeable
    exact ih.push drawn position fits
  | literal _ accepted _ ih =>
    obtain ⟨-, -, -, rfl⟩ := setInset_eq_ok accepted
    refine ih.upkeep (Still.upkeep ?_)
    apply Still.modifyInput
    intro _
    rfl
  | wire relays _ _ ih => exact ih.upkeep (Still.link ..).upkeep

end Format

namespace Graph

theorem structOrderFault?_eq_none_iff {names : List String} {entries : List StructEntry} :
    structOrderFault? names entries = none ↔ Ordered names (entries.map (·.schema)) := by
  induction entries generalizing names with
  | nil => exact iff_of_true rfl trivial
  | cons entry rest ih =>
    rw [structOrderFault?_cons_eq_none_iff, List.map_cons, Ordered, ← ih, List.forall_mem_map]
    rfl

theorem WellFormed.nameOf?_isSome {admits : Admits} (formed : graph.WellFormed admits)
    {id : NodeId} {node : Node} (found : graph.node? id = some node) :
    (graph.nameOf? node.kind).isSome := by
  have mirrors : graph.Mirrors node.ports node.kind :=
    formed.mirrors (form?_eq_of_node? found)
  have ofFunction {f : FunctionId} {entry : FunctionEntry} (he : entry ∈ graph.functions)
      (same : entry.id = f) : ((graph.function? f).map (·.signature.name)).isSome := by
    rw [formed.declared.function?_iff.2 ⟨he, same⟩]
    rfl
  cases kind : node.kind with
  | builtin type => rfl
  | call f | functionInput f | functionOutput f =>
    rw [kind] at mirrors
    obtain ⟨entry, he, same, -⟩ := mirrors
    exact ofFunction he same
  | construct s =>
    rw [kind] at mirrors
    obtain ⟨entry, he, same, -⟩ := mirrors
    rw [nameOf?, formed.declared.struct?_iff.2 ⟨he, same⟩]
    rfl

theorem WellFormed.records_isOk {admits : Admits} (formed : graph.WellFormed admits)
    (registry : Registry) (version : Int32) :
    ∃ records, graph.records registry version = .ok records := by
  refine Accepted.mapM_isOk fun entry live => ?_
  obtain ⟨name, named⟩ :=
    Option.isSome_iff_exists.1 (formed.nameOf?_isSome (mem_live.1 live))
  exact ⟨_, record_eq_ok_iff.2 (by rw [record?, named, Option.map_some])⟩

theorem WellFormed.encode_eq_error_iff {admits : Admits} (formed : graph.WellFormed admits)
    (registry : Registry) (version : Int32) (reason : FileError) :
    graph.encode registry version = .error reason ↔
      ∃ fault, graph.fault? version = some fault ∧ reason = .unrepresentable version fault := by
  cases fault : graph.fault? version with
  | none =>
    obtain ⟨records, recorded⟩ := formed.records_isOk registry version
    rw [encode_eq_file_iff.2 ⟨fault, records, recorded, rfl⟩]
    simp
  | some fault' =>
    simp [encode, fault, throw, throwThe, MonadExceptOf.throw, bind, Except.bind, eq_comm]

theorem Closed.definitionFault?_eq (closed : graph.Closed) (ordered : Ordered [] graph.schemas) :
    graph.definitionFault? = (graph.structs.find? (255 < ·.schema.fields.length)).map fun entry =>
      s!"struct {entry.schema.name} has too many fields" := by
  have order : structOrderFault? [] graph.structs = none := structOrderFault?_eq_none_iff.2 ordered
  have functions : graph.functionFault? = none := functionFault?_eq_none_iff.2 closed.parameters
  rw [definitionFault?, order, functions]
  cases graph.structs.find? (255 < ·.schema.fields.length) <;> rfl

theorem Closed.encode_eq_error_iff {admits : Admits} (closed : graph.Closed)
    (formed : graph.WellFormed admits) (ordered : Ordered [] graph.schemas) (registry : Registry)
    (reason : FileError) : graph.encode registry current = .error reason ↔
      ∃ entry, graph.structs.find? (255 < ·.schema.fields.length) = some entry ∧
        reason = .unrepresentable current s!"struct {entry.schema.name} has too many fields" := by
  rw [formed.encode_eq_error_iff, fault?_current, closed.definitionFault?_eq ordered]
  simp

variable {catalogs : Registry → Prop} {allowed : Graph → Edit → Prop}

theorem Authored.unlooped (authored : graph.Authored catalogs allowed) :
    Unlooped graph.schemas := by
  induction authored with
  | first begins =>
    rcases begins with rfl | ⟨registry, steps, file, loaded, -, decoded, rfl⟩
    · exact unlooped_nil
    · obtain ⟨parts, assembled, completed⟩ := assembled_of_decodeWith decoded
      rw [(Upkeep.completeDefinitions completed).schemas]
      exact assembled.unlooped
  | step before made ih =>
    obtain ⟨registry, edit, -, -, accepted⟩ := made
    exact Edit.unlooped (Authored.wellFormed before).declared ih accepted

theorem Authored.closed (drawn : ∀ registry, catalogs registry → registry.Drawn)
    (guards : ∀ graph edit, allowed graph edit → edit.IsGuarded graph)
    (authored : graph.Authored catalogs allowed) :
    graph.Closed ∧ Ordered [] graph.schemas := by
  induction authored with
  | first begins =>
    rcases begins with rfl | ⟨registry, steps, file, loaded, catalog, decoded, rfl⟩
    · exact ⟨closed_empty, trivial⟩
    · obtain ⟨parts, assembled, completed⟩ := assembled_of_decodeWith decoded
      have up := Upkeep.completeDefinitions completed
      rw [up.schemas]
      exact ⟨(assembled.closed (drawn _ catalog)).upkeep up, assembled.ordered⟩
  | step before made ih =>
    obtain ⟨registry, edit, catalog, allows, accepted⟩ := made
    have guarded := guards _ _ allows
    have formed := Authored.wellFormed before
    exact ⟨Edit.closed (drawn _ catalog) formed ih.1 guarded accepted,
      Edit.ordered formed ih.1 (Authored.unlooped before) ih.2 guarded accepted⟩

/-- What is mentioned is declared, structs stand behind those that they mention, and a graph can be
written unless a struct has too many fields. -/
structure StructsInOrder (graph : Graph) : Prop where
  earlier : ∀ before schema after, graph.schemas = before ++ schema :: after →
    schema.FieldsNamed (before.map (·.name))
  parameters : ∀ entry ∈ graph.functions, ∀ type ∈ entry.signature.types,
    type.IsNamed (graph.schemas.map (·.name))
  ports : ∀ id node, graph.node? id = some node →
    ∀ port ∈ node.ports.inputs ++ node.ports.outputs, port.type.IsNamed (graph.schemas.map (·.name))
  refused : ∀ registry reason, graph.encode registry current = .error reason ↔
    ∃ entry, graph.structs.find? (255 < ·.schema.fields.length) = some entry ∧
      reason = .unrepresentable current s!"struct {entry.schema.name} has too many fields"

/-- No struct of an authored graph leads back to itself, whatever definitions were changed. While
only definitions that are not in use are changed and removed, what is mentioned is declared,
structs are in order, and only the number of fields keeps the graph from being written. -/
theorem Authored.structs_in_order (authored : graph.Authored catalogs allowed) :
    Unlooped graph.schemas ∧
      ((∀ registry, catalogs registry → registry.Drawn) →
        (∀ graph edit, allowed graph edit → edit.IsGuarded graph) → graph.StructsInOrder) := by
  refine ⟨authored.unlooped, fun drawn guards => ?_⟩
  have formed := authored.wellFormed
  obtain ⟨closed, ordered⟩ := authored.closed drawn guards
  exact {
    earlier := fun _ _ _ here => ordered.earlier here
    parameters := closed.parameters
    ports := fun _ _ found _ hp => closed.ports formed (form?_eq_of_node? found) hp
    refused := closed.encode_eq_error_iff formed ordered }

end Graph

def Edit.sketching : List Edit := [
  .defineStruct { name := "Mark", fields := [("label", .text)] } .zero,
  .defineStruct { name := "Point", fields := [("x", .number), ("y", .number)] } .zero]

def Edit.placing : Edit := .redefineStruct ⟨0⟩
  { name := "Mark", fields := [("at", .list (.struct "Point" [("x", .number), ("y", .number)]))] }

theorem placing_structs_in_order : ∃ graph next,
    Edit.sketching.foldlM (Edit.apply Registry.builtin) .empty = .ok graph ∧
      graph.schemas.map (·.name) = ["Mark", "Point"] ∧ Edit.placing.IsGuarded graph ∧
      Edit.placing.apply Registry.builtin graph = .ok next ∧
      next.schemas.map (·.name) = ["Point", "Mark"] ∧ Unlooped next.schemas ∧
      next.StructsInOrder := by
  have facts : (Edit.sketching.foldlM (Edit.apply Registry.builtin) .empty).toOption.map
      (fun graph => (graph.schemas.map (·.name), graph.structInUse ⟨0⟩,
        (Edit.placing.apply Registry.builtin graph).toOption.map (·.schemas.map (·.name)))) =
      some (["Mark", "Point"], false, some ["Point", "Mark"]) := by cbv
  obtain ⟨graph, built, facts⟩ := Option.map_eq_some_iff.1 facts
  simp only [Prod.mk.injEq, Option.map_eq_some_iff] at facts
  obtain ⟨first, unused, next, changed, second⟩ := facts
  have built := Accepted.toOption_eq_some_iff.1 built
  have changed := Accepted.toOption_eq_some_iff.1 changed
  have reached : Reached (· = .empty)
      (Edit.Leads (· = Registry.builtin) fun graph edit => edit.IsGuarded graph) graph := by
    refine Reached.foldlM rfl (.first rfl) (fun edit he graph => ?_) built
    simp only [Edit.sketching, List.mem_cons, List.not_mem_nil, or_false] at he
    rcases he with rfl | rfl <;> trivial
  have guarded : Edit.placing.IsGuarded graph := unused
  have authored : next.Authored (· = Registry.builtin) (fun graph edit => edit.IsGuarded graph) :=
    .of_reached (reached.edit rfl guarded changed)
  have inOrder := authored.structs_in_order
  exact ⟨graph, next, built, first, guarded, changed, second, inOrder.1,
    inOrder.2 (fun _ same => by rw [same]; exact Registry.builtin_drawn) fun _ _ guarded => guarded⟩

end NodeScript
