import NodeScript.Proofs.Graph.Ordered
import NodeScript.Proofs.Graph.Settled

/-!
Graphs that mention no structs but declared ones. Only a definition that is in use can leave a
mention without its struct. Main statements: edits that change or remove only definitions that are
not in use keep a graph closed (`Edit.closed`) and its structs in order (`Edit.ordered`).
-/

set_option autoImplicit false
set_option relaxedAutoImplicit false

namespace NodeScript

open Schema

namespace Graph

/-- Definitions and nodes of registered types hold only structs that are declared. -/
structure Closed (graph : Graph) : Prop where
  fields : ∀ schema ∈ graph.schemas, schema.FieldsNamed (graph.schemas.map (·.name))
  parameters : ∀ entry ∈ graph.functions, ∀ type ∈ entry.signature.types,
    type.IsNamed (graph.schemas.map (·.name))
  builtins : ∀ id form type, graph.form? id = some form → form.kind = .builtin type →
    ∀ port ∈ form.ports.inputs ++ form.ports.outputs, port.type.IsNamed (graph.schemas.map (·.name))

variable {registry : Registry} {admits : Admits} {graph next : Graph}

theorem mem_names {entry : StructEntry} (member : entry ∈ graph.structs) :
    entry.schema.name ∈ graph.schemas.map (·.name) :=
  List.mem_map_of_mem (List.mem_map_of_mem member)

theorem closed_empty : empty.Closed where
  fields schema h := by simp [schemas, empty] at h
  parameters entry h := by simp [empty] at h
  builtins id form type h := by simp [form?, node?, empty] at h

/-- The ports of all nodes hold only structs that are declared. -/
theorem Closed.ports (closed : graph.Closed) (formed : graph.WellFormed admits) {id : NodeId}
    {form : Form} (found : graph.form? id = some form) {port : Port}
    (hp : port ∈ form.ports.inputs ++ form.ports.outputs) :
    port.type.IsNamed (graph.schemas.map (·.name)) := by
  have ofSignature {entry : FunctionEntry} (he : entry ∈ graph.functions)
      (hp : port ∈ (entry.signature.inputs ++ entry.signature.outputs).map Port.ofField) :
      port.type.IsNamed (graph.schemas.map (·.name)) := by
    obtain ⟨field, hf, rfl⟩ := List.mem_map.1 hp
    exact closed.parameters entry he _ (List.mem_map_of_mem hf)
  have mirrors := formed.mirrors found
  cases kind : form.kind with
  | builtin type => exact closed.builtins id form type found kind port hp
  | call f =>
    rw [kind] at mirrors
    obtain ⟨entry, he, -, same⟩ := mirrors
    rw [same] at hp
    exact ofSignature he (by rwa [List.map_append])
  | functionInput f =>
    rw [kind] at mirrors
    obtain ⟨entry, he, -, same⟩ := mirrors
    rw [same] at hp
    exact ofSignature he (by rw [List.map_append]; exact List.mem_append_left _ hp)
  | functionOutput f =>
    rw [kind] at mirrors
    obtain ⟨entry, he, -, same⟩ := mirrors
    rw [same, Signature.outputPorts, List.append_nil] at hp
    exact ofSignature he (by rw [List.map_append]; exact List.mem_append_right _ hp)
  | construct s =>
    rw [kind] at mirrors
    obtain ⟨entry, he, -, same⟩ := mirrors
    rw [same] at hp
    rcases List.mem_append.1 hp with hp | hp
    · obtain ⟨field, hf, rfl⟩ := List.mem_map.1 hp
      exact closed.fields _ (List.mem_map_of_mem he) field hf
    · obtain rfl := List.mem_singleton.1 hp
      rintro _ ⟨⟩
      exact mem_names he

theorem Closed.upkeep (closed : graph.Closed) (same : graph.Upkeep next) : next.Closed where
  fields := by
    rw [same.schemas]
    exact closed.fields
  parameters entry he := by
    obtain ⟨old, hold, -, signature⟩ := same.function_mem he
    rw [same.schemas, ← signature]
    exact closed.parameters old hold
  builtins id form type found kind := by
    rw [same.schemas]
    exact closed.builtins id form type (same.builtins id form type found kind) kind

theorem Closed.push (closed : graph.Closed) (drawn : registry.Drawn) {kind : NodeKind}
    {config : Json} {ports : Ports} (position : Position)
    (fits : graph.Fits (registry.DeclaresIn graph.schemas) ⟨kind, config, ports⟩) :
    (graph.push (.ofPorts kind config ports position)).2.Closed where
  fields := closed.fields
  parameters := closed.parameters
  builtins id form type found builtin := by
    rw [form?_push] at found
    split at found
    · rw [Option.some.injEq, Node.form_ofPorts] at found
      subst found
      obtain rfl : kind = .builtin type := builtin
      obtain ⟨behavior, registered, declared⟩ := fits
      exact drawn _ _ registered closed.fields declared
    · exact closed.builtins id form type found builtin

theorem Closed.withFunction (closed : graph.Closed) {signature : Signature}
    (named : ∀ type ∈ signature.types, type.IsNamed (graph.schemas.map (·.name))) :
    (graph.withFunction signature).Closed where
  fields := closed.fields
  parameters entry he := by
    rcases mem_withFunction.1 he with he | rfl
    · exact closed.parameters entry he
    · exact named
  builtins := closed.builtins

theorem Closed.redeclareFunction (closed : graph.Closed) {previous : FunctionId}
    {signature : Signature}
    (named : ∀ type ∈ signature.types, type.IsNamed (graph.schemas.map (·.name))) :
    (graph.redeclareFunction previous signature).Closed where
  fields := closed.fields
  parameters entry he := by
    rcases mem_redeclareFunction he with rfl | ⟨he, -⟩
    · exact named
    · exact closed.parameters entry he
  builtins := closed.builtins

theorem Closed.withoutFunction (closed : graph.Closed) (f : FunctionId) :
    (graph.withoutFunction f).Closed where
  fields := closed.fields
  parameters entry he := closed.parameters entry (mem_withoutFunction.1 he).1
  builtins := closed.builtins

def Holds (graph : Graph) (name : String) : Prop :=
  (∃ entry ∈ graph.functions, entry.signature.mentions name = true) ∨
    ∃ id form type, graph.form? id = some form ∧ form.kind = .builtin type ∧
      form.ports.mentions name = true

theorem Closed.of_structs (closed : graph.Closed) (functions : next.functions = graph.functions)
    (forms : ∀ id, next.form? id = graph.form? id)
    (fields : ∀ schema ∈ next.schemas, schema.FieldsNamed (next.schemas.map (·.name)))
    (stays : ∀ name ∈ graph.schemas.map (·.name), graph.Holds name →
      name ∈ next.schemas.map (·.name)) : next.Closed where
  fields := fields
  parameters entry he type ht := by
    rw [functions] at he
    refine (closed.parameters entry he type ht).imp fun name member mentions => ?_
    exact stays name member (.inl ⟨entry, he, List.any_eq_true.2 ⟨type, ht, mentions⟩⟩)
  builtins id form type found kind port hp := by
    rw [forms] at found
    refine (closed.builtins id form type found kind port hp).imp fun name member mentions => ?_
    exact stays name member
      (.inr ⟨id, form, type, found, kind, List.any_eq_true.2 ⟨port, hp, mentions⟩⟩)

theorem Closed.withStruct (closed : graph.Closed) {schema : Schema}
    (named : schema.FieldsNamed (graph.schemas.map (·.name))) :
    (graph.withStruct schema).Closed := by
  have more : ∀ name ∈ graph.schemas.map (·.name),
      name ∈ (graph.withStruct schema).schemas.map (·.name) := fun name member => by
    rw [schemas_withStruct, List.map_append]
    exact List.mem_append_left _ member
  refine closed.of_structs rfl (fun _ => rfl) (fun holder hholder => ?_) fun name member _ =>
    more name member
  rw [schemas_withStruct, List.mem_append, List.mem_singleton] at hholder
  rcases hholder with hholder | rfl
  · exact (closed.fields holder hholder).mono more
  · exact named.mono more

theorem Closed.structs_perm (closed : graph.Closed) {structs : List StructEntry}
    (perm : structs.Perm graph.structs) : ({ graph with structs } : Graph).Closed := by
  have more : ∀ name ∈ graph.schemas.map (·.name),
      name ∈ ({ graph with structs } : Graph).schemas.map (·.name) := fun name =>
    ((perm.map _).map _).mem_iff.2
  refine closed.of_structs rfl (fun _ => rfl) (fun holder hholder => ?_) fun name member _ =>
    more name member
  exact (closed.fields holder ((perm.map _).mem_iff.1 hholder)).mono more

theorem not_holds {s : StructId} {name : String} (unused : ¬graph.StructUsed s name) :
    ¬graph.Holds name := by
  obtain ⟨notPorts, rest⟩ := not_or.1 unused
  obtain ⟨-, rest⟩ := not_or.1 rest
  rintro (holds | ⟨id, form, type, found, kind, holds⟩)
  · exact rest (.inl holds)
  · exact notPorts ⟨id, form, found, by simp [kind], holds⟩

theorem not_mentions {s : StructId} {name : String} (unused : ¬graph.StructUsed s name)
    {other : StructEntry} (member : other ∈ graph.structs) (apart : other.id ≠ s) :
    ¬other.schema.Mentions name := by
  rintro ⟨field, hf, mentions⟩
  exact unused (.inr (.inr (.inr
    ⟨other, member, apart, List.any_eq_true.2 ⟨field, hf, mentions⟩⟩)))

theorem Closed.of_unused (closed : graph.Closed) (formed : graph.WellFormed admits)
    {old : StructEntry} (member : old ∈ graph.structs)
    (unused : ¬graph.StructUsed old.id old.schema.name)
    (functions : next.functions = graph.functions)
    (forms : ∀ id, next.form? id = graph.form? id)
    (others : ∀ entry ∈ graph.structs, entry.id ≠ old.id → entry ∈ next.structs)
    (fields : ∀ entry ∈ next.structs, entry ∈ graph.structs ∧ entry.id ≠ old.id ∨
      ∀ name, entry.schema.Mentions name →
        name ∈ graph.schemas.map (·.name) ∧ name ≠ old.schema.name) : next.Closed := by
  have stays {name : String} (here : name ∈ graph.schemas.map (·.name))
      (other : name ≠ old.schema.name) : name ∈ next.schemas.map (·.name) := by
    obtain ⟨_, hs, rfl⟩ := List.mem_map.1 here
    obtain ⟨entry, he, rfl⟩ := List.mem_map.1 hs
    exact mem_names (others entry he (mt (formed.declared.structName_eq_iff he member).2 other))
  refine closed.of_structs functions forms (fun holder hholder => ?_) fun name here holds => ?_
  rotate_left
  · refine stays here fun same => ?_
    subst same
    exact not_holds unused holds
  obtain ⟨entry, he, rfl⟩ := List.mem_map.1 hholder
  refine fieldsNamed_iff.2 fun name mentions => ?_
  rcases fields entry he with ⟨he, apart⟩ | given
  · have here := fieldsNamed_iff.1 (closed.fields _ (List.mem_map_of_mem he)) name mentions
    refine stays here fun same => ?_
    subst same
    exact not_mentions unused he apart mentions
  · exact stays (given name mentions).1 (given name mentions).2

theorem Closed.redeclareStruct (closed : graph.Closed) (formed : graph.WellFormed admits)
    {previous : StructId} {schema : Schema} {old : StructEntry}
    (found : graph.struct? previous = some old) (unused : graph.structInUse previous = false)
    (checked : graph.checkMentions (schema.fields.map Field.type)
      [schema.name, old.schema.name] = .ok ()) :
    (graph.redeclareStruct previous schema).Closed := by
  obtain ⟨member, rfl⟩ := formed.declared.struct?_iff.1 found
  refine closed.of_unused formed member (formed.not_structUsed member unused) rfl (fun _ => rfl)
    (fun entry he apart => List.mem_map.2 ⟨entry, he, if_neg apart⟩) fun entry he => ?_
  rcases mem_redeclareStruct he with rfl | there
  · refine .inr fun name mentions => ⟨?_, fun same => ?_⟩
    · have named : schema.FieldsNamed (graph.schemas.map (·.name)) := fun field hf =>
        formed.declared.isNamed_of_checked checked (List.mem_map_of_mem hf)
      exact fieldsNamed_iff.1 named name mentions
    · have second : old.schema.name ∈ [schema.name, old.schema.name] := by simp
      subst same
      exact formed.declared.unreached_of_checked checked second mentions .refl
  · exact .inl there

theorem Closed.withoutStruct (closed : graph.Closed) (formed : graph.WellFormed admits)
    {s : StructId} {old : StructEntry} (found : graph.struct? s = some old)
    (unused : graph.structInUse s = false) : (graph.withoutStruct s).Closed := by
  obtain ⟨member, rfl⟩ := formed.declared.struct?_iff.1 found
  exact closed.of_unused formed member (formed.not_structUsed member unused) rfl (fun _ => rfl)
    (fun _ he apart => mem_withoutStruct.2 ⟨he, apart⟩) fun _ he => .inl (mem_withoutStruct.1 he)

theorem WellFormed.ordered_withoutStruct (formed : graph.WellFormed admits)
    (ordered : Ordered [] graph.schemas) {s : StructId} {old : StructEntry}
    (found : graph.struct? s = some old) (unused : graph.structInUse s = false) :
    Ordered [] (graph.withoutStruct s).schemas := by
  obtain ⟨member, rfl⟩ := formed.declared.struct?_iff.1 found
  have unused := formed.not_structUsed member unused
  have same : (graph.withoutStruct old.id).schemas =
      graph.schemas.filter (·.name ≠ old.schema.name) := by
    rw [schemas, schemas, List.filter_map]
    refine congrArg _ (List.filter_congr fun entry he => ?_)
    have names := formed.declared.structName_eq_iff he member
    by_cases here : entry.id = old.id <;> simp [here, names]
  rw [same]
  refine ordered.filter fun schema hs other => ?_
  obtain ⟨entry, he, rfl⟩ := List.mem_map.1 hs
  exact not_mentions unused he (mt (formed.declared.structName_eq_iff he member).2 other)

end Graph

open NodeScript.Graph

variable {registry : Registry} {admits : Admits} {graph next : Graph} {edit : Edit}

/-- A guarded edit leaves no mention without its struct. -/
theorem Edit.closed (drawn : registry.Drawn) (formed : graph.WellFormed admits)
    (closed : graph.Closed) (guarded : edit.IsGuarded graph)
    (accepted : edit.apply registry graph = .ok next) : next.Closed := by
  have declared := formed.declared
  cases Edit.outcome accepted with
  | upkeep same => exact closed.upkeep same
  | builtin found canonical =>
    exact closed.push drawn _ ⟨_, found, (Behavior.canonical_eq_ok_iff.1 canonical).2.2⟩
  | withFunction _ checked same =>
    exact (closed.withFunction fun _ => declared.isNamed_of_checked checked).upkeep same
  | withStruct _ checked same =>
    exact (closed.withStruct fun _ hf =>
      declared.isNamed_of_checked checked (List.mem_map_of_mem hf)).upkeep same
  | redeclareFunction _ checked same =>
    exact (closed.redeclareFunction fun _ => declared.isNamed_of_checked checked).upkeep same
  | redeclareStruct found _ checked same =>
    exact ((closed.redeclareStruct formed found guarded checked).upkeep same).structs_perm
      (inOrder_perm _)
  | withoutFunction same => exact (closed.withoutFunction _).upkeep same
  | withoutStruct found same => exact (closed.withoutStruct formed found guarded).upkeep same

/-- A guarded edit keeps the structs in order. -/
theorem Edit.ordered (formed : graph.WellFormed admits) (closed : graph.Closed)
    (unlooped : Unlooped graph.schemas) (ordered : Ordered [] graph.schemas)
    (guarded : edit.IsGuarded graph) (accepted : edit.apply registry graph = .ok next) :
    Ordered [] next.schemas := by
  have later := Edit.unlooped formed.declared unlooped accepted
  cases Edit.outcome accepted with
  | upkeep same =>
    rw [same.schemas]
    exact ordered
  | builtin _ _ => exact ordered
  | withFunction _ _ same =>
    rw [same.schemas]
    exact ordered
  | @withStruct schema _ _ _ checked same =>
    rw [same.schemas, schemas_withStruct]
    exact ordered.concat fun _ hf =>
      formed.declared.isNamed_of_checked checked (List.mem_map_of_mem hf)
  | redeclareFunction _ _ same =>
    rw [same.schemas]
    exact ordered
  | @redeclareStruct _ _ _ last found _ checked same =>
    -- The old order says nothing here: the changed struct may mention any of the others.
    have perm := inOrder_perm last.structs
    have named := ((closed.redeclareStruct formed found guarded checked).upkeep same).fields
    refine ordered_inOrder ?_ fun entry he => ?_
    · exact later.of_subset fun _ member => (perm.map _).mem_iff.2 member
    · refine (named _ (List.mem_map_of_mem he)).mono fun name member => ?_
      rw [List.append_nil]
      rwa [Graph.schemas, List.map_map] at member
  | withoutFunction same =>
    rw [same.schemas]
    exact ordered
  | @withoutStruct s old _ found same =>
    rw [same.schemas]
    exact formed.ordered_withoutStruct ordered found guarded

end NodeScript
