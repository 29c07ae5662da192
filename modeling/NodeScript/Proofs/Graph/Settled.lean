import NodeScript.Proofs.Catalog.Ports
import NodeScript.Proofs.Graph.Effect
import NodeScript.Proofs.Graph.Usage

/-!
Graphs whose structs are mentioned as they are declared. Main statement: edits keep a graph so
where definitions are changed only while they are not in use and are given with types as they are
declared (`Reached.settled`).
-/

set_option autoImplicit false
set_option relaxedAutoImplicit false

namespace NodeScript

/-- Changes and removals of definitions that are not in use, and all other edits. -/
def Edit.IsGuarded (graph : Graph) : Edit → Prop
  | redefineFunction f _ => graph.functionInUse f = false
  | redefineStruct s _ => graph.structInUse s = false
  | removeFunction f => graph.functionInUse f = false
  | removeStruct s => graph.structInUse s = false
  | _ => True

/-- The types of given definitions hold structs as they are declared in a graph. -/
def Edit.IsCurrent (graph : Graph) : Edit → Prop
  | defineFunction signature _ => ∀ type ∈ signature.types, type.IsKnown graph.schemas
  | redefineFunction _ signature => ∀ type ∈ signature.types, type.IsKnown graph.schemas
  | defineStruct schema _ => ∀ field ∈ schema.fields, field.type.IsKnown graph.schemas
  | redefineStruct _ schema => ∀ field ∈ schema.fields, field.type.IsKnown graph.schemas
  | _ => True

namespace Graph

/-- Definitions and nodes hold structs as they are declared. -/
structure Settled (registry : Registry) (graph : Graph) : Prop where
  fields : Schema.AllKnown graph.schemas
  parameters : ∀ entry ∈ graph.functions, ∀ type ∈ entry.signature.types,
    type.IsKnown graph.schemas
  builtins : ∀ id form type, graph.form? id = some form → form.kind = .builtin type →
    ∃ behavior, registry.behavior? type = some behavior ∧
      behavior.ports form.config graph.schemas = .ok form.ports

variable {registry : Registry} {admits : Admits} {graph next : Graph}

theorem settled_empty : empty.Settled registry where
  fields schema h := by simp [schemas, empty] at h
  parameters entry h := by simp [empty] at h
  builtins id form type h := by simp [form?, node?, empty] at h

theorem Declared.find?_schemas_iff (declared : graph.Declared) {name : String} {schema : Schema} :
    Schema.find? graph.schemas name = some schema ↔
      schema ∈ graph.schemas ∧ schema.name = name := by
  rw [Schema.find?, schemas, List.find?_map, Option.map_eq_some_iff, List.mem_map]
  constructor
  · rintro ⟨entry, found, rfl⟩
    obtain ⟨he, hname⟩ := declared.structNamed?_iff.1 found
    exact ⟨⟨entry, he, rfl⟩, hname⟩
  · rintro ⟨⟨entry, he, rfl⟩, hname⟩
    exact ⟨entry, declared.structNamed?_iff.2 ⟨he, hname⟩, rfl⟩

theorem Declared.isKnown_iff (declared : graph.Declared) {type : DataType} :
    type.IsKnown graph.schemas ↔ ∀ schema, type.schema? = some schema → schema ∈ graph.schemas := by
  simp only [DataType.IsKnown, declared.find?_schemas_iff, and_true]

theorem Declared.isKnown_of_mem (declared : graph.Declared) (later : next.Declared)
    {type : DataType} (known : type.IsKnown graph.schemas)
    (stays : ∀ schema ∈ graph.schemas, type.schema? = some schema → schema ∈ next.schemas) :
    type.IsKnown next.schemas := by
  refine later.isKnown_iff.2 fun schema hs => ?_
  exact stays schema (declared.isKnown_iff.1 known schema hs) hs

theorem Settled.builtins_of_mem (settled : graph.Settled registry)
    (steady : registry.Steady) (declared : graph.Declared) (later : next.Declared)
    (stays : ∀ id form type, graph.form? id = some form → form.kind = .builtin type →
      ∀ port ∈ form.ports.inputs ++ form.ports.outputs, ∀ schema ∈ graph.schemas,
        port.type.schema? = some schema → schema ∈ next.schemas)
    {id : NodeId} {form : Form} {type : String} (hf : graph.form? id = some form)
    (kind : form.kind = .builtin type) : ∃ behavior, registry.behavior? type = some behavior ∧
      behavior.ports form.config next.schemas = .ok form.ports := by
  obtain ⟨behavior, found, ports⟩ := settled.builtins id form type hf kind
  refine ⟨behavior, found, (steady type behavior found).stays ports fun port hp => ?_⟩
  exact declared.isKnown_of_mem later
    ((steady type behavior found).known settled.fields ports port hp)
    (stays id form type hf kind port hp)

theorem Settled.of_upkeep (settled : graph.Settled registry) (up : graph.Upkeep next) :
    next.Settled registry := by
  refine ⟨?_, fun entry he => ?_, fun id form type hf kind => ?_⟩
  · rw [up.schemas]
    exact settled.fields
  · obtain ⟨old, hold, -, same⟩ := up.function_mem he
    rw [up.schemas, ← same]
    exact settled.parameters old hold
  · rw [up.schemas]
    exact settled.builtins id form type (up.builtins id form type hf kind) kind

theorem Settled.push (settled : graph.Settled registry) {kind : NodeKind} {config : Json}
    {ports : Ports} (position : Position)
    (fits : graph.Fits (registry.DeclaresIn graph.schemas) ⟨kind, config, ports⟩) :
    (graph.push (.ofPorts kind config ports position)).2.Settled registry where
  fields := settled.fields
  parameters := settled.parameters
  builtins id form type hf builtin := by
    rw [form?_push] at hf
    split at hf
    · rw [Option.some.injEq, Node.form_ofPorts] at hf
      subst hf
      obtain rfl : kind = .builtin type := builtin
      exact fits
    · exact settled.builtins id form type hf builtin

theorem Settled.withFunction (settled : graph.Settled registry) {signature : Signature}
    (known : ∀ type ∈ signature.types, type.IsKnown graph.schemas) :
    (graph.withFunction signature).Settled registry where
  fields := settled.fields
  parameters entry he := by
    rcases mem_withFunction.1 he with he | rfl
    · exact settled.parameters entry he
    · exact known
  builtins := settled.builtins

theorem Settled.redeclareFunction (settled : graph.Settled registry) {previous : FunctionId}
    {signature : Signature} (known : ∀ type ∈ signature.types, type.IsKnown graph.schemas) :
    (graph.redeclareFunction previous signature).Settled registry where
  fields := settled.fields
  parameters entry he := by
    rcases mem_redeclareFunction he with rfl | ⟨he, -⟩
    · exact known
    · exact settled.parameters entry he
  builtins := settled.builtins

theorem Settled.withoutFunction (settled : graph.Settled registry) (f : FunctionId) :
    (graph.withoutFunction f).Settled registry where
  fields := settled.fields
  parameters entry he := settled.parameters entry (mem_withoutFunction.1 he).1
  builtins := settled.builtins

theorem Settled.of_structs (settled : graph.Settled registry)
    (steady : registry.Steady) (declared : graph.Declared) (later : next.Declared)
    (functions : next.functions = graph.functions) (forms : ∀ id, next.form? id = graph.form? id)
    (fields : Schema.AllKnown next.schemas)
    (parameters : ∀ entry ∈ graph.functions, ∀ type ∈ entry.signature.types,
      ∀ schema ∈ graph.schemas, type.schema? = some schema → schema ∈ next.schemas)
    (builtins : ∀ id form type, graph.form? id = some form → form.kind = .builtin type →
      ∀ port ∈ form.ports.inputs ++ form.ports.outputs, ∀ schema ∈ graph.schemas,
        port.type.schema? = some schema → schema ∈ next.schemas) : next.Settled registry where
  fields := fields
  parameters entry he type ht := by
    rw [functions] at he
    exact declared.isKnown_of_mem later (settled.parameters entry he type ht)
      (parameters entry he type ht)
  builtins id form type hf kind := by
    rw [forms] at hf
    exact settled.builtins_of_mem steady declared later builtins hf kind

theorem Settled.withStruct (settled : graph.Settled registry)
    (steady : registry.Steady)
    (declared : graph.Declared) {schema : Schema} (fresh : graph.structNamed? schema.name = none)
    (known : ∀ field ∈ schema.fields, field.type.IsKnown graph.schemas) :
    (graph.withStruct schema).Settled registry := by
  have later := declared.withStruct fresh
  have stays {held : Schema} (h : held ∈ graph.schemas) :
      held ∈ (graph.withStruct schema).schemas := by
    rw [schemas_withStruct]
    exact List.mem_append_left _ h
  refine settled.of_structs steady declared later rfl (fun _ => rfl) ?_
    (fun _ _ _ _ _ h _ => stays h) (fun _ _ _ _ _ _ _ _ h _ => stays h)
  intro holder hholder field hf
  refine declared.isKnown_of_mem later ?_ fun _ h _ => stays h
  rw [schemas_withStruct] at hholder
  rcases List.mem_append.1 hholder with hholder | hholder
  · exact settled.fields holder hholder field hf
  · rw [List.mem_singleton.1 hholder] at hf
    exact known field hf

theorem Settled.of_unused (settled : graph.Settled registry)
    (steady : registry.Steady) (declared : graph.Declared)
    (later : next.Declared) {old : StructEntry}
    (member : old ∈ graph.structs) (unused : ¬graph.StructUsed old.id old.schema.name)
    (functions : next.functions = graph.functions) (forms : ∀ id, next.form? id = graph.form? id)
    (stays : ∀ schema ∈ graph.schemas, schema.name ≠ old.schema.name → schema ∈ next.schemas)
    (fields : ∀ schema ∈ next.schemas, schema ∈ graph.schemas ∧ schema.name ≠ old.schema.name ∨
      ∀ field ∈ schema.fields, ∀ held, field.type.schema? = some held →
        held ∈ graph.schemas ∧ held.name ≠ old.schema.name) : next.Settled registry := by
  obtain ⟨notPorts, rest⟩ := not_or.1 unused
  obtain ⟨-, rest⟩ := not_or.1 rest
  obtain ⟨notParameters, notFields⟩ := not_or.1 rest
  refine settled.of_structs steady declared later functions forms ?_ ?_ ?_
  · intro holder hholder field hf
    rw [later.isKnown_iff]
    intro held hheld
    rcases fields holder hholder with ⟨mem, other⟩ | given
    · have known := declared.isKnown_iff.1 (settled.fields holder mem field hf) held hheld
      refine stays held known fun same => notFields ?_
      obtain ⟨entry, he, rfl⟩ := List.mem_map.1 mem
      refine ⟨entry, he, mt (declared.structName_eq_iff he member).2 other,
        List.any_eq_true.2 ⟨field, hf, ?_⟩⟩
      simp [DataType.mentions, hheld, same]
    · obtain ⟨mem, other⟩ := given field hf held hheld
      exact stays held mem other
  · intro entry he type ht schema hs held
    refine stays schema hs fun same => notParameters ⟨entry, he, List.any_eq_true.2 ⟨type, ht, ?_⟩⟩
    simp [DataType.mentions, held, same]
  · intro id form type hf kind port hp schema hs held
    refine stays schema hs fun same => notPorts ⟨id, form, hf, by simp [kind],
      List.any_eq_true.2 ⟨port, hp, ?_⟩⟩
    simp [DataType.mentions, held, same]

theorem not_mem_of_structLeadsTo {name : String} {targets : List String}
    (not : graph.structLeadsTo name targets = false) : name ∉ targets := by
  intro mem
  rw [structLeadsTo, leadsTo, if_pos (by simpa using mem)] at not
  exact absurd not (by simp)

theorem Settled.structs_perm (settled : graph.Settled registry)
    (steady : registry.Steady)
    (declared : graph.Declared) {structs : List StructEntry} (perm : structs.Perm graph.structs) :
    ({ graph with structs } : Graph).Settled registry := by
  have later := declared.structs_perm perm
  have stays {held : Schema} (h : held ∈ graph.schemas) :
      held ∈ ({ graph with structs } : Graph).schemas := (perm.map _).mem_iff.2 h
  refine settled.of_structs steady declared later rfl (fun _ => rfl) ?_
    (fun _ _ _ _ _ h _ => stays h) (fun _ _ _ _ _ _ _ _ h _ => stays h)
  intro holder hholder field hf
  have known := settled.fields holder ((perm.map _).mem_iff.1 hholder) field hf
  exact declared.isKnown_of_mem later known fun _ h _ => stays h

theorem Settled.redeclareStruct (settled : graph.Settled registry)
    (steady : registry.Steady)
    (formed : graph.WellFormed admits) {previous : StructId} {schema : Schema} {old : StructEntry}
    (found : graph.struct? previous = some old) (unused : graph.structInUse previous = false)
    (fresh : ∀ entry ∈ graph.structs, entry.id ≠ previous → entry.schema.name ≠ schema.name)
    (checked : graph.checkMentions (schema.fields.map Field.type)
      [schema.name, old.schema.name] = .ok ())
    (known : ∀ field ∈ schema.fields, field.type.IsKnown graph.schemas) :
    (graph.redeclareStruct previous schema).Settled registry := by
  obtain ⟨member, rfl⟩ := formed.declared.struct?_iff.1 found
  refine settled.of_unused steady formed.declared (formed.declared.redeclareStruct fresh) member
    (formed.not_structUsed member unused) rfl (fun _ => rfl) ?_ ?_
  · intro held hheld other
    obtain ⟨entry, he, rfl⟩ := List.mem_map.1 hheld
    have apart := mt (formed.declared.structName_eq_iff he member).2 other
    exact List.mem_map.2 ⟨entry, List.mem_map.2 ⟨entry, he, if_neg apart⟩, rfl⟩
  · intro holder hholder
    obtain ⟨entry, he, rfl⟩ := List.mem_map.1 hholder
    rcases mem_redeclareStruct he with rfl | ⟨he, hne⟩
    · refine .inr fun field hf held hheld => ?_
      have mentioned := checkMentions_eq_ok checked (List.mem_map_of_mem hf) hheld
      refine ⟨formed.declared.isKnown_iff.1 (known field hf) held hheld, fun same => ?_⟩
      exact not_mem_of_structLeadsTo mentioned.2 (by simp [same])
    · exact .inl ⟨List.mem_map_of_mem he, mt (formed.declared.structName_eq_iff he member).1 hne⟩

theorem Settled.withoutStruct (settled : graph.Settled registry)
    (steady : registry.Steady)
    (formed : graph.WellFormed admits) {s : StructId} {old : StructEntry}
    (found : graph.struct? s = some old) (unused : graph.structInUse s = false) :
    (graph.withoutStruct s).Settled registry := by
  obtain ⟨member, rfl⟩ := formed.declared.struct?_iff.1 found
  refine settled.of_unused steady formed.declared (formed.declared.withoutStruct old.id) member
    (formed.not_structUsed member unused) rfl (fun _ => rfl) ?_ ?_
  · intro held hheld other
    obtain ⟨entry, he, rfl⟩ := List.mem_map.1 hheld
    have apart := mt (formed.declared.structName_eq_iff he member).2 other
    exact List.mem_map_of_mem (mem_withoutStruct.2 ⟨he, apart⟩)
  · intro holder hholder
    obtain ⟨entry, he, rfl⟩ := List.mem_map.1 hholder
    obtain ⟨he, hne⟩ := mem_withoutStruct.1 he
    exact .inl ⟨List.mem_map_of_mem he, mt (formed.declared.structName_eq_iff he member).1 hne⟩

end Graph

open NodeScript.Graph

variable {registry : Registry} {admits : Admits} {graph next : Graph}

/-- A guarded edit with current types keeps a graph settled. -/
theorem Edit.settled {edit : Edit}
    (steady : registry.Steady)
    (formed : graph.WellFormed admits) (settled : graph.Settled registry)
    (guarded : edit.IsGuarded graph) (current : edit.IsCurrent graph)
    (accepted : edit.apply registry graph = .ok next) : next.Settled registry := by
  have later := (Edit.wellFormed (fun _ _ _ _ => trivial) (formed.imp fun _ _ _ _ => trivial)
    accepted).declared
  cases Edit.outcome accepted with
  | upkeep same => exact settled.of_upkeep same
  | builtin found canonical =>
    exact settled.push _ ⟨_, found, (Behavior.canonical_eq_ok_iff.1 canonical).2.2⟩
  | withFunction _ _ same => exact (settled.withFunction current).of_upkeep same
  | withStruct fresh _ same =>
    exact (settled.withStruct steady formed.declared fresh current).of_upkeep same
  | redeclareFunction _ _ same => exact (settled.redeclareFunction current).of_upkeep same
  | @redeclareStruct _ _ _ last found fresh checked same =>
    have perm := inOrder_perm last.structs
    have declared : last.Declared := later.structs_perm perm.symm
    exact ((settled.redeclareStruct steady formed found guarded fresh checked current).of_upkeep
      same).structs_perm steady declared perm
  | withoutFunction same => exact (settled.withoutFunction _).of_upkeep same
  | withoutStruct found same =>
    exact (settled.withoutStruct steady formed found guarded).of_upkeep same

theorem Reached.settled {first : Graph → Prop}
    (steady : registry.Steady)
    (start : ∀ graph, first graph → graph = .empty)
    (reached : Reached first (Edit.Leads (· = registry)
      fun graph edit => edit.IsGuarded graph ∧ edit.IsCurrent graph) graph) :
    graph.WellFormed registry.Canonical ∧ graph.Settled registry := by
  induction reached with
  | first h =>
    rw [start _ h]
    exact ⟨wellFormed_empty, settled_empty⟩
  | step before made ih =>
    obtain ⟨_, edit, rfl, allowed, accepted⟩ := made
    exact ⟨Edit.wellFormed (fun _ _ _ h => h) ih.1 accepted,
      Edit.settled steady ih.1 ih.2 allowed.1 allowed.2 accepted⟩

end NodeScript
