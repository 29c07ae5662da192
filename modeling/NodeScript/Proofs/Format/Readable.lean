import NodeScript.Proofs.Format.Closed

/-!
What every loaded graph has in common. Structs are mentioned as they are declared, nothing is nested
deeper than the reader goes, and each node of a registered type has a configuration that its
behavior reads; so a loaded graph can be written. Main statements: `Format.readable_of_decode` and
`Readable.encode_isOk`.
-/

set_option autoImplicit false
set_option relaxedAutoImplicit false

namespace NodeScript

open Decode

namespace Graph

variable {graph next : Graph} {ref : InputRef} {v : Value}

def inset? (graph : Graph) (ref : InputRef) : Option Value := (graph.input? ref).bind (·.inset)

def KeepsInsets (graph next : Graph) : Prop :=
  ∀ ref v, next.inset? ref = some v → graph.inset? ref = some v

theorem KeepsInsets.trans {last : Graph} (first : graph.KeepsInsets next)
    (second : next.KeepsInsets last) : graph.KeepsInsets last := by
  intro ref v found
  exact first ref v (second ref v found)

theorem keepsInsets_push {node : Node} (bare : ∀ input ∈ node.inputs, input.inset = none) :
    graph.KeepsInsets (graph.push node).2 := by
  intro ref v found
  rw [inset?, input?, node?_push] at found
  split at found
  · obtain ⟨input, here, own⟩ := Option.bind_eq_some_iff.1 found
    rw [bare input (List.mem_of_getElem? here)] at own
    simp at own
  · exact found

theorem keepsInsets_ofPorts (graph : Graph) (kind : NodeKind) (config : Json) (ports : Ports)
    (position : Position) :
    graph.KeepsInsets (graph.push (.ofPorts kind config ports position)).2 := by
  refine keepsInsets_push fun input mem => ?_
  obtain ⟨port, -, rfl⟩ := List.mem_map.1 mem
  rfl

theorem keepsInsets_link (graph : Graph) (source : OutputRef) (target : InputRef)
    (relays : List Position) (others : List (OutputRef × InputRef)) :
    graph.KeepsInsets (graph.link source target relays others) := by
  intro ref v found
  rw [link_eq_join, inset?, input?_join, restrict, input?_restrictEnds,
    input?_restrictEnds] at found
  split at found
  · rename_i here
    rw [Option.map_map] at found
    obtain ⟨input, first, own⟩ := Option.bind_eq_some_iff.1 found
    obtain ⟨old, before, rfl⟩ := Option.map_eq_some_iff.1 first
    rw [inset?, here, before]
    exact own
  · obtain ⟨input, first, own⟩ := Option.bind_eq_some_iff.1 found
    obtain ⟨old, before, rfl⟩ := Option.map_eq_some_iff.1 first
    rw [inset?, before]
    exact own

theorem keepsInsets_completeDefinitions (completed : graph.completeDefinitions = .ok next) :
    graph.KeepsInsets next := by
  refine completeDefinitions_keeps (fun kept added => ?_) (fun _ _ kept => kept)
    (fun _ _ kept => kept) (fun _ _ found => found) completed
  obtain ⟨ports, -, -, rfl⟩ := addDefined_eq_ok_iff.1 added
  exact kept.trans (keepsInsets_ofPorts _ _ _ _ _)

theorem still_setInset {target : InputRef} {value : Option Value}
    (accepted : graph.setInset target value = .ok next) : graph.Still next := by
  obtain ⟨-, -, -, rfl⟩ := setInset_eq_ok accepted
  apply Still.modifyInput
  intro _
  rfl

theorem inset?_setInset {target : InputRef} {value : Option Value}
    (accepted : graph.setInset target value = .ok next) (found : next.inset? ref = some v) :
    graph.inset? ref = some v ∨ value = some v := by
  obtain ⟨input, -, -, rfl⟩ := setInset_eq_ok accepted
  rw [inset?, input?_modifyInput] at found
  split at found
  · obtain ⟨_, changed, own⟩ := Option.bind_eq_some_iff.1 found
    obtain ⟨old, -, rfl⟩ := Option.map_eq_some_iff.1 changed
    exact .inr own
  · exact .inl found

theorem definitionFault?_eq_none_iff : graph.definitionFault? = none ↔
    (∀ schema ∈ graph.schemas, schema.fields.length ≤ 255) ∧ Schema.Ordered [] graph.schemas ∧
      ∀ signature ∈ graph.functions.map (·.signature), ∀ type ∈ signature.types,
        type.IsNamed (graph.schemas.map (·.name)) := by
  unfold DataType.IsNamed
  rw [List.forall_mem_map, ← functionFault?_eq_none_iff, schemas, ← structOrderFault?_eq_none_iff,
    List.forall_mem_map]
  constructor
  · intro fine
    refine ⟨few_of_definitionFault? fine, ?_⟩
    unfold definitionFault? at fine
    split at fine
    · simp at fine
    · exact Option.or_eq_none_iff.1 fine
  · rintro ⟨few, fine⟩
    have none : graph.structs.find? (255 < ·.schema.fields.length) = none := by
      rw [List.find?_eq_none]
      intro entry mem
      simpa using few entry mem
    rw [definitionFault?, none]
    exact Option.or_eq_none_iff.2 fine

end Graph

open NodeScript.Graph

variable {registry : Registry} {graph next : Graph}

def Graph.ConfigsGiven (registry : Registry) (graph : Graph) : Prop :=
  ∀ id form type behavior, graph.form? id = some form → form.kind = .builtin type →
    registry.behavior? type = some behavior → ∃ known, Gives (behavior.readAmong known) form.config

/-- Files can give the graph. -/
structure Format.Readable (registry : Registry) (graph : Graph) : Prop where
  settled : graph.Settled registry
  nested : graph.NestedWithin maxNesting
  few : ∀ entry ∈ graph.structs, entry.schema.fields.length ≤ 255
  ordered : Schema.Ordered [] graph.schemas
  configs : graph.ConfigsGiven registry

namespace Format

theorem Assembled.settled (steady : registry.Steady) (assembled : Assembled registry graph) :
    graph.Settled registry := by
  induction assembled with
  | empty => exact settled_empty
  | struct before fresh known _ _ ih =>
    exact ih.withStruct steady before.sound.declared fresh known
  | function _ _ known _ ih => exact ih.withFunction known
  | node _ placeable ih =>
    obtain ⟨kind, config, ports, position, rfl, fits, -⟩ := placeable
    exact ih.push position fits
  | literal _ accepted _ ih => exact ih.of_upkeep (still_setInset accepted).upkeep
  | wire relays _ _ ih => exact ih.of_upkeep (Still.link ..).upkeep

theorem Assembled.insets_nested (assembled : Assembled registry graph) {ref : InputRef} {v : Value}
    (found : graph.inset? ref = some v) : v.levels ≤ maxNesting := by
  induction assembled with
  | empty => simp [inset?, input?, node?, Graph.empty] at found
  | struct _ _ _ _ _ ih => exact ih found
  | function _ _ _ _ ih => exact ih found
  | node _ placeable ih =>
    obtain ⟨kind, config, ports, position, rfl, -⟩ := placeable
    exact ih (keepsInsets_ofPorts _ _ _ _ _ ref v found)
  | literal _ accepted shallow ih =>
    rcases inset?_setInset accepted found with old | new
    · exact ih old
    · exact shallow v new
  | wire relays _ _ ih => exact ih (keepsInsets_link _ _ _ _ _ ref v found)

theorem Assembled.structs_nested (assembled : Assembled registry graph) :
    ∀ entry ∈ graph.structs, (∀ field ∈ entry.schema.fields, field.type.levels ≤ maxNesting) ∧
      entry.schema.fields.length ≤ 255 := by
  induction assembled with
  | empty => simp [Graph.empty]
  | struct _ _ _ shallow few ih =>
    intro entry mem
    rcases mem_withStruct.1 mem with mem | rfl
    · exact ih entry mem
    · exact ⟨shallow, few⟩
  | function _ _ _ _ ih => exact ih
  | node _ _ ih => exact ih
  | literal _ accepted _ ih =>
    rw [(still_setInset accepted).structs]
    exact ih
  | wire relays _ _ ih =>
    rw [(Still.link _ _ _ relays _).structs]
    exact ih

theorem Assembled.functions_nested (assembled : Assembled registry graph) :
    ∀ entry ∈ graph.functions, ∀ type ∈ entry.signature.types, type.levels ≤ maxNesting := by
  induction assembled with
  | empty => simp [Graph.empty]
  | struct _ _ _ _ _ ih => exact ih
  | function _ _ _ shallow ih =>
    intro entry mem
    rcases mem_withFunction.1 mem with mem | rfl
    · exact ih entry mem
    · exact shallow
  | node _ _ ih => exact ih
  | literal _ accepted _ ih =>
    rw [(still_setInset accepted).functions]
    exact ih
  | wire relays _ _ ih =>
    rw [(Still.link _ _ _ relays _).functions]
    exact ih

theorem Assembled.configs (assembled : Assembled registry graph) : graph.ConfigsGiven registry := by
  induction assembled with
  | empty => simp [ConfigsGiven, form?, node?, Graph.empty]
  | struct _ _ _ _ _ ih => exact ih
  | function _ _ _ _ ih => exact ih
  | node _ placeable ih =>
    obtain ⟨kind, config, ports, position, rfl, -, given⟩ := placeable
    intro id form type behavior found builtin known
    rw [form?_push] at found
    split at found
    · rw [Option.some.injEq, Node.form_ofPorts] at found
      subst found
      exact ⟨_, given type behavior builtin known⟩
    · exact ih id form type behavior found builtin known
  | literal _ accepted _ ih =>
    intro id form type behavior found
    rw [(still_setInset accepted).forms id] at found
    exact ih id form type behavior found
  | wire relays _ _ ih =>
    intro id form type behavior found
    rw [(Still.link ..).forms id] at found
    exact ih id form type behavior found

theorem Assembled.readable (steady : registry.Steady)
    (assembled : Assembled registry graph) (completed : graph.completeDefinitions = .ok next) :
    Readable registry next := by
  have up := Upkeep.completeDefinitions completed
  refine ⟨(assembled.settled steady).of_upkeep up, ⟨fun entry mem => ?_, fun entry mem => ?_,
    fun ref input v found own => ?_⟩, fun entry mem => ?_, ?_,
    fun id form type behavior found kind => ?_⟩
  · obtain ⟨old, before, -, same⟩ := up.struct_mem mem
    rw [← same]
    exact (assembled.structs_nested old before).1
  · obtain ⟨old, before, -, same⟩ := up.function_mem mem
    rw [← same]
    exact assembled.functions_nested old before
  · have inset : next.inset? ref = some v := Option.bind_eq_some_iff.2 ⟨input, found, own⟩
    exact assembled.insets_nested (keepsInsets_completeDefinitions completed ref v inset)
  · obtain ⟨old, before, -, same⟩ := up.struct_mem mem
    rw [← same]
    exact (assembled.structs_nested old before).2
  · rw [up.schemas]
    exact assembled.ordered
  · exact assembled.configs id form type behavior (up.builtins id form type found kind) kind

theorem readable_of_decode (steady : registry.Steady) {file : Bytes} {loaded : Loaded}
    (decoded : decode registry file = .ok loaded) : Readable registry loaded.graph := by
  obtain ⟨parts, assembled, completed⟩ := assembled_of_decodeWith decoded
  exact assembled.readable steady completed

/-- What files give can be written. -/
theorem Readable.encode_isOk {admits : Admits} (readable : Readable registry graph)
    (formed : graph.WellFormed admits) : ∃ file, graph.encode registry current = .ok file := by
  have fine : graph.definitionFault? = none := by
    refine definitionFault?_eq_none_iff.2 ⟨List.forall_mem_map.2 readable.few, readable.ordered, ?_⟩
    intro signature mem type ht
    obtain ⟨entry, he, rfl⟩ := List.mem_map.1 mem
    exact (readable.settled.parameters entry he type ht).isNamed
  obtain ⟨records, recorded⟩ := formed.records_isOk registry current
  exact ⟨_, encode_eq_file_iff.2 ⟨(fault?_current graph).trans fine, records, recorded, rfl⟩⟩

end Format

end NodeScript
