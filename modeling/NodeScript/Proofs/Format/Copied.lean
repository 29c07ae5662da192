import NodeScript.Proofs.Format.Reread
import NodeScript.Proofs.Format.Rewired
import NodeScript.Proofs.Graph.Settled

/-!
Definitions and nodes that are read back as they are. Where structs are mentioned as they are
declared, the definitions of a graph are declared again under new addresses, and each node is
placed again with the same ports and literals, without its wires. A record that the reader refuses
for its type leaves a gap in the places.
-/

set_option autoImplicit false
set_option relaxedAutoImplicit false

namespace NodeScript

open Format

namespace Graph

variable {graph next : Graph}

/-- A graph with the given structs more, none of which has a constructor yet. -/
def withStructs (graph : Graph) (schemas : List Schema) : Graph := schemas.foldl withStruct graph

/-- A graph with the given functions more, none of which has nodes yet. -/
def withFunctions (graph : Graph) (signatures : List Signature) : Graph :=
  signatures.foldl withFunction graph

private theorem mapM_eq_some {α : Type} {f : α → Option α} {items : List α}
    (each : ∀ a ∈ items, f a = some a) : items.mapM f = some items := by
  induction items with
  | nil => rfl
  | cons a items ih =>
    rw [List.forall_mem_cons] at each
    rw [List.mapM_cons, each.1, ih each.2]
    rfl

theorem rereadFields_eq {known : List Schema} {fields : List Field}
    (shallow : ∀ field ∈ fields, field.type.levels ≤ maxNesting)
    (current : ∀ field ∈ fields, field.type.IsKnown known) :
    fields.mapM (Field.reread known) = some fields := by
  refine mapM_eq_some fun field hf => ?_
  rw [Field.reread, DataType.reread_eq_some (shallow field hf) (current field hf)]
  rfl

theorem isKnown_of_append {before after : List Schema} {type : DataType}
    (known : type.IsKnown (before ++ after))
    (earlier : ∀ schema, type.schema? = some schema → schema.name ∈ before.map (·.name)) :
    type.IsKnown before := by
  intro schema hs
  have found := known schema hs
  rw [Schema.find?, List.find?_append] at found
  cases here : before.find? (·.name == schema.name) with
  | some first =>
    rw [here, Option.some_or] at found
    rw [Schema.find?, here, found]
  | none =>
    obtain ⟨other, ho, same⟩ := List.mem_map.1 (earlier schema hs)
    exact absurd (List.find?_eq_none.1 here other ho) (by simp [same])

theorem rereadSchemas_eq {entries : List StructEntry} {written : List String}
    (writtenSchemas : ∀ name, name ∈ written → name ∈ graph.schemas.map (·.name))
    (ordered : structOrderFault? written entries = none)
    (distinct : ((graph.schemas ++ entries.map (·.schema)).map (·.name)).Nodup)
    (current : ∀ entry ∈ entries, ∀ field ∈ entry.schema.fields,
      field.type.IsKnown (graph.schemas ++ entries.map (·.schema)))
    (shallow : ∀ entry ∈ entries, ∀ field ∈ entry.schema.fields,
      field.type.levels ≤ maxNesting) :
    (entries.map (·.schema)).foldlM rereadSchema graph =
      some (graph.withStructs (entries.map (·.schema))) := by
  induction entries generalizing graph written with
  | nil => rfl
  | cons entry entries ih =>
    obtain ⟨here, ordered⟩ := structOrderFault?_cons_eq_none_iff.1 ordered
    rw [List.forall_mem_cons] at current shallow
    have fields : entry.schema.fields.mapM (Field.reread graph.schemas) =
        some entry.schema.fields :=
      rereadFields_eq shallow.1 fun field hf => isKnown_of_append (current.1 field hf)
        fun schema hs => writtenSchemas _ (here _ (List.mem_map_of_mem hf) schema hs)
    have fresh : graph.structNamed? entry.schema.name = none := by
      rw [structNamed?, List.find?_eq_none]
      intro other ho same
      rw [List.map_append, List.nodup_append] at distinct
      refine distinct.2.2 other.schema.name ?_ entry.schema.name ?_ (by simpa using same)
      · exact List.mem_map_of_mem (List.mem_map_of_mem ho)
      · exact List.mem_cons_self
    have first : graph.rereadSchema entry.schema = some (graph.withStruct entry.schema) :=
      rereadSchema_eq_some_iff.2 ⟨_, fields, fresh, rfl⟩
    rw [List.map_cons, List.foldlM_cons, first]
    have split : graph.schemas ++ (entry :: entries).map (·.schema) =
        (graph.withStruct entry.schema).schemas ++ entries.map (·.schema) := by
      rw [schemas_withStruct, List.append_assoc]
      rfl
    rw [split] at distinct current
    refine ih (fun name hn => ?_) ordered distinct current.2 shallow.2
    rw [schemas_withStruct, List.map_append, List.mem_append]
    rcases List.mem_cons.1 hn with rfl | hn
    · exact .inr List.mem_cons_self
    · exact .inl (writtenSchemas name hn)

theorem rereadSignatures_eq {entries : List FunctionEntry}
    (distinct : (graph.functions.map (·.signature.name) ++
      entries.map (·.signature.name)).Nodup)
    (current : ∀ entry ∈ entries, ∀ type ∈ entry.signature.types, type.IsKnown graph.schemas)
    (shallow : ∀ entry ∈ entries, ∀ type ∈ entry.signature.types, type.levels ≤ maxNesting) :
    (entries.map (·.signature)).foldlM rereadSignature graph =
      some (graph.withFunctions (entries.map (·.signature))) := by
  induction entries generalizing graph with
  | nil => rfl
  | cons entry entries ih =>
    rw [List.forall_mem_cons] at current shallow
    have types {fields : List Field}
        (sub : fields ⊆ entry.signature.inputs ++ entry.signature.outputs) :
        fields.mapM (Field.reread graph.schemas) = some fields :=
      rereadFields_eq (fun field hf => shallow.1 _ (List.mem_map_of_mem (sub hf)))
        fun field hf => current.1 _ (List.mem_map_of_mem (sub hf))
    have fresh : graph.functionNamed? entry.signature.name = none := by
      rw [functionNamed?, List.find?_eq_none]
      intro other ho same
      rw [List.nodup_append] at distinct
      exact distinct.2.2 other.signature.name (List.mem_map_of_mem ho) entry.signature.name
        List.mem_cons_self (by simpa using same)
    have first : graph.rereadSignature entry.signature =
        some (graph.withFunction entry.signature) :=
      rereadSignature_eq_some_iff.2 ⟨_, _, types (List.subset_append_left _ _),
        types (List.subset_append_right _ _), fresh, rfl⟩
    rw [List.map_cons, List.foldlM_cons, first]
    refine ih ?_ current.2 shallow.2
    rw [withFunction, List.map_append, List.append_assoc]
    exact distinct

theorem schemas_withStructs (graph : Graph) (schemas : List Schema) :
    (graph.withStructs schemas).schemas = graph.schemas ++ schemas := by
  induction schemas generalizing graph with
  | nil => exact (List.append_nil _).symm
  | cons schema schemas ih =>
    rw [withStructs, List.foldl_cons, ← withStructs, ih, schemas_withStruct, List.append_assoc]
    rfl

theorem signatures_withFunctions (graph : Graph) (signatures : List Signature) :
    (graph.withFunctions signatures).functions.map (·.signature) =
      graph.functions.map (·.signature) ++ signatures := by
  induction signatures generalizing graph with
  | nil => exact (List.append_nil _).symm
  | cons signature signatures ih =>
    rw [withFunctions, List.foldl_cons, ← withFunctions, ih, withFunction, List.map_append,
      List.append_assoc]
    rfl

end Graph

open NodeScript.Graph

variable {registry : Registry} {admits : Admits} {graph next : Graph}

/-- Two graphs declare the same, under addresses of their own. -/
structure Graph.SameDeclarations (graph next : Graph) : Prop where
  declared : next.Declared
  signatures : next.functions.map (·.signature) = graph.functions.map (·.signature)
  schemas : next.schemas = graph.schemas

/-- The kinds of a node in two graphs that declare the same. -/
inductive Graph.Alike (graph next : Graph) : NodeKind → NodeKind → Prop where
  | builtin (type : String) : Alike graph next (.builtin type) (.builtin type)
  | call {f f' : FunctionId} {signature : Signature} (here : graph.signature? f = some signature)
    (there : next.signature? f' = some signature) : Alike graph next (.call f) (.call f')
  | functionInput {f f' : FunctionId} {signature : Signature}
    (here : graph.signature? f = some signature) (there : next.signature? f' = some signature) :
    Alike graph next (.functionInput f) (.functionInput f')
  | functionOutput {f f' : FunctionId} {signature : Signature}
    (here : graph.signature? f = some signature) (there : next.signature? f' = some signature) :
    Alike graph next (.functionOutput f) (.functionOutput f')
  | construct {s s' : StructId} {schema : Schema} (here : graph.schemaAt? s = some schema)
    (there : next.schemaAt? s' = some schema) : Alike graph next (.construct s) (.construct s')

theorem Graph.SameDeclarations.function (same : graph.SameDeclarations next) {f : FunctionId}
    {signature : Signature} (here : graph.signature? f = some signature) :
    ∃ f', next.signature? f' = some signature ∧
      (next.functionNamed? signature.name).map (·.id) = some f' := by
  obtain ⟨entry, found, rfl⟩ := Option.map_eq_some_iff.1 here
  have mem : entry.signature ∈ next.functions.map (·.signature) := by
    rw [same.signatures]
    exact List.mem_map_of_mem (List.mem_of_find?_eq_some found)
  obtain ⟨entry', he, equal⟩ := List.mem_map.1 mem
  refine ⟨entry'.id, same.declared.signature?_eq_some_iff.2 ⟨entry', he, rfl, equal⟩, ?_⟩
  rw [same.declared.functionNamed?_iff.2 ⟨he, congrArg Signature.name equal⟩]
  rfl

theorem Graph.SameDeclarations.struct (same : graph.SameDeclarations next) {s : StructId}
    {schema : Schema} (here : graph.schemaAt? s = some schema) :
    ∃ s', next.schemaAt? s' = some schema ∧
      (next.structNamed? schema.name).map (·.id) = some s' := by
  obtain ⟨entry, found, rfl⟩ := Option.map_eq_some_iff.1 here
  have mem : entry.schema ∈ next.schemas := by
    rw [same.schemas]
    exact List.mem_map_of_mem (List.mem_of_find?_eq_some found)
  obtain ⟨entry', he, equal⟩ := List.mem_map.1 mem
  refine ⟨entry'.id, same.declared.schemaAt?_eq_some_iff.2 ⟨entry', he, rfl, equal⟩, ?_⟩
  rw [same.declared.structNamed?_iff.2 ⟨he, congrArg Schema.name equal⟩]
  rfl

/-- A node that is made from a definition is made from the same one in the other graph. -/
theorem Graph.SameDeclarations.definedKind? (same : graph.SameDeclarations next) {kind : NodeKind}
    {ports : Ports} (defined : graph.definedPorts kind = .ok ports) {record : NodeRecord}
    (named : graph.nameOf? kind = some record.name) (code : record.kind = kind.code) :
    ∃ kind', graph.Alike next kind kind' ∧ Format.definedKind? next record = some kind' ∧
      next.definedPorts kind' = .ok ports := by
  have function {f : FunctionId} (of : kind.function? = some f)
      (named : (graph.function? f).map (·.signature.name) = some record.name) :
      ∃ signature entry', graph.signature? f = some signature ∧
        next.signature? entry'.id = some signature ∧ ports = kind.portsOf signature ∧
        next.functionNamed? record.name = some entry' := by
    obtain ⟨signature, here, made⟩ := signature_of_definedPorts of defined
    obtain ⟨f', there, found⟩ := same.function here
    obtain ⟨entry', hentry', rfl⟩ := Option.map_eq_some_iff.1 found
    obtain ⟨entry, hentry, rfl⟩ := Option.map_eq_some_iff.1 (here : _ = some _)
    have equal : entry.signature.name = record.name := by simpa [hentry] using named
    rw [equal] at hentry'
    exact ⟨_, entry', here, there, made, hentry'⟩
  cases kind with
  | builtin type => simp [definedPorts] at defined
  | call f =>
    obtain ⟨signature, entry', here, there, rfl, found⟩ := function rfl named
    refine ⟨.call entry'.id, .call here there, ?_, ?_⟩
    · simp [Format.definedKind?, code, NodeKind.code, found]
    · rw [definedPorts_of_function next rfl, there]
      rfl
  | functionInput f =>
    obtain ⟨signature, entry', here, there, rfl, found⟩ := function rfl named
    refine ⟨.functionInput entry'.id, .functionInput here there, ?_, ?_⟩
    · simp [Format.definedKind?, code, NodeKind.code, found]
    · rw [definedPorts_of_function next rfl, there]
      rfl
  | functionOutput f =>
    obtain ⟨signature, entry', here, there, rfl, found⟩ := function rfl named
    refine ⟨.functionOutput entry'.id, .functionOutput here there, ?_, ?_⟩
    · simp [Format.definedKind?, code, NodeKind.code, found]
    · rw [definedPorts_of_function next rfl, there]
      rfl
  | construct s =>
    rw [definedPorts_construct] at defined
    cases here : graph.schemaAt? s with
    | none => simp [here] at defined
    | some schema =>
      rw [here] at defined
      obtain rfl := Except.ok.inj defined
      obtain ⟨s', there, found⟩ := same.struct here
      obtain ⟨entry', hentry', rfl⟩ := Option.map_eq_some_iff.1 found
      have equal : schema.name = record.name := by
        obtain ⟨entry, hentry, rfl⟩ := Option.map_eq_some_iff.1 here
        simpa [nameOf?, hentry] using named
      refine ⟨.construct entry'.id, .construct here there, ?_, ?_⟩
      · simp [Format.definedKind?, code, NodeKind.code, ← equal, hentry']
      · rw [definedPorts_construct, there]

/-- Whether a registry does not know the type of a node. -/
def Registry.lacks (registry : Registry) (node : Node) : Bool :=
  match node.kind with
  | .builtin type => (registry.behavior? type).isNone
  | _ => false

variable {reader : Registry}

theorem Format.rereadNode_of_lacks {ranks : Array (Option Nat)} {node : Node} {record : NodeRecord}
    (lacks : reader.lacks node)
    (recorded : graph.record? ranks registry current node = some record) :
    rereadNode reader next node record = some none := by
  obtain ⟨name, named, rfl⟩ := Option.map_eq_some_iff.1 recorded
  unfold Registry.lacks at lacks
  split at lacks
  · rename_i type kind
    obtain rfl : type = name := by simpa [kind, nameOf?] using named
    have unknown : reader.behavior? type = none := by simpa using lacks
    simp [rereadNode, kind, NodeKind.code, unknown]
  · simp at lacks

/-- A node whose type is known is read back with the ports and the literals that it has. -/
theorem Format.rereadNode_eq (formed : graph.WellFormed admits) (settled : graph.Settled registry)
    (same : graph.SameDeclarations next) (within : reader.Within registry) {id : NodeId}
    {node : Node} {record : NodeRecord} (live : graph.node? id = some node)
    (known : reader.lacks node = false)
    (recorded : graph.record? graph.ranks registry current node = some record)
    (shallow : ∀ inset ∈ insetsOf node, inset.2.levels ≤ maxNesting) :
    ∃ kind, graph.Alike next node.kind kind ∧ rereadNode reader next node record =
      some (some (.ofPorts kind node.config node.ports node.position, insetsOf node)) := by
  obtain ⟨name, named, made⟩ := Option.map_eq_some_iff.1 recorded
  obtain ⟨rfl, code, position⟩ :
      name = record.name ∧ record.kind = node.kind.code ∧ record.position = node.position := by
    rw [← made]
    exact ⟨rfl, rfl, rfl⟩
  have insets := rereadInsets_eq_some_iff.2 ⟨rfl, shallow⟩
  have fit := formed.fit (form?_eq_of_node? live)
  unfold rereadNode
  by_cases builtin : ∃ type, node.kind = .builtin type
  · obtain ⟨type, kind⟩ := builtin
    obtain ⟨behavior, found, ports⟩ :=
      settled.builtins id node.form type (form?_eq_of_node? live) kind
    have typeName : type = record.name := by simpa [kind, nameOf?] using named
    have read : reader.behavior? type = some behavior := by
      obtain ⟨behavior', found'⟩ : ∃ behavior', reader.behavior? type = some behavior' := by
        simpa [Registry.lacks, kind, Option.isSome_iff_exists] using known
      rw [found', ← found, within type behavior' found']
    refine ⟨.builtin type, by rw [kind]; exact .builtin type, ?_⟩
    rw [if_pos (by rw [code, kind]; rfl), ← typeName, read, insets, same.schemas, position]
    rw [show node.form.config = node.config from rfl] at ports
    simp only [Option.map_some, ports]
    rfl
  · have defined : graph.definedPorts node.kind = .ok node.ports ∧ node.config = .null := by
      unfold Fits at fit
      cases kind : node.kind with
      | builtin type => exact absurd ⟨type, kind⟩ builtin
      | _ => simpa [Node.form, kind] using fit
    have notBuiltin : record.kind ≠ 0 := by
      rw [code]
      cases kind : node.kind with
      | builtin type => exact absurd ⟨type, kind⟩ builtin
      | _ => simp [NodeKind.code]
    obtain ⟨kind, alike, found, ports⟩ := same.definedKind? defined.1 named code
    refine ⟨kind, alike, ?_⟩
    rw [if_neg notBuiltin, found, insets, position]
    simp only [ports, defined.2, Option.map_some]

private def pushed (graph : Graph) (node : Node) (kind : NodeKind) (inputs : List Input) : Graph :=
  (graph.push { node.bare with kind, inputs }).2

private theorem modify_append {α : Type} (before : List α) (a : α) (after : List α) (f : α → α) :
    (before ++ a :: after).modify before.length f = before ++ f a :: after := by
  induction before with
  | nil => rfl
  | cons b before ih => rw [List.cons_append, List.length_cons, List.modify_succ_cons, ih,
      List.cons_append]

private theorem modifyNode_push (graph : Graph) (node : Node) (change : Node → Node) :
    (graph.push node).2.modifyNode ⟨graph.arena.size⟩ change = (graph.push (change node)).2 := by
  refine ext_node? (by simp [push]) (fun id => ?_) rfl rfl rfl
  rw [node?_modifyNode, node?_push, node?_push, node?_push, if_pos rfl]
  split <;> rfl

private theorem setInset_of_accepts {target : InputRef} {input : Input} {value : Value}
    (found : graph.input? target = some input) (accepts : input.port.type.accepts value = true) :
    graph.setInset target (some value) =
      .ok (graph.modifyInput target fun input => { input with inset := some value }) := by
  rw [setInset, input_eq_ok_iff.2 found]
  simp [bind, Except.bind, accepts, pure, Except.pure]

private def Input.bare (input : Input) : Input := { input with wires := [] }

/-- The literals of the inputs that are left are set one after the other. -/
private theorem setInsets_pushed {node : Node} {kind : NodeKind} (before after : List Input)
    (accepted : ∀ input ∈ after, ∀ value, input.inset = some value →
      input.port.type.accepts value = true) :
    ((after.zipIdx before.length).filterMap fun (input, slot) =>
        input.inset.map (slot, ·)).foldl (setInsetIfFits ⟨graph.arena.size⟩)
        (pushed graph node kind
          (before.map Input.bare ++ after.map fun input => { port := input.port })) =
      pushed graph node kind ((before ++ after).map Input.bare) := by
  induction after generalizing before with
  | nil => simp
  | cons input after ih =>
    rw [List.forall_mem_cons] at accepted
    have next := ih (before ++ [input]) accepted.2
    rw [List.length_append, List.length_singleton, List.append_assoc, List.singleton_append] at next
    rw [List.zipIdx_cons, ← next, List.map_append, List.map_singleton, List.append_assoc,
      List.map_cons]
    cases inset : input.inset with
    | none =>
      rw [List.filterMap_cons_none (by simp [inset])]
      simp [Input.bare, inset]
    | some value =>
      rw [List.filterMap_cons_some (b := (before.length, value)) (by simp [inset]), List.foldl_cons]
      congr 1
      have found : (pushed graph node kind (before.map Input.bare ++ { port := input.port } ::
          after.map fun input => { port := input.port })).input?
          ⟨⟨graph.arena.size⟩, before.length⟩ = some { port := input.port } := by
        rw [input?, pushed, node?_push, if_pos rfl, Option.bind_some,
          List.getElem?_append_right (by simp)]
        simp
      rw [setInsetIfFits, setInset_of_accepts found (accepted.1 value inset)]
      rw [modifyInput, pushed, modifyNode_push, pushed]
      dsimp only
      have length : before.length = (before.map Input.bare).length := by simp
      rw [length, modify_append]
      simp [Input.bare, inset]

theorem Format.Loading.place_node (loading : Loading) (record : NodeRecord) {node : Node}
    (kind : NodeKind) (accepted : ∀ input ∈ node.inputs, ∀ value, input.inset = some value →
      input.port.type.accepts value = true) :
    loading.place record
        (some (.ofPorts kind node.config node.ports node.position, insetsOf node)) =
      { graph := (loading.graph.push { node.bare with kind }).2
        placed := loading.placed.push (some ⟨loading.graph.arena.size⟩)
        pending := loading.pending ++ record.inputs.zipIdx.flatMap fun (wires, slot) =>
          wires.map (loading.placed.size, slot, ·) } := by
  have placed : (insetsOf node).foldl (setInsetIfFits ⟨loading.graph.arena.size⟩)
      (loading.graph.push (.ofPorts kind node.config node.ports node.position)).2 =
        (loading.graph.push { node.bare with kind }).2 := by
    have inputs : node.ports.inputs.map (fun port => ({ port } : Input)) =
        node.inputs.map fun input => { port := input.port } := by simp [Node.ports]
    have outputs : node.ports.outputs.map (fun port => ({ port } : Output)) =
        node.outputs.map fun output => { output with targets := [] } := by simp [Node.ports]
    rw [Node.ofPorts, inputs, outputs]
    exact setInsets_pushed [] node.inputs accepted
  obtain ⟨graph, ids, pending⟩ := loading
  simp only [place]
  exact congrArg (fun graph => Loading.mk graph _ _) placed

/-- The wires of the nodes of a table, the first of which has the given number. -/
def Format.wiresFrom (first : Nat) (records : List NodeRecord) : List PendingWire :=
  (records.zipIdx first).flatMap fun (record, consumer) =>
    record.inputs.zipIdx.flatMap fun (wires, slot) => wires.map (consumer, slot, ·)

def Graph.Copied (graph next : Graph) (node copy : Node) : Prop :=
  ∃ kind, graph.Alike next node.kind kind ∧ copy = { node.bare with kind }

theorem Format.rereadNode_congr (same : graph.SameDefinitions next) (node : Node)
    (record : NodeRecord) :
    rereadNode registry next node record = rereadNode registry graph node record := by
  have ports (kind : NodeKind) := definedPorts_of_definitions same.1 same.2 kind
  have schemas : next.schemas = graph.schemas := by rw [schemas, schemas, same.2]
  unfold rereadNode
  rw [definedKind?_congr same, schemas]
  simp only [ports]

/-- Where the nodes of a table come to stand, the first of them at the given place, with a gap for
each one whose type is not known. -/
def Format.places (reader : Registry) : Nat → List Node → List (Option NodeId)
  | _, [] => []
  | first, node :: nodes =>
    if reader.lacks node then none :: places reader first nodes
    else some ⟨first⟩ :: places reader (first + 1) nodes

/-- All nodes whose types are known are read back one after the other. -/
theorem Format.rereadNodes_eq (formed : graph.WellFormed admits) (settled : graph.Settled registry)
    (same : graph.SameDeclarations next) (within : reader.Within registry)
    {items : List (Node × NodeRecord)} (sub : ∀ item ∈ items, item ∈ graph.items registry)
    (shallow : ∀ item ∈ items, ∀ inset ∈ insetsOf item.1, inset.2.levels ≤ maxNesting)
    {loading : Loading} (definitions : next.SameDefinitions loading.graph) :
    ∃ last copies, items.foldlM (Loading.reread reader) loading = some last ∧
      List.Forall₂ (graph.Copied next) ((items.map (·.1)).filter fun node => !reader.lacks node)
        copies ∧
      next.SameDefinitions last.graph ∧
      last.graph.arena.toList = loading.graph.arena.toList ++ copies.map some ∧
      last.placed.toList = loading.placed.toList ++
        places reader loading.graph.arena.size (items.map (·.1)) ∧
      last.pending.toList = loading.pending.toList ++
        wiresFrom loading.placed.size (items.map (·.2)) := by
  induction items generalizing loading with
  | nil => exact ⟨loading, [], rfl, .nil, definitions, by simp, by simp [places],
      by simp [wiresFrom]⟩
  | cons item items ih =>
    rw [List.forall_mem_cons] at sub shallow
    obtain ⟨id, mem, recorded⟩ := mem_items.1 sub.1
    have live := mem_live.1 mem
    rw [List.map_cons, List.map_cons, List.foldlM_cons, places]
    by_cases lacks : reader.lacks item.1
    · have first : loading.reread reader item = some (loading.place item.2 none) := by
        rw [Loading.reread, rereadNode_of_lacks lacks recorded]
        rfl
      obtain ⟨last, copies, rest, copied, definitions', arena, ids, pending⟩ :=
        @ih sub.2 shallow.2 (loading.place item.2 none) definitions
      rw [first, List.filter_cons_of_neg (by simp [lacks]), if_pos lacks]
      refine ⟨last, copies, rest, copied, definitions', arena, ?_, ?_⟩
      · simp [ids, Loading.place]
      · simp [pending, wiresFrom, Loading.place]
    · have known : reader.lacks item.1 = false := by simpa using lacks
      obtain ⟨kind, alike, read⟩ :=
        rereadNode_eq formed settled same within live known recorded shallow.1
      have accepted : ∀ input ∈ item.1.inputs, ∀ value, input.inset = some value →
          input.port.type.accepts value = true := by
        intro input hi value hv
        obtain ⟨slot, hslot⟩ := List.mem_iff_getElem?.1 hi
        exact formed.insets ⟨id, slot⟩ input value (by rw [input?, live]; exact hslot) hv
      have placed := loading.place_node item.2 kind accepted
      have first : loading.reread reader item = some (loading.place item.2
          (some (.ofPorts kind item.1.config item.1.ports item.1.position, insetsOf item.1))) := by
        rw [Loading.reread, rereadNode_congr definitions, read]
        rfl
      have onwards : next.SameDefinitions (loading.graph.push { item.1.bare with kind }).2 :=
        definitions
      obtain ⟨last, copies, rest, copied, definitions', arena, ids, pending⟩ :=
        @ih sub.2 shallow.2
          (.mk _ (loading.placed.push (some ⟨loading.graph.arena.size⟩)) _) onwards
      rw [first, placed, List.filter_cons_of_pos (by simp [known]), if_neg lacks]
      refine ⟨last, { item.1.bare with kind } :: copies, rest, .cons ⟨kind, alike, rfl⟩ copied,
        definitions', ?_, ?_, ?_⟩
      · simp [arena, push]
      · simp [ids, push]
      · simp [pending, wiresFrom]

end NodeScript
