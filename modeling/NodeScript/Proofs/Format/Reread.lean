import NodeScript.Proofs.Format.Tables
import NodeScript.Proofs.Graph.Edit

/-!
When a graph is read back. The structs of a graph that can be written stand in an order in which
each is known to those behind it, so that its definitions are read back unless a type of theirs is
nested too deeply; its nodes are read back unless a literal is. Main statement:
`Graph.reread_isSome_iff`.
-/

set_option autoImplicit false
set_option relaxedAutoImplicit false

namespace NodeScript

open Format

namespace Graph

theorem find?_schemas (graph : Graph) (name : String) :
    Schema.find? graph.schemas name = (graph.structNamed? name).map (·.schema) := by
  rw [Schema.find?, schemas, List.find?_map]
  rfl

def KnowsStructs (graph : Graph) (names : List String) : Prop :=
  ∀ name, (graph.structNamed? name).isSome ↔ name ∈ names

def KnowsFunctions (graph : Graph) (names : List String) : Prop :=
  ∀ name, (graph.functionNamed? name).isSome ↔ name ∈ names

variable {graph next : Graph}

theorem KnowsStructs.withStruct {names : List String} (knows : graph.KnowsStructs names)
    (schema : Schema) : (graph.withStruct schema).KnowsStructs (schema.name :: names) := by
  intro name
  rw [List.mem_cons, ← knows name, structNamed?, structNamed?, Graph.withStruct,
    List.find?_append]
  cases graph.structs.find? (·.schema.name == name) <;> simp [eq_comm (a := name)]

theorem KnowsFunctions.withFunction {names : List String} (knows : graph.KnowsFunctions names)
    (signature : Signature) :
    (graph.withFunction signature).KnowsFunctions (signature.name :: names) := by
  intro name
  rw [List.mem_cons, ← knows name, functionNamed?, functionNamed?, Graph.withFunction,
    List.find?_append]
  cases graph.functions.find? (·.signature.name == name) <;> simp [eq_comm (a := name)]

theorem firstUndeclared?_eq_none_iff {types : List DataType} {written : List String} :
    firstUndeclared? types written = none ↔
      ∀ type ∈ types, ∀ schema, type.schema? = some schema → schema.name ∈ written := by
  simp only [firstUndeclared?, Option.map_eq_none_iff, List.find?_eq_none, List.mem_filterMap,
    Bool.not_eq_true', List.contains_eq_mem, decide_eq_false_iff_not, not_not]
  constructor
  · intro h type ht schema hs
    exact h schema ⟨type, ht, hs⟩
  · rintro h schema ⟨type, ht, hs⟩
    exact h type ht schema hs

theorem structOrderFault?_cons_eq_none_iff {written : List String} {entry : StructEntry}
    {rest : List StructEntry} : structOrderFault? written (entry :: rest) = none ↔
      (∀ type ∈ entry.schema.fields.map Field.type, ∀ schema, type.schema? = some schema →
        schema.name ∈ written) ∧ structOrderFault? (entry.schema.name :: written) rest = none := by
  rw [← firstUndeclared?_eq_none_iff, structOrderFault?]
  cases firstUndeclared? (entry.schema.fields.map Field.type) written <;> simp

theorem functionFault?_eq_none_iff : graph.functionFault? = none ↔
    ∀ entry ∈ graph.functions, ∀ type ∈ entry.signature.types, ∀ schema,
      type.schema? = some schema → schema.name ∈ graph.schemas.map (·.name) := by
  simp only [functionFault?, List.findSome?_eq_none_iff, Option.map_eq_none_iff,
    firstUndeclared?_eq_none_iff]

private theorem isSome_mapM_iff {α β : Type} {f : α → Option β} {items : List α} :
    (items.mapM f).isSome ↔ ∀ a ∈ items, (f a).isSome := by
  induction items with
  | nil => simp
  | cons a items ih =>
    rw [List.mapM_cons, List.forall_mem_cons, ← ih]
    cases f a <;> cases items.mapM f <;> simp

theorem isSome_rereadFields_iff {names : List String} (knows : graph.KnowsStructs names)
    (fields : List Field)
    (known : ∀ type ∈ fields.map Field.type, ∀ schema, type.schema? = some schema →
      schema.name ∈ names) :
    (fields.mapM (Field.reread graph.schemas)).isSome ↔
      ∀ field ∈ fields, field.type.levels ≤ maxNesting := by
  rw [isSome_mapM_iff]
  refine forall₂_congr fun field hf => ?_
  rw [Field.reread, Option.isSome_map, DataType.reread_isSome_iff, and_iff_left_iff_imp]
  intro _ schema hs
  rw [find?_schemas, Option.isSome_map, knows]
  exact known _ (List.mem_map_of_mem hf) schema hs

theorem rereadSchema_eq_some_iff {schema : Schema} : graph.rereadSchema schema = some next ↔
    ∃ fields, schema.fields.mapM (Field.reread graph.schemas) = some fields ∧
      graph.structNamed? schema.name = none ∧ next = graph.withStruct ⟨schema.name, fields⟩ := by
  unfold rereadSchema
  cases schema.fields.mapM (Field.reread graph.schemas) with
  | none => simp
  | some fields =>
    simp only [Option.bind_eq_bind, Option.bind_some, Option.some.injEq, exists_eq_left']
    cases declared : graph.declareStruct { name := schema.name, fields } with
    | error reason =>
      simp only [reduceCtorEq, false_iff, not_and]
      intro fresh
      simp [declareStruct, fresh] at declared
    | ok added =>
      obtain ⟨fresh, -, same⟩ := declareStruct_eq_ok_iff.1 declared
      rw [Option.some.injEq, and_iff_right fresh, ← same, eq_comm]

theorem rereadSignature_eq_some_iff {signature : Signature} :
    graph.rereadSignature signature = some next ↔
      ∃ inputs outputs, signature.inputs.mapM (Field.reread graph.schemas) = some inputs ∧
        signature.outputs.mapM (Field.reread graph.schemas) = some outputs ∧
        graph.functionNamed? signature.name = none ∧
        next = graph.withFunction ⟨signature.name, inputs, outputs⟩ := by
  unfold rereadSignature
  cases signature.inputs.mapM (Field.reread graph.schemas) with
  | none => simp
  | some inputs =>
    cases signature.outputs.mapM (Field.reread graph.schemas) with
    | none => simp
    | some outputs =>
      simp only [Option.bind_eq_bind, Option.bind_some, Option.some.injEq, exists_eq_left',
        exists_and_left]
      cases declared : graph.declareFunction { name := signature.name, inputs, outputs } with
      | error reason =>
        simp only [reduceCtorEq, false_iff, not_and]
        intro fresh
        simp [declareFunction, fresh] at declared
      | ok added =>
        obtain ⟨fresh, -, same⟩ := declareFunction_eq_ok_iff.1 declared
        rw [Option.some.injEq, and_iff_right fresh, ← same, eq_comm]

private theorem isSome_foldlM_cons_iff {α σ : Type} {step : σ → α → Option σ} {state : σ} {a : α}
    {items : List α} : ((a :: items).foldlM step state).isSome ↔
      ∃ next, step state a = some next ∧ (items.foldlM step next).isSome := by
  rw [List.foldlM_cons]
  cases step state a <;> simp

theorem isSome_rereadSchemas_iff {names : List String} {entries : List StructEntry}
    (knows : graph.KnowsStructs names) (ordered : structOrderFault? names entries = none)
    (apart : (entries.map (·.schema.name)).Nodup)
    (fresh : ∀ entry ∈ entries, entry.schema.name ∉ names) :
    ((entries.map (·.schema)).foldlM rereadSchema graph).isSome ↔
      ∀ entry ∈ entries, ∀ field ∈ entry.schema.fields, field.type.levels ≤ maxNesting := by
  induction entries generalizing graph names with
  | nil => simp
  | cons entry entries ih =>
    obtain ⟨here, ordered⟩ := structOrderFault?_cons_eq_none_iff.1 ordered
    rw [List.map_cons, List.nodup_cons] at apart
    rw [List.map_cons, isSome_foldlM_cons_iff, List.forall_mem_cons,
      ← isSome_rereadFields_iff knows _ here]
    have unknown : graph.structNamed? entry.schema.name = none := by
      rw [← Option.not_isSome_iff_eq_none, knows]
      exact fresh entry List.mem_cons_self
    have onwards (fields : List Field) := ih (knows.withStruct ⟨entry.schema.name, fields⟩) ordered
      apart.2 fun other ho known => by
        rcases List.mem_cons.1 known with same | known
        · refine apart.1 ?_
          rw [← same]
          exact List.mem_map_of_mem ho
        · exact fresh other (List.mem_cons_of_mem _ ho) known
    simp only [rereadSchema_eq_some_iff, unknown, true_and]
    constructor
    · rintro ⟨next, ⟨fields, found, rfl⟩, rest⟩
      exact ⟨by rw [found]; rfl, (onwards fields).1 rest⟩
    · rintro ⟨found, rest⟩
      obtain ⟨fields, found⟩ := Option.isSome_iff_exists.1 found
      exact ⟨_, ⟨fields, found, rfl⟩, (onwards fields).2 rest⟩

theorem rereadSchemas_knows {names : List String} {entries : List StructEntry}
    (knows : graph.KnowsStructs names)
    (read : (entries.map (·.schema)).foldlM rereadSchema graph = some next) :
    next.KnowsStructs ((entries.map (·.schema.name)).reverse ++ names) ∧
      next.functions = graph.functions ∧ next.arena = graph.arena := by
  induction entries generalizing graph names with
  | nil =>
    cases read
    exact ⟨knows, rfl, rfl⟩
  | cons entry entries ih =>
    rw [List.map_cons, List.foldlM_cons, Option.bind_eq_bind, Option.bind_eq_some_iff] at read
    obtain ⟨first, added, read⟩ := read
    obtain ⟨fields, -, -, rfl⟩ := rereadSchema_eq_some_iff.1 added
    obtain ⟨knows, functions, arena⟩ := ih (knows.withStruct ⟨entry.schema.name, fields⟩) read
    rw [List.map_cons, List.reverse_cons, List.append_assoc]
    exact ⟨knows, functions, arena⟩

theorem isSome_rereadSignatures_iff {structs names : List String} {entries : List FunctionEntry}
    (knowsStructs : graph.KnowsStructs structs) (knows : graph.KnowsFunctions names)
    (mentioned : ∀ entry ∈ entries, ∀ type ∈ entry.signature.types, ∀ schema,
      type.schema? = some schema → schema.name ∈ structs)
    (apart : (entries.map (·.signature.name)).Nodup)
    (fresh : ∀ entry ∈ entries, entry.signature.name ∉ names) :
    ((entries.map (·.signature)).foldlM rereadSignature graph).isSome ↔
      ∀ entry ∈ entries, ∀ type ∈ entry.signature.types, type.levels ≤ maxNesting := by
  induction entries generalizing graph names with
  | nil => simp
  | cons entry entries ih =>
    rw [List.forall_mem_cons] at mentioned
    rw [List.map_cons, List.nodup_cons] at apart
    have unknown : graph.functionNamed? entry.signature.name = none := by
      rw [← Option.not_isSome_iff_eq_none, knows]
      exact fresh entry List.mem_cons_self
    have onwards (inputs outputs : List Field) :=
      ih (show (graph.withFunction ⟨entry.signature.name, inputs, outputs⟩).KnowsStructs structs
          from knowsStructs) (knows.withFunction _) mentioned.2 apart.2 fun other ho known => by
          rcases List.mem_cons.1 known with same | known
          · refine apart.1 ?_
            rw [← same]
            exact List.mem_map_of_mem ho
          · exact fresh other (List.mem_cons_of_mem _ ho) known
    have inputs := isSome_rereadFields_iff knowsStructs entry.signature.inputs
      fun type ht => mentioned.1 type (by
        rw [Signature.types, List.map_append]
        exact List.mem_append_left _ ht)
    have outputs := isSome_rereadFields_iff knowsStructs entry.signature.outputs
      fun type ht => mentioned.1 type (by
        rw [Signature.types, List.map_append]
        exact List.mem_append_right _ ht)
    have shallow : (∀ type ∈ entry.signature.types, type.levels ≤ maxNesting) ↔
        (entry.signature.inputs.mapM (Field.reread graph.schemas)).isSome ∧
          (entry.signature.outputs.mapM (Field.reread graph.schemas)).isSome := by
      rw [inputs, outputs, Signature.types, List.forall_mem_map, List.forall_mem_append]
    rw [List.map_cons, isSome_foldlM_cons_iff, List.forall_mem_cons, shallow]
    simp only [rereadSignature_eq_some_iff, unknown, true_and]
    constructor
    · rintro ⟨next, ⟨inputs, outputs, hi, ho, rfl⟩, rest⟩
      exact ⟨⟨by rw [hi]; rfl, by rw [ho]; rfl⟩, (onwards inputs outputs).1 rest⟩
    · rintro ⟨⟨hi, ho⟩, rest⟩
      obtain ⟨inputs, hi⟩ := Option.isSome_iff_exists.1 hi
      obtain ⟨outputs, ho⟩ := Option.isSome_iff_exists.1 ho
      exact ⟨_, ⟨inputs, outputs, hi, ho, rfl⟩, (onwards inputs outputs).2 rest⟩

theorem rereadSignatures_knows {names : List String} {entries : List FunctionEntry}
    (knows : graph.KnowsFunctions names)
    (read : (entries.map (·.signature)).foldlM rereadSignature graph = some next) :
    next.KnowsFunctions ((entries.map (·.signature.name)).reverse ++ names) ∧
      next.structs = graph.structs ∧ next.arena = graph.arena := by
  induction entries generalizing graph names with
  | nil =>
    cases read
    exact ⟨knows, rfl, rfl⟩
  | cons entry entries ih =>
    rw [List.map_cons, List.foldlM_cons, Option.bind_eq_bind, Option.bind_eq_some_iff] at read
    obtain ⟨first, added, read⟩ := read
    obtain ⟨inputs, outputs, -, -, -, rfl⟩ := rereadSignature_eq_some_iff.1 added
    obtain ⟨knows, structs, arena⟩ :=
      ih (knows.withFunction ⟨entry.signature.name, inputs, outputs⟩) read
    rw [List.map_cons, List.reverse_cons, List.append_assoc]
    exact ⟨knows, structs, arena⟩

theorem mem_insetsOf {node : Node} {inset : Nat × Value} : inset ∈ insetsOf node ↔
    ∃ input, node.inputs[inset.1]? = some input ∧ input.inset = some inset.2 := by
  simp only [insetsOf, List.mem_filterMap, Prod.exists, List.mem_zipIdx_iff_getElem?,
    Option.map_eq_some_iff]
  constructor
  · rintro ⟨input, slot, hi, value, hv, rfl⟩
    exact ⟨input, hi, hv⟩
  · rintro ⟨input, hi, hv⟩
    exact ⟨input, inset.1, hi, inset.2, hv, rfl⟩

end Graph

open NodeScript.Graph

variable {registry : Registry} {graph next : Graph}

theorem Format.rereadInsets_eq_some_iff {insets read : List (Nat × Value)} :
    rereadInsets insets = some read ↔
      read = insets ∧ ∀ inset ∈ insets, inset.2.levels ≤ maxNesting := by
  induction insets generalizing read with
  | nil => simp [rereadInsets, eq_comm]
  | cons inset insets ih =>
    unfold rereadInsets at ih ⊢
    rw [List.mapM_cons, Value.within, List.forall_mem_cons]
    by_cases here : inset.2.levels ≤ maxNesting
    · simp only [here, if_true, Option.map_some, Option.bind_eq_bind, Option.bind_some,
        Option.bind_eq_some_iff, ih, true_and]
      constructor
      · rintro ⟨_, ⟨rfl, rest⟩, same⟩
        exact ⟨(Option.some.inj same).symm, rest⟩
      · rintro ⟨rfl, rest⟩
        exact ⟨insets, ⟨rfl, rest⟩, rfl⟩
    · simp [here]

theorem Format.isSome_rereadInsets_iff {insets : List (Nat × Value)} :
    (rereadInsets insets).isSome ↔ ∀ inset ∈ insets, inset.2.levels ≤ maxNesting := by
  simp [Option.isSome_iff_exists, rereadInsets_eq_some_iff]

/-- The type or the definition of a node is known. -/
structure Format.Known (registry : Registry) (graph : Graph) (record : NodeRecord) : Prop where
  builtin : record.kind = 0 → (registry.behavior? record.name).isSome
  defined : record.kind ≠ 0 → (definedKind? graph record).isSome

theorem Format.isSome_rereadNode_iff {node : Node} {record : NodeRecord}
    (known : Known registry graph record) : (rereadNode registry graph node record).isSome ↔
      ∀ inset ∈ insetsOf node, inset.2.levels ≤ maxNesting := by
  rw [← isSome_rereadInsets_iff]
  unfold rereadNode
  by_cases builtin : record.kind = 0
  · obtain ⟨behavior, found⟩ := Option.isSome_iff_exists.1 (known.builtin builtin)
    rw [if_pos builtin, found, Option.isSome_map]
  · obtain ⟨kind, found⟩ := Option.isSome_iff_exists.1 (known.defined builtin)
    rw [if_neg builtin, found, Option.isSome_map]

/-- The definitions of two graphs are the same. -/
def Graph.SameDefinitions (graph next : Graph) : Prop :=
  next.functions = graph.functions ∧ next.structs = graph.structs

theorem Format.definedKind?_congr (same : graph.SameDefinitions next) (record : NodeRecord) :
    definedKind? next record = definedKind? graph record := by
  unfold definedKind? functionNamed? structNamed?
  rw [same.1, same.2]

theorem Graph.SameDefinitions.trans {last : Graph} (first : graph.SameDefinitions next)
    (second : next.SameDefinitions last) : graph.SameDefinitions last := by
  exact ⟨second.1.trans first.1, second.2.trans first.2⟩

theorem Format.setInsetIfFits_definitions (id : NodeId) (graph : Graph) (inset : Nat × Value) :
    graph.SameDefinitions (setInsetIfFits id graph inset) := by
  unfold setInsetIfFits
  split
  · rename_i next accepted
    obtain ⟨-, -, -, rfl⟩ := setInset_eq_ok accepted
    exact ⟨rfl, rfl⟩
  · exact ⟨rfl, rfl⟩

theorem Format.setInsets_definitions (id : NodeId) (insets : List (Nat × Value)) (graph : Graph) :
    graph.SameDefinitions (insets.foldl (setInsetIfFits id) graph) := by
  induction insets generalizing graph with
  | nil => exact ⟨rfl, rfl⟩
  | cons inset insets ih => exact (setInsetIfFits_definitions id graph inset).trans (ih _)

theorem Format.Loading.place_definitions (loading : Loading) (record : NodeRecord)
    (node? : Option (Node × List (Nat × Value))) :
    loading.graph.SameDefinitions (loading.place record node?).graph := by
  cases node? with
  | none => exact ⟨rfl, rfl⟩
  | some placed => exact setInsets_definitions ⟨loading.graph.arena.size⟩ placed.2 _

theorem Format.Known.congr {record : NodeRecord} (known : Known registry graph record)
    (same : graph.SameDefinitions next) : Known registry next record := by
  refine ⟨known.builtin, ?_⟩
  intro defined
  rw [definedKind?_congr same]
  exact known.defined defined

theorem Format.isSome_rereadNodes_iff {items : List (Node × NodeRecord)} {loading : Loading}
    (known : ∀ item ∈ items, Known registry loading.graph item.2) :
    (items.foldlM (Loading.reread registry) loading).isSome ↔
      ∀ item ∈ items, ∀ inset ∈ insetsOf item.1, inset.2.levels ≤ maxNesting := by
  induction items generalizing loading with
  | nil => simp
  | cons item items ih =>
    rw [List.forall_mem_cons] at known
    rw [isSome_foldlM_cons_iff, List.forall_mem_cons, ← isSome_rereadNode_iff known.1]
    have onwards (node? : Option (Node × List (Nat × Value))) :
        (items.foldlM (Loading.reread registry) (loading.place item.2 node?)).isSome ↔
          ∀ item ∈ items, ∀ inset ∈ insetsOf item.1, inset.2.levels ≤ maxNesting :=
      ih fun other ho => (known.2 other ho).congr (loading.place_definitions item.2 node?)
    constructor
    · rintro ⟨next, placed, rest⟩
      obtain ⟨node?, found, rfl⟩ := Option.map_eq_some_iff.1 placed
      exact ⟨by rw [found]; rfl, (onwards node?).1 rest⟩
    · rintro ⟨found, rest⟩
      obtain ⟨node?, found⟩ := Option.isSome_iff_exists.1 found
      exact ⟨loading.place item.2 node?, Option.map_eq_some_iff.2 ⟨node?, found, rfl⟩,
        (onwards node?).2 rest⟩

namespace Graph

/-- No type of a definition and no literal is nested deeper than that many levels. -/
@[mk_iff] structure NestedWithin (n : Nat) (graph : Graph) : Prop where
  fields : ∀ entry ∈ graph.structs, ∀ field ∈ entry.schema.fields, field.type.levels ≤ n
  parameters : ∀ entry ∈ graph.functions, ∀ type ∈ entry.signature.types, type.levels ≤ n
  insets : ∀ (ref : InputRef) (input : Input) (value : Value), graph.input? ref = some input →
    input.inset = some value → value.levels ≤ n

theorem insets_nested_iff {n : Nat} : (∀ (ref : InputRef) (input : Input) (value : Value),
      graph.input? ref = some input → input.inset = some value → value.levels ≤ n) ↔
    ∀ entry ∈ graph.live, ∀ input ∈ entry.2.inputs, ∀ value ∈ input.inset, value.levels ≤ n := by
  constructor
  · rintro nested ⟨id, node⟩ mem input hi value hv
    obtain ⟨slot, hslot⟩ := List.mem_iff_getElem?.1 hi
    exact nested ⟨id, slot⟩ input value (by rw [input?, mem_live.1 mem]; exact hslot) hv
  · intro nested ref input value hi hv
    obtain ⟨node, hn, hslot⟩ := Option.bind_eq_some_iff.1 hi
    exact nested _ (mem_live.2 hn) input (List.mem_of_getElem? hslot) value hv

instance (n : Nat) (graph : Graph) : Decidable (graph.NestedWithin n) :=
  have : Decidable (∀ (ref : InputRef) (input : Input) (value : Value),
      graph.input? ref = some input → input.inset = some value → value.levels ≤ n) :=
    decidable_of_iff _ insets_nested_iff.symm
  decidable_of_iff _ (nestedWithin_iff n graph).symm

/-- The types and the definitions of the nodes of a graph are known where its definitions are. -/
theorem WellFormed.known (formed : graph.WellFormed registry.Canonical)
    (structs : next.KnowsStructs (graph.structs.map (·.schema.name)))
    (functions : next.KnowsFunctions (graph.functions.map (·.signature.name)))
    {item : Node × NodeRecord} (hi : item ∈ graph.items registry) :
    Known registry next item.2 := by
  obtain ⟨id, mem, recorded⟩ := mem_items.1 hi
  obtain ⟨name, named, same⟩ := Option.map_eq_some_iff.1 recorded
  have fit := formed.fit (form?_eq_of_node? (mem_live.1 mem))
  have function {f : FunctionId} (named : (graph.function? f).map (·.signature.name) = some name) :
      (next.functionNamed? name).isSome := by
    obtain ⟨entry, found, rfl⟩ := Option.map_eq_some_iff.1 named
    exact (functions _).2 (List.mem_map_of_mem (List.mem_of_find?_eq_some found))
  rw [← same]
  cases kind : item.1.kind <;> rw [kind, nameOf?] at named
  case builtin type =>
    simp only [Fits, Node.form, kind] at fit
    obtain ⟨behavior, -, -, found, -⟩ := fit
    cases named
    exact ⟨fun _ => by rw [found]; rfl, fun defined => absurd rfl defined⟩
  case construct s =>
    obtain ⟨entry, found, rfl⟩ := Option.map_eq_some_iff.1 named
    have known := (structs _).2 (List.mem_map_of_mem (List.mem_of_find?_eq_some found))
    exact ⟨fun builtin => absurd builtin (by simp [NodeKind.code]),
      fun _ => by simpa [definedKind?, kind, NodeKind.code] using known⟩
  all_goals
    exact ⟨fun builtin => absurd builtin (by simp [NodeKind.code]),
      fun _ => by simpa [definedKind?, kind, NodeKind.code] using function named⟩

private theorem isSome_reread_iff : (graph.reread registry).isSome ↔
    ∃ structs, graph.schemas.foldlM rereadSchema .empty = some structs ∧
      ∃ definitions, (graph.functions.map (·.signature)).foldlM rereadSignature structs =
        some definitions ∧
      ((graph.items registry).foldlM (Loading.reread registry)
        { graph := definitions }).isSome := by
  unfold reread rereadBy
  cases graph.schemas.foldlM rereadSchema .empty with
  | none => simp
  | some structs =>
    simp only [Option.bind_eq_bind, Option.bind_some, Option.some.injEq, exists_eq_left']
    cases (graph.functions.map (·.signature)).foldlM rereadSignature structs with
    | none => simp
    | some definitions =>
      simp only [Option.bind_some, Option.some.injEq, exists_eq_left']
      cases (graph.items registry).foldlM (Loading.reread registry) { graph := definitions } with
      | none => simp
      | some loading =>
        simp only [Option.bind_some, Option.isSome_some, iff_true]
        generalize loading.pending.foldl (connectNext loading.placed) (loading.graph, 0) = linked
        obtain ⟨completed, done, -⟩ := linked.1.completeDefinitions_isOk
        rw [done]
        rfl

theorem nested_items_iff
    (all : ∀ entry ∈ graph.live, (graph.record? graph.ranks registry current entry.2).isSome)
    {n : Nat} :
    (∀ item ∈ graph.items registry, ∀ inset ∈ insetsOf item.1, inset.2.levels ≤ n) ↔
      ∀ (ref : InputRef) (input : Input) (value : Value), graph.input? ref = some input →
        input.inset = some value → value.levels ≤ n := by
  constructor
  · intro nested ref input value hi hv
    obtain ⟨node, hn, hslot⟩ := Option.bind_eq_some_iff.1 hi
    obtain ⟨record, recorded⟩ := Option.isSome_iff_exists.1 (all _ (mem_live.2 hn))
    exact nested (node, record) (mem_items.2 ⟨_, mem_live.2 hn, recorded⟩) (ref.slot, value)
      (mem_insetsOf.2 ⟨input, hslot, hv⟩)
  · intro nested item hitem inset hinset
    obtain ⟨id, mem, -⟩ := mem_items.1 hitem
    obtain ⟨input, hslot, hv⟩ := mem_insetsOf.1 hinset
    exact nested ⟨id, inset.1⟩ input inset.2 (by rw [input?, mem_live.1 mem]; exact hslot) hv

/-- A graph that can be written is read back unless something in it is nested too deeply. -/
theorem reread_isSome_iff (formed : graph.WellFormed registry.Canonical) {file : Bytes}
    (accepted : graph.encode registry current = .ok file) :
    (graph.reread registry).isSome ↔ graph.NestedWithin maxNesting := by
  obtain ⟨fine, records, recorded, -⟩ := encode_eq_ok accepted
  obtain ⟨-, ordered, mentioned⟩ := fault?_eq_none fine
  obtain ⟨-, all⟩ := records_eq_ok recorded
  have noStructs : empty.KnowsStructs [] := by simp [KnowsStructs, empty, structNamed?]
  have noFunctions : empty.KnowsFunctions [] := by simp [KnowsFunctions, empty, functionNamed?]
  have schemas := isSome_rereadSchemas_iff noStructs ordered formed.declared.structNames
    fun _ _ => List.not_mem_nil
  have read {structs : Graph} (found : graph.schemas.foldlM rereadSchema .empty = some structs) :
      structs.KnowsStructs (graph.structs.map (·.schema.name)) ∧ structs.KnowsFunctions [] := by
    obtain ⟨knows, functions, -⟩ := rereadSchemas_knows noStructs found
    rw [List.append_nil] at knows
    refine ⟨fun name => (knows name).trans List.mem_reverse, fun name => ?_⟩
    rw [functionNamed?, functions]
    exact noFunctions name
  have signatures {structs : Graph}
      (found : graph.schemas.foldlM rereadSchema .empty = some structs) :=
    isSome_rereadSignatures_iff (read found).1 (read found).2
      (fun entry he type ht schema hs => by
        have named := functionFault?_eq_none_iff.1 mentioned entry he type ht schema hs
        rwa [Graph.schemas, List.map_map] at named)
      formed.declared.functionNames fun _ _ => List.not_mem_nil
  have nodes {structs definitions : Graph}
      (found : graph.schemas.foldlM rereadSchema .empty = some structs)
      (found' : (graph.functions.map (·.signature)).foldlM rereadSignature structs =
        some definitions) :
      ((graph.items registry).foldlM (Loading.reread registry) { graph := definitions }).isSome ↔
        ∀ (ref : InputRef) (input : Input) (value : Value), graph.input? ref = some input →
          input.inset = some value → value.levels ≤ maxNesting := by
    obtain ⟨knows, same, -⟩ := rereadSignatures_knows (read found).2 found'
    refine (isSome_rereadNodes_iff fun item hi => formed.known (fun name => ?_) (fun name => ?_)
      hi).trans (nested_items_iff all)
    · rw [structNamed?, same]
      exact (read found).1 name
    · rw [List.append_nil] at knows
      exact (knows name).trans List.mem_reverse
  rw [isSome_reread_iff]
  constructor
  · rintro ⟨structs, found, definitions, found', placed⟩
    exact ⟨schemas.1 (Option.isSome_of_eq_some found),
      (signatures found).1 (Option.isSome_of_eq_some found'), (nodes found found').1 placed⟩
  · intro nested
    obtain ⟨structs, found⟩ := Option.isSome_iff_exists.1 (schemas.2 nested.fields)
    obtain ⟨definitions, found'⟩ :=
      Option.isSome_iff_exists.1 ((signatures found).2 nested.parameters)
    exact ⟨structs, found, definitions, found', (nodes found found').2 nested.insets⟩

end Graph

end NodeScript
