import Mathlib.Data.List.Nodup
import Mathlib.Data.List.Perm.Basic
import NodeScript.Proofs.Graph.Form

/-!
The definitions of a graph. Functions and structs have addresses and names of their own, all
addresses being older than the next one. Main statements: the equations for `Graph.signature?` and
`Graph.schemaAt?` after each change of the definitions, and what a node is made of depends on
these alone (`definedPorts_congr`).
-/

set_option autoImplicit false
set_option relaxedAutoImplicit false

namespace NodeScript

private theorem find?_key_eq_some_iff {α κ : Type} [DecidableEq κ] {key : α → κ} {items : List α}
    (nodup : (items.map key).Nodup) {k : κ} {a : α} :
    items.find? (key · == k) = some a ↔ a ∈ items ∧ key a = k := by
  constructor
  · intro h
    exact ⟨List.mem_of_find?_eq_some h, by simpa using List.find?_some h⟩
  · rintro ⟨ha, rfl⟩
    cases h : items.find? (key · == key a) with
    | none => exact absurd (List.find?_eq_none.1 h a ha) (by simp)
    | some b =>
      have hb : key b = key a := by simpa using List.find?_some h
      rw [List.inj_on_of_nodup_map nodup (List.mem_of_find?_eq_some h) ha hb]

/-- The ports of a node that is made from a function. -/
def NodeKind.portsOf : NodeKind → Signature → Ports
  | functionInput _, signature => signature.inputPorts
  | functionOutput _, signature => signature.outputPorts
  | _, signature => signature.callPorts

namespace Graph

/-- The signature of the function at an address. -/
def signature? (graph : Graph) (id : FunctionId) : Option Signature :=
  (graph.function? id).map (·.signature)

/-- The schema of the struct at an address. -/
def schemaAt? (graph : Graph) (id : StructId) : Option Schema :=
  (graph.struct? id).map (·.schema)

/-- Definitions have names and addresses of their own, and the next address is new. -/
structure Declared (graph : Graph) : Prop where
  functionIds : (graph.functions.map (·.id)).Nodup
  functionNames : (graph.functions.map (·.signature.name)).Nodup
  structIds : (graph.structs.map (·.id)).Nodup
  structNames : (graph.structs.map (·.schema.name)).Nodup
  functionsOlder : ∀ entry ∈ graph.functions, entry.id.number < graph.nextDefinition
  structsOlder : ∀ entry ∈ graph.structs, entry.id.number < graph.nextDefinition

variable {graph next : Graph}

theorem Declared.function?_iff (declared : graph.Declared) {id : FunctionId}
    {entry : FunctionEntry} :
    graph.function? id = some entry ↔ entry ∈ graph.functions ∧ entry.id = id :=
  find?_key_eq_some_iff declared.functionIds

theorem Declared.struct?_iff (declared : graph.Declared) {id : StructId} {entry : StructEntry} :
    graph.struct? id = some entry ↔ entry ∈ graph.structs ∧ entry.id = id :=
  find?_key_eq_some_iff declared.structIds

theorem Declared.functionNamed?_iff (declared : graph.Declared) {name : String}
    {entry : FunctionEntry} :
    graph.functionNamed? name = some entry ↔
      entry ∈ graph.functions ∧ entry.signature.name = name :=
  find?_key_eq_some_iff declared.functionNames

theorem Declared.structNamed?_iff (declared : graph.Declared) {name : String}
    {entry : StructEntry} :
    graph.structNamed? name = some entry ↔ entry ∈ graph.structs ∧ entry.schema.name = name :=
  find?_key_eq_some_iff declared.structNames

theorem Declared.function_ne_next (declared : graph.Declared) :
    ∀ entry ∈ graph.functions, entry.id ≠ ⟨graph.nextDefinition⟩ := fun entry mem same => by
  have older := declared.functionsOlder entry mem
  simp [same] at older

theorem Declared.struct_ne_next (declared : graph.Declared) :
    ∀ entry ∈ graph.structs, entry.id ≠ ⟨graph.nextDefinition⟩ := fun entry mem same => by
  have older := declared.structsOlder entry mem
  simp [same] at older

theorem declared_empty : empty.Declared := by
  constructor <;> simp [empty]

theorem definedPorts_of_function (graph : Graph) {kind : NodeKind} {f : FunctionId}
    (h : kind.function? = some f) :
    graph.definedPorts kind =
      match graph.signature? f with
      | some signature => .ok (kind.portsOf signature)
      | none => .error (.unresolvedReference (toString f)) := by
  cases kind <;> simp only [NodeKind.function?, Option.some.injEq, reduceCtorEq] at h
  all_goals
    subst h
    rw [signature?]
    cases hf : graph.function? _ <;> simp only [definedPorts, hf] <;> rfl

theorem definedPorts_construct (graph : Graph) (s : StructId) :
    graph.definedPorts (.construct s) =
      match graph.schemaAt? s with
      | some schema => .ok schema.ports
      | none => .error (.unresolvedReference (toString s)) := by
  rw [schemaAt?]
  cases hs : graph.struct? s <;> simp only [definedPorts, hs] <;> rfl

theorem signature_of_definedPorts {kind : NodeKind} {f : FunctionId} {ports : Ports}
    (of : kind.function? = some f) (defined : graph.definedPorts kind = .ok ports) :
    ∃ signature, graph.signature? f = some signature ∧ ports = kind.portsOf signature := by
  rw [definedPorts_of_function graph of] at defined
  cases found : graph.signature? f with
  | none => simp [found] at defined
  | some signature =>
    rw [found] at defined
    exact ⟨signature, rfl, (Except.ok.inj defined).symm⟩

theorem schema_of_definedPorts {s : StructId} {ports : Ports}
    (defined : graph.definedPorts (.construct s) = .ok ports) :
    ∃ schema, graph.schemaAt? s = some schema ∧ ports = schema.ports := by
  rw [definedPorts_construct] at defined
  cases found : graph.schemaAt? s with
  | none => simp [found] at defined
  | some schema =>
    rw [found] at defined
    exact ⟨schema, rfl, (Except.ok.inj defined).symm⟩

theorem definedPorts_congr {kind : NodeKind}
    (functions : ∀ f, kind.function? = some f → next.signature? f = graph.signature? f)
    (structs : ∀ s, kind = .construct s → next.schemaAt? s = graph.schemaAt? s) :
    next.definedPorts kind = graph.definedPorts kind := by
  cases kind with
  | builtin id => rfl
  | call f | functionInput f | functionOutput f =>
    rw [definedPorts_of_function next rfl, definedPorts_of_function graph rfl, functions f rfl]
  | construct s => rw [definedPorts_construct, definedPorts_construct, structs s rfl]

theorem Declared.signature?_eq_some_iff (declared : graph.Declared) {f : FunctionId}
    {signature : Signature} : graph.signature? f = some signature ↔
      ∃ entry ∈ graph.functions, entry.id = f ∧ entry.signature = signature := by
  simp only [signature?, Option.map_eq_some_iff, declared.function?_iff, and_assoc]

theorem Declared.schemaAt?_eq_some_iff (declared : graph.Declared) {s : StructId}
    {schema : Schema} : graph.schemaAt? s = some schema ↔
      ∃ entry ∈ graph.structs, entry.id = s ∧ entry.schema = schema := by
  simp only [schemaAt?, Option.map_eq_some_iff, declared.struct?_iff, and_assoc]

theorem Declared.structName_eq_iff (declared : graph.Declared) {entry other : StructEntry}
    (he : entry ∈ graph.structs) (ho : other ∈ graph.structs) :
    entry.schema.name = other.schema.name ↔ entry.id = other.id := by
  constructor
  · intro same
    rw [List.inj_on_of_nodup_map declared.structNames he ho same]
  · intro same
    rw [List.inj_on_of_nodup_map declared.structIds he ho same]

/-- A graph with one function more, which has no nodes yet. -/
def withFunction (graph : Graph) (signature : Signature) : Graph :=
  { graph with
    functions := graph.functions ++ [{ id := ⟨graph.nextDefinition⟩, signature }]
    nextDefinition := graph.nextDefinition + 1 }

/-- A graph with one struct more, which has no constructor yet. -/
def withStruct (graph : Graph) (schema : Schema) : Graph :=
  { graph with
    structs := graph.structs ++ [{ id := ⟨graph.nextDefinition⟩, schema }]
    nextDefinition := graph.nextDefinition + 1 }

theorem schemas_withStruct (graph : Graph) (schema : Schema) :
    (graph.withStruct schema).schemas = graph.schemas ++ [schema] := by
  simp [schemas, withStruct]

theorem declareFunction_eq_ok_iff {signature : Signature} {id : FunctionId} :
    graph.declareFunction signature = .ok (id, next) ↔
      graph.functionNamed? signature.name = none ∧ id = ⟨graph.nextDefinition⟩ ∧
        next = graph.withFunction signature := by
  unfold declareFunction
  cases graph.functionNamed? signature.name <;> simp [withFunction, eq_comm]

theorem declareStruct_eq_ok_iff {schema : Schema} {id : StructId} :
    graph.declareStruct schema = .ok (id, next) ↔
      graph.structNamed? schema.name = none ∧ id = ⟨graph.nextDefinition⟩ ∧
        next = graph.withStruct schema := by
  unfold declareStruct
  cases graph.structNamed? schema.name <;> simp [withStruct, eq_comm]

private theorem nodup_map_append {α κ : Type} {key : α → κ} {items : List α} {b : α}
    (nodup : (items.map key).Nodup) (fresh : ∀ a ∈ items, key a ≠ key b) :
    ((items ++ [b]).map key).Nodup := by
  rw [List.map_append, List.nodup_append]
  refine ⟨nodup, by simp, ?_⟩
  intro k hk k' hk' same
  obtain ⟨a, ha, rfl⟩ := List.mem_map.1 hk
  rw [List.map_singleton, List.mem_singleton] at hk'
  exact fresh a ha (same.trans hk')

theorem Declared.withFunction (declared : graph.Declared) {signature : Signature}
    (fresh : graph.functionNamed? signature.name = none) :
    (graph.withFunction signature).Declared where
  functionIds := nodup_map_append declared.functionIds declared.function_ne_next
  functionNames := by
    refine nodup_map_append declared.functionNames fun entry he same => ?_
    have found := List.find?_eq_none.1 fresh entry he
    simp [same] at found
  structIds := declared.structIds
  structNames := declared.structNames
  functionsOlder := by
    intro entry he
    rcases List.mem_append.1 he with he | he
    · exact Nat.lt_succ_of_lt (declared.functionsOlder entry he)
    · rw [List.mem_singleton.1 he]
      exact Nat.lt_succ_self _
  structsOlder := fun entry he => Nat.lt_succ_of_lt (declared.structsOlder entry he)

theorem Declared.withStruct (declared : graph.Declared) {schema : Schema}
    (fresh : graph.structNamed? schema.name = none) : (graph.withStruct schema).Declared where
  functionIds := declared.functionIds
  functionNames := declared.functionNames
  structIds := nodup_map_append declared.structIds declared.struct_ne_next
  structNames := by
    refine nodup_map_append declared.structNames fun entry he same => ?_
    have found := List.find?_eq_none.1 fresh entry he
    simp [same] at found
  functionsOlder := fun entry he => Nat.lt_succ_of_lt (declared.functionsOlder entry he)
  structsOlder := by
    intro entry he
    rcases List.mem_append.1 he with he | he
    · exact Nat.lt_succ_of_lt (declared.structsOlder entry he)
    · rw [List.mem_singleton.1 he]
      exact Nat.lt_succ_self _

section Tables

variable {α ι κ : Type} {key : α → κ} {items : List α}

private theorem map_map_ite {c : α → Prop} [DecidablePred c] {change : α → α}
    (same : ∀ a, key (change a) = key a) :
    (items.map fun a => if c a then change a else a).map key = items.map key := by
  rw [List.map_map]
  apply List.map_congr_left
  intro a _
  by_cases h : c a <;> simp [h, same]

private theorem nodup_map_replace [DecidableEq ι] {ident : α → ι} {b : α} {j : ι}
    (idents : (items.map ident).Nodup) (nodup : (items.map key).Nodup)
    (fresh : ∀ a ∈ items, ident a ≠ j → key a ≠ key b) :
    ((items.map fun a => if ident a = j then b else a).map key).Nodup := by
  induction items with
  | nil => exact List.nodup_nil
  | cons a items ih =>
    rw [List.map_cons, List.nodup_cons] at idents nodup
    have rest := ih idents.2 nodup.2 fun x hx => fresh x (List.mem_cons_of_mem a hx)
    rw [List.map_cons, List.map_cons, List.nodup_cons]
    refine ⟨?_, rest⟩
    simp only [List.map_map, List.mem_map, Function.comp_apply, not_exists, not_and]
    intro x hx
    have apart : ident x ≠ ident a := by
      intro same
      refine idents.1 ?_
      rw [← same]
      exact List.mem_map_of_mem hx
    have differ : key x ≠ key a := by
      intro same
      refine nodup.1 ?_
      rw [← same]
      exact List.mem_map_of_mem hx
    by_cases ha : ident a = j
    · have hx' : ident x ≠ j := fun h => apart (h.trans ha.symm)
      simpa [ha, hx'] using fresh x (List.mem_cons_of_mem a hx) hx'
    · by_cases hx' : ident x = j
      · simpa [ha, hx'] using (fresh a List.mem_cons_self ha).symm
      · simpa [ha, hx'] using differ

end Tables

theorem map_modifyFunction {β : Type} {view : FunctionEntry → β}
    {change : FunctionEntry → FunctionEntry} (same : ∀ entry, view (change entry) = view entry)
    (id : FunctionId) : (graph.modifyFunction id change).functions.map view =
      graph.functions.map view :=
  map_map_ite same

theorem map_modifyStruct {β : Type} {view : StructEntry → β} {change : StructEntry → StructEntry}
    (same : ∀ entry, view (change entry) = view entry) (id : StructId) :
    (graph.modifyStruct id change).structs.map view = graph.structs.map view :=
  map_map_ite same

/-- Entries that keep their addresses and signatures. -/
theorem Declared.modifyFunction (declared : graph.Declared) (id : FunctionId)
    {change : FunctionEntry → FunctionEntry}
    (same : ∀ entry, (change entry).id = entry.id ∧ (change entry).signature = entry.signature) :
    (graph.modifyFunction id change).Declared where
  functionIds := by
    rw [map_modifyFunction fun entry => (same entry).1]
    exact declared.functionIds
  functionNames := by
    rw [map_modifyFunction fun entry => congrArg Signature.name (same entry).2]
    exact declared.functionNames
  structIds := declared.structIds
  structNames := declared.structNames
  functionsOlder := by
    intro entry he
    obtain ⟨old, hold, rfl⟩ := List.mem_map.1 he
    split
    · rw [(same old).1]
      exact declared.functionsOlder old hold
    · exact declared.functionsOlder old hold
  structsOlder := declared.structsOlder

/-- Entries that keep their addresses and schemas. -/
theorem Declared.modifyStruct (declared : graph.Declared) (id : StructId)
    {change : StructEntry → StructEntry}
    (same : ∀ entry, (change entry).id = entry.id ∧ (change entry).schema = entry.schema) :
    (graph.modifyStruct id change).Declared where
  functionIds := declared.functionIds
  functionNames := declared.functionNames
  structIds := by
    rw [map_modifyStruct fun entry => (same entry).1]
    exact declared.structIds
  structNames := by
    rw [map_modifyStruct fun entry => congrArg Schema.name (same entry).2]
    exact declared.structNames
  functionsOlder := declared.functionsOlder
  structsOlder := by
    intro entry he
    obtain ⟨old, hold, rfl⟩ := List.mem_map.1 he
    split
    · rw [(same old).1]
      exact declared.structsOlder old hold
    · exact declared.structsOlder old hold

/-- A graph with another signature and a new address for one of its functions. -/
def redeclareFunction (graph : Graph) (previous : FunctionId) (signature : Signature) : Graph :=
  { graph.modifyFunction previous fun _ => { id := ⟨graph.nextDefinition⟩, signature } with
    nextDefinition := graph.nextDefinition + 1 }

/-- A graph with another schema and a new address for one of its structs. -/
def redeclareStruct (graph : Graph) (previous : StructId) (schema : Schema) : Graph :=
  { graph.modifyStruct previous fun _ => { id := ⟨graph.nextDefinition⟩, schema } with
    nextDefinition := graph.nextDefinition + 1 }

theorem Declared.redeclareFunction (declared : graph.Declared) {previous : FunctionId}
    {signature : Signature}
    (fresh : ∀ entry ∈ graph.functions, entry.id ≠ previous →
      entry.signature.name ≠ signature.name) :
    (graph.redeclareFunction previous signature).Declared where
  functionIds := by
    refine nodup_map_replace declared.functionIds declared.functionIds fun entry he _ same => ?_
    have older := declared.functionsOlder entry he
    simp [same] at older
  functionNames := nodup_map_replace declared.functionIds declared.functionNames fresh
  structIds := declared.structIds
  structNames := declared.structNames
  functionsOlder := by
    intro entry he
    obtain ⟨old, hold, rfl⟩ := List.mem_map.1 he
    split
    · exact Nat.lt_succ_self _
    · exact Nat.lt_succ_of_lt (declared.functionsOlder old hold)
  structsOlder := fun entry he => Nat.lt_succ_of_lt (declared.structsOlder entry he)

theorem Declared.redeclareStruct (declared : graph.Declared) {previous : StructId}
    {schema : Schema}
    (fresh : ∀ entry ∈ graph.structs, entry.id ≠ previous → entry.schema.name ≠ schema.name) :
    (graph.redeclareStruct previous schema).Declared where
  functionIds := declared.functionIds
  functionNames := declared.functionNames
  structIds := by
    refine nodup_map_replace declared.structIds declared.structIds fun entry he _ same => ?_
    have older := declared.structsOlder entry he
    simp [same] at older
  structNames := nodup_map_replace declared.structIds declared.structNames fresh
  functionsOlder := fun entry he => Nat.lt_succ_of_lt (declared.functionsOlder entry he)
  structsOlder := by
    intro entry he
    obtain ⟨old, hold, rfl⟩ := List.mem_map.1 he
    split
    · exact Nat.lt_succ_self _
    · exact Nat.lt_succ_of_lt (declared.structsOlder old hold)

/-- A graph without one of its functions, whose nodes are still there. -/
def withoutFunction (graph : Graph) (id : FunctionId) : Graph :=
  { graph with functions := graph.functions.filter (·.id != id) }

/-- A graph without one of its structs, whose constructors are still there. -/
def withoutStruct (graph : Graph) (id : StructId) : Graph :=
  { graph with structs := graph.structs.filter (·.id != id) }

theorem Declared.withoutFunction (declared : graph.Declared) (id : FunctionId) :
    (graph.withoutFunction id).Declared where
  functionIds := declared.functionIds.sublist (List.filter_sublist.map _)
  functionNames := declared.functionNames.sublist (List.filter_sublist.map _)
  structIds := declared.structIds
  structNames := declared.structNames
  functionsOlder := fun entry he => declared.functionsOlder entry (List.mem_of_mem_filter he)
  structsOlder := declared.structsOlder

theorem Declared.withoutStruct (declared : graph.Declared) (id : StructId) :
    (graph.withoutStruct id).Declared where
  functionIds := declared.functionIds
  functionNames := declared.functionNames
  structIds := declared.structIds.sublist (List.filter_sublist.map _)
  structNames := declared.structNames.sublist (List.filter_sublist.map _)
  functionsOlder := declared.functionsOlder
  structsOlder := fun entry he => declared.structsOlder entry (List.mem_of_mem_filter he)

theorem nextReady_lt {pending : List StructEntry} (some : pending ≠ []) :
    nextReady pending < pending.length := by
  unfold nextReady
  cases found : pending.findIdx? (isReady pending) with
  | none => exact List.length_pos_iff.2 some
  | some i => exact (List.findIdx?_eq_some_iff_findIdx_eq.1 found).1

theorem eq_nil_of_nextReady {pending : List StructEntry}
    (none : pending[nextReady pending]? = none) : pending = [] := by
  refine Classical.byContradiction fun some => ?_
  exact Nat.not_le_of_lt (nextReady_lt some) (List.getElem?_eq_none_iff.1 none)

theorem inOrder_nil : inOrder [] = [] := by
  rw [inOrder]
  split
  · rfl
  · rename_i found
    simp at found

theorem inOrder_cons {pending : List StructEntry} {entry : StructEntry}
    (found : pending[nextReady pending]? = some entry) :
    inOrder pending = entry :: inOrder (pending.eraseIdx (nextReady pending)) := by
  rw [inOrder]
  split
  · rename_i none
    simp [none] at found
  · rename_i first hfirst
    rw [Option.some.inj (found.symm.trans hfirst)]

theorem eraseIdx_perm {pending : List StructEntry} {entry : StructEntry} {i : Nat}
    (found : pending[i]? = some entry) : (entry :: pending.eraseIdx i).Perm pending := by
  obtain ⟨inside, rfl⟩ := List.getElem?_eq_some_iff.1 found
  exact List.getElem_cons_eraseIdx_perm inside

theorem inOrder_perm (pending : List StructEntry) : (inOrder pending).Perm pending := by
  induction pending using inOrder.induct with
  | case1 pending none =>
    rw [eq_nil_of_nextReady none, inOrder_nil]
  | case2 pending entry found ih =>
    rw [inOrder_cons found]
    exact (ih.cons _).trans (eraseIdx_perm found)

theorem Declared.structs_perm (declared : graph.Declared) {structs : List StructEntry}
    (perm : structs.Perm graph.structs) : ({ graph with structs } : Graph).Declared where
  functionIds := declared.functionIds
  functionNames := declared.functionNames
  structIds := (perm.map _).nodup_iff.2 declared.structIds
  structNames := (perm.map _).nodup_iff.2 declared.structNames
  functionsOlder := declared.functionsOlder
  structsOlder := fun entry he => declared.structsOlder entry (perm.mem_iff.1 he)

end Graph

end NodeScript
