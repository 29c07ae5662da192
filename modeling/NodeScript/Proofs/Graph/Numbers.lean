import NodeScript.Proofs.Graph.Effect

/-!
The addresses of definitions. Functions and structs take their numbers from one counter, so no
function has the number of a struct. Main statement: `Edit.numbersApart`.
-/

set_option autoImplicit false
set_option relaxedAutoImplicit false

namespace NodeScript

namespace Graph

/-- The numbers of all definitions. -/
def numbers (graph : Graph) : List Nat :=
  graph.functions.map (·.id.number) ++ graph.structs.map (·.id.number)

def NumbersApart (graph : Graph) : Prop :=
  ∀ function ∈ graph.functions, ∀ struct ∈ graph.structs, function.id.number ≠ struct.id.number

variable {graph next : Graph}

theorem Declared.numbers_nodup (declared : graph.Declared) (apart : graph.NumbersApart) :
    graph.numbers.Nodup := by
  refine List.nodup_append.2 ⟨?_, ?_, ?_⟩
  · have nodup := declared.functionIds.map fun (a b : FunctionId) (h : a.number = b.number) => by
      cases a; cases b; simpa using h
    rwa [List.map_map] at nodup
  · have nodup := declared.structIds.map fun (a b : StructId) (h : a.number = b.number) => by
      cases a; cases b; simpa using h
    rwa [List.map_map] at nodup
  · intro number ofFunction other ofStruct
    obtain ⟨function, hf, rfl⟩ := List.mem_map.1 ofFunction
    obtain ⟨struct, hs, rfl⟩ := List.mem_map.1 ofStruct
    exact apart function hf struct hs

theorem numbersApart_empty : empty.NumbersApart := by
  simp [NumbersApart, empty]

theorem NumbersApart.of_old (apart : graph.NumbersApart)
    (functions : ∀ entry ∈ next.functions, ∃ old ∈ graph.functions, old.id = entry.id)
    (structs : ∀ entry ∈ next.structs, ∃ old ∈ graph.structs, old.id = entry.id) :
    next.NumbersApart := by
  intro function hf struct hs
  obtain ⟨oldFunction, hof, sameFunction⟩ := functions function hf
  obtain ⟨oldStruct, hos, sameStruct⟩ := structs struct hs
  rw [← sameFunction, ← sameStruct]
  exact apart oldFunction hof oldStruct hos

theorem NumbersApart.upkeep (apart : graph.NumbersApart) (same : graph.Upkeep next) :
    next.NumbersApart := by
  refine apart.of_old (fun entry member => ?_) fun entry member => ?_
  · obtain ⟨old, mem, equal, -⟩ := same.function_mem member
    exact ⟨old, mem, equal⟩
  · obtain ⟨old, mem, equal, -⟩ := same.struct_mem member
    exact ⟨old, mem, equal⟩

theorem NumbersApart.of_newFunction (apart : graph.NumbersApart) (declared : graph.Declared)
    (functions : ∀ entry ∈ next.functions,
      entry ∈ graph.functions ∨ entry.id = ⟨graph.nextDefinition⟩)
    (structs : next.structs = graph.structs) : next.NumbersApart := by
  intro function hf struct hs
  rw [structs] at hs
  rcases functions function hf with hf | fresh
  · exact apart function hf struct hs
  · have older := declared.structsOlder struct hs
    rw [fresh]
    exact Ne.symm (Nat.ne_of_lt older)

theorem NumbersApart.of_newStruct (apart : graph.NumbersApart) (declared : graph.Declared)
    (functions : next.functions = graph.functions)
    (structs : ∀ entry ∈ next.structs,
      entry ∈ graph.structs ∨ entry.id = ⟨graph.nextDefinition⟩) : next.NumbersApart := by
  intro function hf struct hs
  rw [functions] at hf
  rcases structs struct hs with hs | fresh
  · exact apart function hf struct hs
  · have older := declared.functionsOlder function hf
    rw [fresh]
    exact Nat.ne_of_lt older

theorem NumbersApart.withFunction (apart : graph.NumbersApart) (declared : graph.Declared)
    (signature : Signature) : (graph.withFunction signature).NumbersApart := by
  refine apart.of_newFunction declared (fun _ member => ?_) rfl
  exact (mem_withFunction.1 member).imp_right (congrArg FunctionEntry.id)

theorem NumbersApart.withStruct (apart : graph.NumbersApart) (declared : graph.Declared)
    (schema : Schema) : (graph.withStruct schema).NumbersApart := by
  refine apart.of_newStruct declared rfl fun _ member => ?_
  exact (mem_withStruct.1 member).imp_right (congrArg StructEntry.id)

theorem NumbersApart.redeclareFunction (apart : graph.NumbersApart) (declared : graph.Declared)
    (previous : FunctionId) (signature : Signature) :
    (graph.redeclareFunction previous signature).NumbersApart := by
  refine apart.of_newFunction declared (fun _ member => ?_) rfl
  exact (mem_redeclareFunction member).symm.imp And.left (congrArg FunctionEntry.id)

theorem NumbersApart.redeclareStruct (apart : graph.NumbersApart) (declared : graph.Declared)
    (previous : StructId) (schema : Schema) :
    (graph.redeclareStruct previous schema).NumbersApart := by
  refine apart.of_newStruct declared rfl fun _ member => ?_
  exact (mem_redeclareStruct member).symm.imp And.left (congrArg StructEntry.id)

end Graph

open NodeScript.Graph

/-- An accepted edit gives no function the number of a struct. -/
theorem Edit.numbersApart {registry : Registry} {graph next : Graph} {edit : Edit}
    (declared : graph.Declared) (apart : graph.NumbersApart)
    (accepted : edit.apply registry graph = .ok next) : next.NumbersApart := by
  cases Edit.outcome accepted with
  | upkeep same => exact apart.upkeep same
  | builtin _ _ => exact apart
  | withFunction _ _ same => exact (apart.withFunction declared _).upkeep same
  | withStruct _ _ same => exact (apart.withStruct declared _).upkeep same
  | redeclareFunction _ _ same => exact (apart.redeclareFunction declared _ _).upkeep same
  | @redeclareStruct _ _ _ last _ _ _ same =>
    have perm := inOrder_perm last.structs
    exact ((apart.redeclareStruct declared _ _).upkeep same).of_old
      (fun entry member => ⟨entry, member, rfl⟩)
      fun entry member => ⟨entry, perm.mem_iff.1 member, rfl⟩
  | @withoutFunction id _ same =>
    have without : (graph.withoutFunction id).NumbersApart := apart.of_old
      (fun entry member => ⟨entry, (mem_withoutFunction.1 member).1, rfl⟩)
      fun entry member => ⟨entry, member, rfl⟩
    exact without.upkeep same
  | @withoutStruct id _ _ _ same =>
    have without : (graph.withoutStruct id).NumbersApart := apart.of_old
      (fun entry member => ⟨entry, member, rfl⟩)
      fun entry member => ⟨entry, (mem_withoutStruct.1 member).1, rfl⟩
    exact without.upkeep same

end NodeScript
