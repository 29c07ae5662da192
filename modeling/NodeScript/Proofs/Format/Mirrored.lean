import NodeScript.Proofs.Format.Copied
import NodeScript.Proofs.Format.Numbered

/-!
Graphs that have the nodes of another one at the places of their numbers. Main statements: the same
definitions are in use in both (`Mirrored.functionInUse_eq`, `Mirrored.structInUse_eq`).
-/

set_option autoImplicit false
set_option relaxedAutoImplicit false

namespace NodeScript

open NodeScript.Graph Format

namespace Graph

variable {graph next last : Graph} {kind kind' other : NodeKind}

theorem Declared.signature?_inj (declared : graph.Declared) {f f' : FunctionId}
    {signature signature' : Signature} (found : graph.signature? f = some signature)
    (found' : graph.signature? f' = some signature') (same : signature.name = signature'.name) :
    f = f' := by
  obtain ⟨entry, he, rfl, rfl⟩ := declared.signature?_eq_some_iff.1 found
  obtain ⟨entry', he', rfl, rfl⟩ := declared.signature?_eq_some_iff.1 found'
  have named := declared.functionNamed?_iff.2 ⟨he, same⟩
  rw [declared.functionNamed?_iff.2 ⟨he', rfl⟩, Option.some.injEq] at named
  rw [named]

theorem Declared.schemaAt?_inj (declared : graph.Declared) {s s' : StructId}
    {schema schema' : Schema} (found : graph.schemaAt? s = some schema)
    (found' : graph.schemaAt? s' = some schema') (same : schema.name = schema'.name) : s = s' := by
  obtain ⟨entry, he, rfl, rfl⟩ := declared.schemaAt?_eq_some_iff.1 found
  obtain ⟨entry', he', rfl, rfl⟩ := declared.schemaAt?_eq_some_iff.1 found'
  have named := declared.structNamed?_iff.2 ⟨he, same⟩
  rw [declared.structNamed?_iff.2 ⟨he', rfl⟩, Option.some.injEq] at named
  rw [named]

theorem Alike.symm (alike : graph.Alike next kind kind') : next.Alike graph kind' kind := by
  cases alike with
  | builtin type => exact .builtin type
  | call here there => exact .call there here
  | functionInput here there => exact .functionInput there here
  | functionOutput here there => exact .functionOutput there here
  | construct here there => exact .construct there here

/-- A kind has one counterpart. -/
theorem Alike.unique (declared : next.Declared) (alike : graph.Alike next kind kind')
    (alike' : graph.Alike next kind other) : kind' = other := by
  have function {f f' f'' : FunctionId} {signature signature' : Signature}
      (here : graph.signature? f = some signature) (there : next.signature? f' = some signature)
      (here' : graph.signature? f = some signature')
      (there' : next.signature? f'' = some signature') : f' = f'' := by
    rw [here, Option.some.injEq] at here'
    exact declared.signature?_inj there there' (congrArg Signature.name here')
  cases alike with
  | builtin type =>
    cases alike'
    rfl
  | call here there =>
    cases alike' with
    | call here' there' => rw [function here there here' there']
  | functionInput here there =>
    cases alike' with
    | functionInput here' there' => rw [function here there here' there']
  | functionOutput here there =>
    cases alike' with
    | functionOutput here' there' => rw [function here there here' there']
  | construct here there =>
    cases alike' with
    | construct here' there' =>
      rw [here, Option.some.injEq] at here'
      rw [declared.schemaAt?_inj there there' (congrArg Schema.name here')]

theorem Alike.eq_iff (declared : graph.Declared) (declared' : next.Declared) {a a' : NodeKind}
    (alike : graph.Alike next kind kind') (alike' : graph.Alike next a a') :
    a = kind ↔ a' = kind' := by
  refine ⟨?_, ?_⟩
  · intro same
    rw [same] at alike'
    exact alike'.unique declared' alike
  · intro same
    subst same
    exact alike'.symm.unique declared alike.symm

theorem Alike.congr (alike : graph.Alike next kind kind')
    (functions : ∀ f, last.signature? f = next.signature? f)
    (structs : ∀ s, last.schemaAt? s = next.schemaAt? s) : graph.Alike last kind kind' := by
  cases alike with
  | builtin type => exact .builtin type
  | call here there => exact .call here ((functions _).trans there)
  | functionInput here there => exact .functionInput here ((functions _).trans there)
  | functionOutput here there => exact .functionOutput here ((functions _).trans there)
  | construct here there => exact .construct here ((structs _).trans there)

theorem Alike.word (alike : graph.Alike next kind kind') : kind'.word = kind.word := by
  cases alike <;> rfl

theorem nameOf?_of_function {f : FunctionId} (of : kind.function? = some f) :
    graph.nameOf? kind = (graph.signature? f).map (·.name) := by
  cases kind <;> simp only [NodeKind.function?, Option.some.injEq, reduceCtorEq] at of
  all_goals
    subst of
    rw [nameOf?, signature?, Option.map_map]
    rfl

theorem nameOf?_construct (s : StructId) :
    graph.nameOf? (.construct s) = (graph.schemaAt? s).map (·.name) := by
  rw [nameOf?, schemaAt?, Option.map_map]
  rfl

theorem Alike.nameOf? (alike : graph.Alike next kind kind') :
    next.nameOf? kind' = graph.nameOf? kind := by
  cases alike with
  | builtin type => rfl
  | call here there | functionInput here there | functionOutput here there =>
    rw [nameOf?_of_function rfl, nameOf?_of_function rfl, here, there]
  | construct here there => rw [nameOf?_construct, nameOf?_construct, here, there]

end Graph

/-- The nodes of a graph stand at the places of their numbers. -/
structure Format.Mirrored (graph next : Graph) : Prop where
  size : next.arena.size = graph.live.length
  node : ∀ (i : Nat) id node, graph.live[i]? = some (id, node) →
    ∃ kind, graph.Alike next node.kind kind ∧ next.bare? ⟨i⟩ = some { node.bare with kind }

namespace Format.Mirrored

variable {graph next : Graph} (mirrored : Mirrored graph next)
include mirrored

theorem form? {i : Nat} {id : NodeId} {node : Node} (number : graph.live[i]? = some (id, node)) :
    ∃ kind, graph.Alike next node.kind kind ∧ next.form? ⟨i⟩ = some { node.form with kind } := by
  obtain ⟨kind, alike, bare⟩ := mirrored.node i id node number
  obtain ⟨copy, found, same⟩ := Option.map_eq_some_iff.1 bare
  refine ⟨kind, alike, ?_⟩
  rw [form?_eq_of_node? found, ← copy.form_bare, same]
  simp [Node.form, Node.ports, Node.bare]

theorem exists_original {id : NodeId} {form : Form} (found : next.form? id = some form) :
    ∃ original node, graph.live[id.index]? = some (original, node) ∧
      graph.Alike next node.kind form.kind ∧ form.config = node.config ∧
        form.ports = node.ports := by
  obtain ⟨copy, hcopy, -⟩ := node?_of_form? found
  have inside : id.index < graph.live.length := by
    rw [← mirrored.size]
    exact index_lt_of_node? hcopy
  obtain ⟨kind, alike, same⟩ := mirrored.form? (List.getElem?_eq_getElem inside)
  rw [found, Option.some.injEq] at same
  subst same
  exact ⟨_, _, List.getElem?_eq_getElem inside, alike, rfl, rfl⟩

theorem full : next.Full := by
  intro i inside
  rw [mirrored.size] at inside
  obtain ⟨kind, -, bare⟩ := mirrored.node i _ _ (List.getElem?_eq_getElem inside)
  obtain ⟨copy, found, -⟩ := Option.map_eq_some_iff.1 bare
  rw [found]
  rfl

/-- Wires and the nodes that definitions own do not matter. -/
theorem congr {last : Graph} (size : last.arena.size = next.arena.size)
    (functions : ∀ f, last.signature? f = next.signature? f)
    (structs : ∀ s, last.schemaAt? s = next.schemaAt? s)
    (bare : ∀ id, last.bare? id = next.bare? id) : Mirrored graph last where
  size := size.trans mirrored.size
  node i id node number := by
    obtain ⟨kind, alike, found⟩ := mirrored.node i id node number
    exact ⟨kind, alike.congr functions structs, (bare ⟨i⟩).trans found⟩

variable (declared : graph.Declared) (declared' : next.Declared)
include declared declared'

theorem hasKind_iff {kind kind' : NodeKind} (alike : graph.Alike next kind kind') {i : Nat}
    {id : NodeId} {node : Node} (number : graph.live[i]? = some (id, node)) :
    graph.HasKind id kind ↔ next.HasKind ⟨i⟩ kind' := by
  obtain ⟨other, alike', found⟩ := mirrored.form? number
  have here := form?_eq_of_node? (node?_of_number number)
  have same := alike.eq_iff declared declared' alike'
  simp only [HasKind, here, found, Option.some.injEq, exists_eq_left']
  exact same

theorem present_iff {kind kind' : NodeKind} (alike : graph.Alike next kind kind') :
    graph.Present kind ↔ next.Present kind' := by
  constructor
  · rintro ⟨id, has⟩
    obtain ⟨node, hn, -⟩ := Graph.hasKind_iff.1 has
    obtain ⟨i, number⟩ := exists_number hn
    exact ⟨⟨i⟩, (mirrored.hasKind_iff declared declared' alike number).1 has⟩
  · rintro ⟨id, has⟩
    have ⟨form, hf, _⟩ := has
    obtain ⟨original, node, number, -⟩ := mirrored.exists_original hf
    exact ⟨original, (mirrored.hasKind_iff declared declared' alike number).2 has⟩

/-- A function is in use where the other one with its signature is. -/
theorem functionInUse_eq {f f' : FunctionId} {signature : Signature}
    (here : graph.signature? f = some signature) (there : next.signature? f' = some signature) :
    next.functionInUse f' = graph.functionInUse f := by
  rw [Bool.eq_iff_iff, functionInUse_iff, functionInUse_iff]
  exact (mirrored.present_iff declared declared' (.call here there)).symm

omit mirrored declared' in
private theorem exists_other_iff {s : StructId} {schema : Schema}
    (found : graph.schemaAt? s = some schema) (test : Schema → Bool) :
    (∃ other ∈ graph.structs, other.id ≠ s ∧ test other.schema = true) ↔
      ∃ other ∈ graph.schemas, other.name ≠ schema.name ∧ test other = true := by
  have apart {other : StructEntry} (ho : other ∈ graph.structs) :
      other.id = s ↔ other.schema.name = schema.name := by
    have here := declared.schemaAt?_eq_some_iff.2 ⟨other, ho, rfl, rfl⟩
    refine ⟨fun same => ?_, fun same => declared.schemaAt?_inj here found same⟩
    rw [same, found, Option.some.injEq] at here
    rw [here]
  simp only [schemas, List.mem_map, exists_exists_and_eq_and]
  refine exists_congr fun other => and_congr_right fun ho => ?_
  rw [ne_eq, apart ho]

/-- What makes a struct be in use makes the other one with its schema be in use. -/
private theorem structUsed_iff (signatures : next.functions.map (·.signature) =
      graph.functions.map (·.signature)) (schemas : next.schemas = graph.schemas)
    {s s' : StructId} {schema : Schema} (here : graph.schemaAt? s = some schema)
    (there : next.schemaAt? s' = some schema) :
    graph.StructUsed s schema.name ↔ next.StructUsed s' schema.name := by
  have own : graph.Alike next (.construct s) (.construct s') := .construct here there
  refine or_congr ?_ (or_congr ?_ (or_congr ?_ ?_))
  · constructor
    · rintro ⟨id, form, hf, kind, mentions⟩
      obtain ⟨node, hn, rfl⟩ := node?_of_form? hf
      obtain ⟨i, number⟩ := exists_number hn
      obtain ⟨kind', alike, found⟩ := mirrored.form? number
      refine ⟨⟨i⟩, _, found, fun same => ?_, mentions⟩
      exact kind ((own.eq_iff declared declared' alike).2 same)
    · rintro ⟨id, form, hf, kind, mentions⟩
      obtain ⟨original, node, number, alike, -, ports⟩ := mirrored.exists_original hf
      have ports : node.form.ports = form.ports := ports.symm
      rw [← ports] at mentions
      refine ⟨original, node.form, form?_eq_of_node? (node?_of_number number), ?_, mentions⟩
      intro same
      exact kind ((own.eq_iff declared declared' alike).1 same)
  · constructor
    · rintro ⟨a, b, apart, hasA, hasB⟩
      obtain ⟨node, hn, -⟩ := Graph.hasKind_iff.1 hasA
      obtain ⟨node', hn', -⟩ := Graph.hasKind_iff.1 hasB
      obtain ⟨i, number⟩ := exists_number hn
      obtain ⟨j, number'⟩ := exists_number hn'
      refine ⟨⟨i⟩, ⟨j⟩, fun same => apart ?_,
        (mirrored.hasKind_iff declared declared' own number).1 hasA,
        (mirrored.hasKind_iff declared declared' own number').1 hasB⟩
      obtain rfl : i = j := congrArg NodeId.index same
      rw [number, Option.some.injEq, Prod.mk.injEq] at number'
      exact number'.1
    · rintro ⟨a, b, apart, hasA, hasB⟩
      have ⟨form, hf, _⟩ := hasA
      have ⟨form', hf', _⟩ := hasB
      obtain ⟨original, node, number, -⟩ := mirrored.exists_original hf
      obtain ⟨original', node', number', -⟩ := mirrored.exists_original hf'
      refine ⟨original, original', fun same => apart ?_,
        (mirrored.hasKind_iff declared declared' own number).2 hasA,
        (mirrored.hasKind_iff declared declared' own number').2 hasB⟩
      subst same
      exact congrArg NodeId.mk (number_unique number number')
  · have both (test : Signature → Bool) (graph : Graph) :
        (∃ entry ∈ graph.functions, test entry.signature = true) ↔
          ∃ signature ∈ graph.functions.map (·.signature), test signature = true := by simp
    rw [both (·.mentions schema.name), both (·.mentions schema.name), signatures]
  · rw [exists_other_iff declared here (·.fields.any (·.type.mentions schema.name)),
      exists_other_iff declared' there (·.fields.any (·.type.mentions schema.name)), schemas]

omit declared declared' in
/-- A struct is in use where the other one with its schema is. -/
theorem structInUse_eq {admits admits' : Admits} (formed : graph.WellFormed admits)
    (formed' : next.WellFormed admits') (signatures : next.functions.map (·.signature) =
      graph.functions.map (·.signature)) (schemas : next.schemas = graph.schemas)
    {s s' : StructId} {schema : Schema} (here : graph.schemaAt? s = some schema)
    (there : next.schemaAt? s' = some schema) : next.structInUse s' = graph.structInUse s := by
  rw [Bool.eq_iff_iff, formed.structInUse_iff here, formed'.structInUse_iff there]
  exact (mirrored.structUsed_iff formed.declared formed'.declared signatures schemas
    here there).symm

end Format.Mirrored

end NodeScript
