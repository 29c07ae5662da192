import NodeScript.Proofs.Graph.Sound

/-!
When definitions are in use. In a well-formed graph the answer does not depend on which of the
constructors of a struct belongs to it: a struct is in use if it has two constructors, or if
anything but a constructor of its own mentions it. Main statement: `WellFormed.structInUse_iff`.
-/

set_option autoImplicit false
set_option relaxedAutoImplicit false

namespace NodeScript

/-- Whether a port is of the named struct or a list of it. -/
def Ports.mentions (ports : Ports) (name : String) : Bool :=
  (ports.inputs ++ ports.outputs).any (·.type.mentions name)

theorem Node.mentions_eq (node : Node) (name : String) :
    node.mentions name = node.ports.mentions name := by
  simp [Node.mentions, Ports.mentions, Node.ports, Function.comp_def]

namespace Graph

variable {admits : Admits} {graph : Graph}

theorem any_arena_iff (graph : Graph) (test : Node → Bool) :
    (graph.arena.any fun place => place.any test) = true ↔
    ∃ id node, graph.node? id = some node ∧ test node = true := by
  rw [Array.any_eq_true']
  constructor
  · rintro ⟨place, mem, holds⟩
    obtain ⟨node, rfl, holds⟩ := (Option.any_eq_true ..).1 holds
    obtain ⟨i, hi⟩ := Array.mem_iff_getElem?.1 mem
    exact ⟨⟨i⟩, node, by rw [node?, hi]; rfl, holds⟩
  · rintro ⟨id, node, hn, holds⟩
    exact ⟨some node, Array.mem_of_getElem? (Option.join_eq_some_iff.1 hn), by simpa using holds⟩

theorem functionInUse_iff {f : FunctionId} :
    graph.functionInUse f = true ↔ ∃ id, graph.HasKind id (.call f) := by
  simp only [functionInUse, any_arena_iff, beq_iff_eq, hasKind_iff]

def StructUsed (graph : Graph) (s : StructId) (name : String) : Prop :=
  (∃ id form, graph.form? id = some form ∧ form.kind ≠ .construct s ∧
      form.ports.mentions name = true) ∨
    (∃ a b, a ≠ b ∧ graph.HasKind a (.construct s) ∧ graph.HasKind b (.construct s)) ∨
    (∃ entry ∈ graph.functions, entry.signature.mentions name = true) ∨
    ∃ other ∈ graph.structs, other.id ≠ s ∧
      other.schema.fields.any (·.type.mentions name) = true

private theorem others_used_iff {s : StructId} {name : String} {boundary : NodeId}
    (own : graph.HasKind boundary (.construct s)) :
    (∃ id node, (graph.clear boundary).node? id = some node ∧
      (node.kind == .construct s || node.mentions name) = true) ↔
    (∃ id form, graph.form? id = some form ∧ form.kind ≠ .construct s ∧
      form.ports.mentions name = true) ∨
    ∃ a b, a ≠ b ∧ graph.HasKind a (.construct s) ∧ graph.HasKind b (.construct s) := by
  simp only [node?_clear, Bool.or_eq_true, beq_iff_eq, Node.mentions_eq]
  constructor
  · rintro ⟨id, node, hn, used⟩
    split at hn
    · simp at hn
    rename_i other
    by_cases kind : node.kind = .construct s
    · exact .inr ⟨id, boundary, other, hasKind_iff.2 ⟨node, hn, kind⟩, own⟩
    · exact .inl ⟨id, node.form, form?_eq_of_node? hn, kind, used.resolve_left kind⟩
  · rintro (⟨id, form, hf, kind, mentions⟩ | ⟨a, b, apart, hasA, hasB⟩)
    · obtain ⟨node, hn, rfl⟩ := node?_of_form? hf
      have other : id ≠ boundary := fun same => by
        obtain ⟨node', hn', kind'⟩ := hasKind_iff.1 own
        rw [← same, hn, Option.some.injEq] at hn'
        subst hn'
        exact kind kind'
      exact ⟨id, node, by rw [if_neg other, hn], .inr mentions⟩
    · by_cases same : a = boundary
      · obtain ⟨node, hn, kind⟩ := hasKind_iff.1 hasB
        exact ⟨b, node, by rw [if_neg fun h => apart (same.trans h.symm), hn], .inl kind⟩
      · obtain ⟨node, hn, kind⟩ := hasKind_iff.1 hasA
        exact ⟨a, node, by rw [if_neg same, hn], .inl kind⟩

theorem WellFormed.structInUse_iff (formed : graph.WellFormed admits) {s : StructId}
    {schema : Schema} (found : graph.schemaAt? s = some schema) :
    graph.structInUse s = true ↔ graph.StructUsed s schema.name := by
  obtain ⟨entry, lookup, rfl⟩ := Option.map_eq_some_iff.1 found
  obtain ⟨he, rfl⟩ := formed.declared.struct?_iff.1 lookup
  obtain ⟨boundary, hb⟩ := Option.isSome_iff_exists.1 (formed.complete.constructors entry he)
  have own := formed.owned.constructors entry he boundary hb
  have others := any_arena_iff (graph.clear boundary) fun node =>
    node.kind == .construct entry.id || node.mentions entry.schema.name
  rw [structInUse, lookup]
  simp only [hb, Bool.or_eq_true, List.any_eq_true, Bool.and_eq_true, bne_iff_ne, ne_eq]
  rw [StructUsed, ← or_assoc, ← others_used_iff own, ← others, ← or_assoc]
  simp only [List.any_eq_true]
  rfl

theorem WellFormed.not_structUsed (formed : graph.WellFormed admits) {entry : StructEntry}
    (member : entry ∈ graph.structs) (unused : graph.structInUse entry.id = false) :
    ¬graph.StructUsed entry.id entry.schema.name := by
  intro used
  rw [(formed.structInUse_iff (formed.declared.schemaAt?_eq_some_iff.2
    ⟨entry, member, rfl, rfl⟩)).2 used] at unused
  exact absurd unused (by simp)

end Graph

end NodeScript
