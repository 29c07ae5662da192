import NodeScript.Proofs.Format.Reread

/-!
Which files are read back. What a graph is written as is limited in its lengths alone, what is read
is limited in its nesting too. Main statement: the file of a graph is read if and only if no type
of a definition and no literal is nested deeper than the reader goes.
-/

set_option autoImplicit false
set_option relaxedAutoImplicit false

namespace NodeScript

open Format NodeScript.Graph

variable {graph : Graph} {file : Bytes}

theorem Graph.WellFormed.configsReread (formed : graph.WellFormed Registry.builtin.Canonical) :
    graph.ConfigsReread Registry.builtin := by
  intro id node mem type behavior kind found
  have fit := formed.fit (form?_eq_of_node? (mem_live.1 mem))
  simp only [Fits, Node.form, kind] at fit
  obtain ⟨behavior', found', rereads⟩ := Registry.builtin_rereads fit
  obtain rfl : behavior' = behavior := Option.some.inj (found'.symm.trans found)
  exact rereads

theorem Reached.canonical {first : Graph → Prop} {allowed : Graph → Edit → Prop}
    (start : ∀ graph, first graph → graph = .empty)
    (reached : Reached first (Edit.Leads (· = Registry.builtin) allowed) graph) :
    graph.WellFormed Registry.builtin.Canonical := by
  refine reached.wellFormed ?_ fun graph h => ?_
  · rintro registry rfl _ _ _ canonical
    exact canonical
  · rw [start graph h]
    exact wellFormed_empty

theorem Graph.WellFormed.decodes_iff (formed : graph.WellFormed Registry.builtin.Canonical)
    (fit : graph.CountsFit Registry.builtin)
    (written : graph.encode Registry.builtin current = .ok file) :
    (∃ loaded, decode Registry.builtin file = .ok loaded) ↔ graph.NestedWithin maxNesting := by
  obtain ⟨found, absent⟩ := decode_encode written formed.configsReread fit
  rw [← reread_isSome_iff formed written]
  cases read : graph.reread Registry.builtin with
  | none =>
    obtain ⟨e, failed⟩ := absent read
    simp [failed]
  | some read' => exact ⟨fun _ => rfl, fun _ => ⟨_, found read' read⟩⟩

def DataType.numbersIn : Nat → DataType
  | 0 => number
  | n + 1 => list (numbersIn n)

private theorem levels_numbersIn (n : Nat) : (DataType.numbersIn n).levels = n + 1 := by
  induction n with
  | zero => rfl
  | succ n ih => rw [DataType.numbersIn, DataType.levels, ih]

private theorem countsFit_numbersIn (n : Nat) : (DataType.numbersIn n).CountsFit := by
  induction n with
  | zero => trivial
  | succ n ih => exact ih

private theorem schema?_numbersIn (n : Nat) : (DataType.numbersIn n).schema? = none := by
  induction n with
  | zero => rfl
  | succ n ih => rw [DataType.numbersIn, DataType.schema?, ih]

/-- A function with a parameter of numbers in that many lists. -/
def Signature.ofLists (n : Nat) : Signature where
  name := "f"
  inputs := [("x", .numbersIn n)]
  outputs := []

/-- The graph with that function alone. -/
def Graph.ofLists (n : Nat) : Graph where
  arena := #[some (.ofPorts (.functionInput ⟨0⟩) .null (Signature.ofLists n).inputPorts .zero),
    some (.ofPorts (.functionOutput ⟨0⟩) .null (Signature.ofLists n).outputPorts
      ⟨Double.add .zero boundaryGap, .zero⟩)]
  functions := [{ id := ⟨0⟩, signature := .ofLists n, input := some ⟨0⟩, output := some ⟨1⟩ }]
  nextDefinition := 1

private theorem types_ofLists (n : Nat) : (Signature.ofLists n).types = [.numbersIn n] := rfl

private theorem mentions_ofLists (n : Nat) :
    (Signature.ofLists n).types.filterMap DataType.schema? = [] := by
  rw [types_ofLists, List.filterMap_cons_none (schema?_numbersIn n)]
  rfl

private theorem reached_ofLists (n : Nat) :
    Reached (· = .empty) (Edit.Leads (· = Registry.builtin) fun _ _ => True) (.ofLists n) := by
  have mentions : Graph.empty.checkMentions (Signature.ofLists n).types [] = .ok () := by
    rw [checkMentions, mentions_ofLists]
    rfl
  have defined : Graph.empty.defineFunction (.ofLists n) .zero = .ok (⟨0⟩, .ofLists n) := by
    rw [defineFunction, mentions]
    rfl
  have applied : (Edit.defineFunction (.ofLists n) .zero).apply Registry.builtin .empty =
      .ok (.ofLists n) := by
    rw [Edit.apply, defined]
    rfl
  exact Reached.edit (.first rfl) rfl trivial applied

private theorem encode_ofLists (n : Nat) :
    ∃ file, (Graph.ofLists n).encode Registry.builtin current = .ok file := by
  have fine : (Graph.ofLists n).fault? current = none := by
    have functions : (Graph.ofLists n).functionFault? = none := by
      rw [functionFault?_eq_none_iff]
      intro entry he type ht schema hs
      obtain rfl := List.mem_singleton.1 he
      obtain rfl := List.mem_singleton.1 ht
      exact absurd (hs.symm.trans (schema?_numbersIn n)) (by simp)
    exact functions
  rw [encode, fine]
  exact ⟨_, rfl⟩

private theorem items_ofLists (n : Nat) (item : Node × NodeRecord)
    (hi : item ∈ (Graph.ofLists n).items Registry.builtin) :
    item.1.inputs = [] ∧ item.2.name = "f" ∧ item.2.payload = Encode.count 0 ∧
      item.2.inputs = [] := by
  have both : (Graph.ofLists n).items Registry.builtin = [_, _] := rfl
  rw [both] at hi
  rcases List.mem_pair.1 hi with rfl | rfl <;> exact ⟨rfl, rfl, rfl, rfl⟩

private theorem countsFit_ofLists (n : Nat) : (Graph.ofLists n).CountsFit Registry.builtin where
  structs := (by decide : IsCount 0)
  functions := (by decide : IsCount 1)
  nodes := (by decide : IsCount 2)
  schemas := fun _ h => by simp [Graph.ofLists] at h
  signatures := by
    intro entry he
    obtain rfl := List.mem_singleton.1 he
    refine ⟨(by decide : IsCount "f".utf8ByteSize), (by decide : IsCount 1),
      (by decide : IsCount 0), fun field hf => ?_⟩
    obtain rfl := List.mem_singleton.1 hf
    exact ⟨(by decide : IsCount "x".utf8ByteSize), countsFit_numbersIn n⟩
  records := by
    intro item hi
    obtain ⟨-, name, payload, inputs⟩ := items_ofLists n item hi
    constructor
    · rw [name]
      decide
    · rw [payload]
      decide
    · rw [inputs]
      decide
    all_goals simp [inputs]
  insets := by
    intro item hi
    obtain ⟨inputs, -⟩ := items_ofLists n item hi
    have none : insetsOf item.1 = [] := by
      rw [insetsOf, inputs]
      rfl
    rw [none]
    exact ⟨(by decide : IsCount 0), fun _ h => by simp at h⟩

private theorem nestedWithin_ofLists (n : Nat) {depth : Nat} (shallow : n < depth) :
    (Graph.ofLists n).NestedWithin depth where
  fields := fun _ h => by simp [Graph.ofLists] at h
  parameters := by
    intro entry he type ht
    obtain rfl := List.mem_singleton.1 he
    obtain rfl := List.mem_singleton.1 ht
    rw [levels_numbersIn n]
    exact shallow
  insets := by
    obtain ⟨file, written⟩ := encode_ofLists n
    obtain ⟨-, records, recorded, -⟩ := encode_eq_ok written
    refine (nested_items_iff (records_eq_ok recorded).2).1 fun item hi inset hinset => ?_
    obtain ⟨input, hinput, -⟩ := mem_insetsOf.1 hinset
    simp [(items_ofLists n item hi).1] at hinput

/-- The file of a graph is read exactly if no type of a definition and no literal is nested deeper
than the reader goes. -/
theorem Reached.read_back_iff
    (reached : Reached (· = .empty) (Edit.Leads (· = Registry.builtin) fun _ _ => True) graph)
    (fit : graph.CountsFit Registry.builtin)
    (written : graph.encode Registry.builtin current = .ok file) :
    (∃ loaded, decode Registry.builtin file = .ok loaded) ↔ graph.NestedWithin maxNesting := by
  exact (reached.canonical fun _ h => h).decodes_iff fit written

theorem lists_read_back : ∃ file,
    (Graph.ofLists 63).encode Registry.builtin current = .ok file ∧
      ∃ loaded, decode Registry.builtin file = .ok loaded := by
  obtain ⟨file, written⟩ := encode_ofLists 63
  exact ⟨file, written, ((reached_ofLists 63).read_back_iff (countsFit_ofLists 63) written).2
    (nestedWithin_ofLists 63 (by decide))⟩

/-- With one list more the graph is written just as well, and not read back. -/
theorem deeper_lists_not_read_back :
    Reached (· = .empty) (Edit.Leads (· = Registry.builtin) fun _ _ => True) (.ofLists 64) ∧
      (Graph.ofLists 64).CountsFit Registry.builtin ∧
      ∃ file, (Graph.ofLists 64).encode Registry.builtin current = .ok file ∧
        ∀ loaded, decode Registry.builtin file ≠ .ok loaded := by
  obtain ⟨file, written⟩ := encode_ofLists 64
  refine ⟨reached_ofLists 64, countsFit_ofLists 64, file, written, fun loaded read => ?_⟩
  have nested := (((reached_ofLists 64).canonical fun _ h => h).decodes_iff
    (countsFit_ofLists 64) written).1 ⟨loaded, read⟩
  have deep := nested.parameters _ List.mem_cons_self _ List.mem_cons_self
  rw [levels_numbersIn] at deep
  exact absurd deep (by decide)

end NodeScript
