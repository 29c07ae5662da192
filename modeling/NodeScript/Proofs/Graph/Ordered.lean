import Mathlib.Order.WellFounded
import NodeScript.Proofs.Graph.Mentions

/-!
Structs that stand behind those that they mention. A changed struct may have to stand elsewhere:
structs that do not lead back to themselves have an order, and taking the first that is ready,
again and again, finds it. Main statement: `ordered_inOrder`.
-/

set_option autoImplicit false
set_option relaxedAutoImplicit false

namespace NodeScript

open Relation Schema

variable {names names' : List String} {known : List Schema}

theorem DataType.IsNamed.imp {type : DataType} (named : type.IsNamed names)
    (stays : ∀ name ∈ names, type.mentions name = true → name ∈ names') : type.IsNamed names' := by
  intro schema hs
  exact stays _ (named schema hs) (DataType.mentions_iff.2 ⟨schema, hs, rfl⟩)

namespace Schema

theorem fieldsNamed_iff {schema : Schema} :
    schema.FieldsNamed names ↔ ∀ name, schema.Mentions name → name ∈ names := by
  constructor
  · rintro named name ⟨field, hf, mentions⟩
    obtain ⟨held, hs, rfl⟩ := DataType.mentions_iff.1 mentions
    exact named field hf held hs
  · intro named field hf held hs
    exact named held.name ⟨field, hf, DataType.mentions_iff.2 ⟨held, hs, rfl⟩⟩

theorem FieldsNamed.mono {schema : Schema} (named : schema.FieldsNamed names)
    (more : ∀ name ∈ names, name ∈ names') : schema.FieldsNamed names' := by
  intro field hf
  refine (named field hf).imp fun name member _ => ?_
  exact more name member

/-- Each struct mentions only those that stand before it and the given names. -/
def Ordered : List String → List Schema → Prop
  | _, [] => True
  | names, schema :: rest => schema.FieldsNamed names ∧ Ordered (schema.name :: names) rest

theorem ordered_append_iff {last : List Schema} : Ordered names (known ++ last) ↔
    Ordered names known ∧ Ordered ((known.map (·.name)).reverse ++ names) last := by
  induction known generalizing names with
  | nil => simp [Ordered]
  | cons schema rest ih =>
    rw [List.cons_append, Ordered, Ordered, ih, and_assoc, List.map_cons, List.reverse_cons,
      List.append_assoc]
    rfl

/-- What a struct mentions stands before it. -/
theorem Ordered.earlier (ordered : Ordered [] known) {before after : List Schema} {schema : Schema}
    (here : known = before ++ schema :: after) : schema.FieldsNamed (before.map (·.name)) := by
  rw [here, ordered_append_iff] at ordered
  exact ordered.2.1.mono fun name member => by simpa using member

theorem Ordered.fieldsNamed (ordered : Ordered [] known) {schema : Schema}
    (member : schema ∈ known) :
    schema.FieldsNamed (known.map (·.name)) := by
  obtain ⟨before, after, here⟩ := List.append_of_mem member
  refine (ordered.earlier here).mono fun name member => ?_
  rw [here, List.map_append]
  exact List.mem_append_left _ member

theorem Ordered.concat (ordered : Ordered [] known) {schema : Schema}
    (named : schema.FieldsNamed (known.map (·.name))) : Ordered [] (known ++ [schema]) := by
  exact ordered_append_iff.2 ⟨ordered, named.mono fun name member => by simpa using member, trivial⟩

theorem Ordered.unreached (ordered : Ordered [] known) {name fresh : String}
    (absent : fresh ∉ known.map (·.name)) (here : name ∈ known.map (·.name)) :
    ¬ReflTransGen (Refers known) name fresh := by
  intro path
  rcases path.cases_tail with rfl | ⟨_, -, schema, member, -, mentions⟩
  · exact absent here
  · exact absent (fieldsNamed_iff.1 (ordered.fieldsNamed member) fresh mentions)

/-- A struct that no other one mentions may be left out. -/
theorem Ordered.filter (ordered : Ordered names known) {gone : String}
    (absent : ∀ schema ∈ known, schema.name ≠ gone → ¬schema.Mentions gone) :
    Ordered (names.filter (· ≠ gone)) (known.filter (·.name ≠ gone)) := by
  induction known generalizing names with
  | nil => trivial
  | cons schema rest ih =>
    have rest := ih ordered.2 fun other member => absent other (List.mem_cons_of_mem _ member)
    by_cases here : schema.name = gone
    · rw [List.filter_cons_of_neg (by simpa using here)]
      rwa [List.filter_cons_of_neg (by simpa using here)] at rest
    · rw [List.filter_cons_of_pos (by simpa using here)]
      rw [List.filter_cons_of_pos (by simpa using here)] at rest
      refine ⟨fieldsNamed_iff.2 fun name mentions => List.mem_filter.2 ⟨?_, ?_⟩, rest⟩
      · exact fieldsNamed_iff.1 ordered.1 name mentions
      · have other : name ≠ gone := by
          intro same
          subst same
          exact absent schema List.mem_cons_self here mentions
        simpa using other

end Schema

namespace Graph

theorem isReady_iff {pending : List StructEntry} {entry : StructEntry} :
    isReady pending entry = true ↔
      ∀ name, entry.schema.Mentions name → name ∉ pending.map (·.schema.name) := by
  simp only [isReady, List.all_eq_true]
  constructor
  · rintro ready name ⟨field, hf, mentions⟩ member
    obtain ⟨held, hs, rfl⟩ := DataType.mentions_iff.1 mentions
    have absent := ready field hf
    rw [hs] at absent
    obtain ⟨other, ho, same⟩ := List.mem_map.1 member
    simp only [Bool.not_eq_true', List.any_eq_false, beq_iff_eq] at absent
    exact absent other ho same
  · intro ready field hf
    cases hs : field.type.schema? with
    | none => rfl
    | some held =>
      have absent := ready held.name ⟨field, hf, DataType.mentions_iff.2 ⟨held, hs, rfl⟩⟩
      simpa using absent

theorem exists_isReady {pending : List StructEntry} (some : pending ≠ [])
    (unlooped : Unlooped (pending.map (·.schema))) :
    ∃ entry ∈ pending, isReady pending entry = true := by
  -- The names are not asked to be distinct, so what is lowest is a place in the list.
  let name (i : Fin pending.length) : String := pending[i].schema.name
  let refers (i j : Fin pending.length) : Prop :=
    Refers (pending.map (·.schema)) (name i) (name j)
  have order := wellFounded_of_acyclic (r := refers) fun i loop =>
    unlooped (name i) (loop.lift name fun _ _ step => step)
  have start : Fin pending.length := ⟨0, List.length_pos_iff.2 some⟩
  obtain ⟨lowest, -, least⟩ := order.has_min Set.univ ⟨start, trivial⟩
  refine ⟨pending[lowest], List.getElem_mem _, isReady_iff.2 fun _ mentions there => ?_⟩
  obtain ⟨other, ho, rfl⟩ := List.mem_map.1 there
  obtain ⟨i, inside, rfl⟩ := List.getElem_of_mem ho
  refine least ⟨i, inside⟩ trivial ⟨_, ?_, rfl, mentions⟩
  exact List.mem_map_of_mem (List.getElem_mem _)

theorem isReady_nextReady {pending : List StructEntry} {entry : StructEntry}
    (found : pending[nextReady pending]? = some entry)
    (ready : ∃ entry ∈ pending, isReady pending entry = true) : isReady pending entry = true := by
  unfold nextReady at found
  cases place : pending.findIdx? (isReady pending) with
  | none =>
    obtain ⟨other, ho, ready⟩ := ready
    simp [List.findIdx?_eq_none_iff.1 place other ho] at ready
  | some i =>
    obtain ⟨inside, ready, -⟩ := List.findIdx?_eq_some_iff_getElem.1 place
    rw [place, Option.getD_some, List.getElem?_eq_getElem inside] at found
    obtain rfl := Option.some.inj found
    exact ready

/-- Structs that do not lead back to themselves and mention no unknown ones get into an order. -/
theorem ordered_inOrder {pending : List StructEntry}
    (unlooped : Unlooped (pending.map (·.schema)))
    (named : ∀ entry ∈ pending, entry.schema.FieldsNamed (pending.map (·.schema.name) ++ names)) :
    Ordered names ((inOrder pending).map (·.schema)) := by
  induction pending using inOrder.induct generalizing names with
  | case1 pending none =>
    rw [eq_nil_of_nextReady none, inOrder_nil]
    trivial
  | case2 pending entry found ih =>
    have perm := eraseIdx_perm found
    have some : pending ≠ [] := fun none => by simp [none] at found
    have ready := isReady_iff.1 (isReady_nextReady found (exists_isReady some unlooped))
    rw [inOrder_cons found]
    -- What is ready mentions none of those that are left, so the given names are enough.
    refine ⟨fieldsNamed_iff.2 fun name mentions => ?_, ih ?_ fun other ho => ?_⟩
    · have member := fieldsNamed_iff.1 (named entry (List.mem_of_getElem? found)) name mentions
      exact (List.mem_append.1 member).resolve_left (ready name mentions)
    · refine unlooped.of_subset fun schema member => ?_
      exact (perm.map _).mem_iff.1 (List.mem_cons_of_mem _ member)
    · refine (named other (perm.mem_iff.1 (List.mem_cons_of_mem _ ho))).mono fun name member => ?_
      have names := (perm.map fun entry => entry.schema.name).mem_iff (a := name)
      rw [List.mem_append, ← names] at member
      simpa [or_assoc, or_left_comm] using member

end Graph

end NodeScript
