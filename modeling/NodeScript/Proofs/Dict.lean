import Mathlib.Data.List.Dedup
import Mathlib.Data.List.Sort
import NodeScript.Dict

/-!
The keys of dictionaries. Main statements: setting a value adds its key at most, and keeps the keys
in ascending order (`Dict.mem_keys_insert`, `Dict.ascending_insert`), and dictionaries with
ascending keys are the same if their values are (`Dict.ext_lookup`).
-/

set_option autoImplicit false
set_option relaxedAutoImplicit false

namespace NodeScript.Dict

variable {α : Type} {key other : String} {value : α} {dict : Dict α}

def Ascending (dict : Dict α) : Prop := (dict.map (·.1)).Pairwise (· < ·)

theorem ascending_nil : Ascending ([] : Dict α) := .nil

theorem mem_keys_insert : other ∈ (insert key value dict).map (·.1) ↔
    other = key ∨ other ∈ dict.map (·.1) := by
  induction dict with
  | nil => simp [insert]
  | cons entry rest ih =>
    obtain ⟨k, v⟩ := entry
    by_cases same : key = k
    · subst same
      simp [insert]
    · by_cases less : key < k
      · simp [insert, same, less]
      · rw [insert, if_neg same, if_neg less, List.map_cons, List.mem_cons, ih, List.map_cons,
          List.mem_cons, or_left_comm]

theorem ascending_insert (ascending : Ascending dict) : Ascending (insert key value dict) := by
  induction dict with
  | nil => exact List.pairwise_singleton _ _
  | cons entry rest ih =>
    obtain ⟨k, v⟩ := entry
    obtain ⟨first, below⟩ := List.pairwise_cons.1 ascending
    by_cases same : key = k
    · subst same
      rw [insert, if_pos rfl]
      exact .cons first below
    · by_cases less : key < k
      · rw [insert, if_neg same, if_pos less]
        refine .cons (fun other mem => ?_) (.cons first below)
        rcases List.mem_cons.1 mem with rfl | mem
        · exact less
        · exact String.lt_trans less (first other mem)
      · have more : k < key :=
          Std.lt_of_le_of_ne (String.not_lt.1 less) fun other => same other.symm
        rw [insert, if_neg same, if_neg less]
        refine .cons (fun other mem => ?_) (ih below)
        rcases mem_keys_insert.1 mem with rfl | mem
        · exact more
        · exact first other mem

theorem mem_keys_iff : key ∈ dict.map (·.1) ↔ ∃ value, dict.lookup key = some value := by
  induction dict with
  | nil => simp
  | cons entry rest ih =>
    obtain ⟨k, v⟩ := entry
    by_cases same : key = k
    · subst same
      simp
    · rw [List.map_cons, List.mem_cons, ih, List.lookup_cons, beq_eq_false_iff_ne.2 same]
      simp [same]

theorem mem_iff_lookup (ascending : Ascending dict) :
    (key, value) ∈ dict ↔ dict.lookup key = some value := by
  induction dict with
  | nil => simp
  | cons entry rest ih =>
    obtain ⟨k, v⟩ := entry
    obtain ⟨first, below⟩ := List.pairwise_cons.1 ascending
    rw [List.mem_cons, ih below, List.lookup_cons]
    by_cases same : key = k
    · subst same
      have absent : rest.lookup key ≠ some value := fun found =>
        String.lt_irrefl key (first key (mem_keys_iff.2 ⟨value, found⟩))
      simp [absent, eq_comm]
    · simp [same, beq_eq_false_iff_ne.2 same]

/-- Dictionaries with ascending keys are the same if all keys have the same values. -/
theorem ext_lookup {dict' : Dict α} (ascending : Ascending dict) (ascending' : Ascending dict')
    (same : ∀ key, dict.lookup key = dict'.lookup key) : dict = dict' := by
  let before (a b : String × α) : Prop := a.1 < b.1
  have : Std.Irrefl before := ⟨fun a => String.lt_irrefl a.1⟩
  have : Std.Antisymm before := ⟨fun a b less less' => absurd less' (String.lt_asymm less)⟩
  refine List.Pairwise.eq_of_mem_iff (r := before) (List.pairwise_map.1 ascending)
    (List.pairwise_map.1 ascending') ?_
  rintro ⟨key, value⟩
  rw [mem_iff_lookup ascending, mem_iff_lookup ascending', same]

/-- The different ones among some names, in ascending order. -/
def distinct (names : List String) : List String :=
  names.dedup.mergeSort fun a b => decide (a ≤ b)

theorem mem_distinct {names : List String} {name : String} :
    name ∈ distinct names ↔ name ∈ names := by
  rw [distinct, List.mem_mergeSort, List.mem_dedup]

theorem distinct_pairwise (names : List String) : (distinct names).Pairwise (· < ·) := by
  have sorted : (distinct names).Pairwise fun a b => decide (a ≤ b) = true :=
    List.pairwise_mergeSort (fun a b c => by simpa using String.le_trans)
      (fun a b => by simpa using String.le_total a b) names.dedup
  have nodup : (distinct names).Nodup :=
    (List.mergeSort_perm _ _).nodup_iff.2 (List.nodup_dedup names)
  refine (sorted.and nodup).imp fun both => ?_
  exact Std.lt_of_le_of_ne (of_decide_eq_true both.1) both.2

theorem eq_distinct {names names' : List String} (ascending : names.Pairwise (· < ·))
    (same : ∀ name, name ∈ names ↔ name ∈ names') : names = distinct names' := by
  have : Std.Irrefl fun a b : String => a < b := ⟨String.lt_irrefl⟩
  have : Std.Antisymm fun a b : String => a < b :=
    ⟨fun a b less less' => absurd less' (String.lt_asymm less)⟩
  refine List.Pairwise.eq_of_mem_iff (r := fun a b : String => a < b) ascending
    (distinct_pairwise names') fun name => ?_
  rw [same, mem_distinct]

end NodeScript.Dict
