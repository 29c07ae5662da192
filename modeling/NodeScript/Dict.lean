/-!
Association lists: entries in order of insertion under any key, and dictionaries, whose entries
are sorted by their text keys.
-/

set_option autoImplicit false
set_option relaxedAutoImplicit false

namespace NodeScript

variable {κ α : Type}

/-- Sets the value of a key in place, or adds the entry at the end. -/
def Assoc.put [DecidableEq κ] (key : κ) (value : α) : List (κ × α) → List (κ × α)
  | [] => [(key, value)]
  | (k, v) :: rest => if k = key then (key, value) :: rest else (k, v) :: put key value rest

theorem Assoc.lookup_put_self [DecidableEq κ] (key : κ) (value : α) (entries : List (κ × α)) :
    (put key value entries).lookup key = some value := by
  induction entries with
  | nil => simp [put]
  | cons entry rest ih =>
    obtain ⟨k, v⟩ := entry
    by_cases h : k = key
    · simp [put, h]
    · simp [put, h, List.lookup_cons, ih, beq_eq_false_iff_ne.2 (Ne.symm h)]

theorem Assoc.lookup_put_of_ne [DecidableEq κ] {key other : κ} (h : other ≠ key) (value : α)
    (entries : List (κ × α)) : (put key value entries).lookup other = entries.lookup other := by
  induction entries with
  | nil => simp [put, List.lookup_cons, beq_eq_false_iff_ne.2 h]
  | cons entry rest ih =>
    obtain ⟨k, v⟩ := entry
    by_cases hk : k = key
    · subst hk
      simp [put, List.lookup_cons, beq_eq_false_iff_ne.2 h]
    · simp [put, hk, List.lookup_cons, ih]

theorem Assoc.lookup_filter [DecidableEq κ] (stays : κ → Bool) (key : κ)
    (entries : List (κ × α)) : (entries.filter fun entry => stays entry.1).lookup key =
      if stays key then entries.lookup key else none := by
  induction entries with
  | nil => simp
  | cons entry rest ih =>
    obtain ⟨k, v⟩ := entry
    by_cases same : key = k
    · subst same
      by_cases stay : stays key <;> simp [stay, ih]
    · by_cases stay : stays k <;> simp [stay, ih, List.lookup_cons, beq_eq_false_iff_ne.2 same]

/-- Entries sorted by key, no key twice. -/
abbrev Dict (α : Type) := List (String × α)

/-- Sets the value of a key, keeping the order of the keys. -/
def Dict.insert (key : String) (value : α) : Dict α → Dict α
  | [] => [(key, value)]
  | (k, v) :: rest =>
    if key = k then (key, value) :: rest
    else if key < k then (key, value) :: (k, v) :: rest
    else (k, v) :: insert key value rest

/-- The dictionary of some entries; of two with one key the later counts. -/
def Dict.ofList (entries : List (String × α)) : Dict α :=
  entries.foldl (fun dict (key, value) => Dict.insert key value dict) []

theorem Dict.lookup_insert (key other : String) (value : α) (dict : Dict α) :
    (insert key value dict).lookup other =
      if other = key then some value else dict.lookup other := by
  induction dict with
  | nil =>
    by_cases h : other = key
    · simp [insert, h]
    · simp [insert, List.lookup_cons, h, beq_eq_false_iff_ne.2 h]
  | cons entry rest ih =>
    obtain ⟨k, v⟩ := entry
    by_cases h : other = key
    · subst h
      by_cases hk : other = k
      · simp [insert, hk]
      · by_cases less : other < k
        · simp [insert, hk, less]
        · simp [insert, hk, less, List.lookup_cons, beq_eq_false_iff_ne.2 hk, ih]
    · by_cases hk : key = k
      · subst hk
        simp [insert, List.lookup_cons, beq_eq_false_iff_ne.2 h, h]
      · by_cases less : key < k
        · simp [insert, hk, less, List.lookup_cons, beq_eq_false_iff_ne.2 h, h]
        · rw [if_neg h] at ih ⊢
          simp [insert, hk, less, List.lookup_cons, ih]

private theorem Dict.lookup_insertAll_of_absent {entries : List (String × α)} {key : String}
    (absent : key ∉ entries.map (·.1)) (dict : Dict α) :
    (entries.foldl (fun dict (key, value) => insert key value dict) dict).lookup key =
      dict.lookup key := by
  induction entries generalizing dict with
  | nil => rfl
  | cons entry rest ih =>
    rw [List.map_cons, List.mem_cons, not_or] at absent
    rw [List.foldl_cons, ih absent.2, lookup_insert, if_neg absent.1]

private theorem Dict.lookup_insertAll {entries : List (String × α)}
    (nodup : (entries.map (·.1)).Nodup) {key : String} {value : α}
    (mem : (key, value) ∈ entries) (dict : Dict α) :
    (entries.foldl (fun dict (key, value) => insert key value dict) dict).lookup key =
      some value := by
  induction entries generalizing dict with
  | nil => simp at mem
  | cons entry rest ih =>
    rw [List.map_cons, List.nodup_cons] at nodup
    rw [List.foldl_cons]
    rcases List.mem_cons.1 mem with rfl | mem
    · rw [lookup_insertAll_of_absent nodup.1, lookup_insert, if_pos rfl]
    · exact ih nodup.2 mem _

theorem Dict.lookup_ofList {entries : List (String × α)} (nodup : (entries.map (·.1)).Nodup)
    {key : String} {value : α} (mem : (key, value) ∈ entries) :
    (ofList entries).lookup key = some value :=
  lookup_insertAll nodup mem []

end NodeScript
