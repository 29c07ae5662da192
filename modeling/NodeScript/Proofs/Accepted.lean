import Mathlib.Data.List.Forall2

/-!
Computations that may be refused, taken apart where they are accepted.
-/

set_option autoImplicit false
set_option relaxedAutoImplicit false

namespace NodeScript.Accepted

variable {ε α β σ : Type}

theorem bind_iff {first : Except ε α} {next : α → Except ε β} {b : β} :
    first >>= next = .ok b ↔ ∃ a, first = .ok a ∧ next a = .ok b := by
  cases first with
  | error reason => simp [bind, Except.bind]
  | ok a => simp [bind, Except.bind]

@[simp] theorem throw_ne (reason : ε) (a : α) : (throw reason : Except ε α) ≠ .ok a := by
  simp [throw, throwThe, MonadExceptOf.throw]

theorem map_iff {first : Except ε α} {f : α → β} {b : β} :
    first.map f = .ok b ↔ ∃ a, first = .ok a ∧ f a = b := by
  cases first <;> simp [Except.map]

theorem forM_iff {check : α → Except ε Unit} {items : List α} :
    items.forM check = .ok () ↔ ∀ a ∈ items, check a = .ok () := by
  induction items with
  | nil => simp [pure, Except.pure]
  | cons a items ih =>
    rw [List.forM, bind_iff, List.forall_mem_cons, ← ih]
    constructor
    · rintro ⟨⟨⟩, first, rest⟩
      exact ⟨first, rest⟩
    · rintro ⟨first, rest⟩
      exact ⟨(), first, rest⟩

theorem mapM_iff {make : α → Except ε β} {items : List α} {made : List β} :
    items.mapM make = .ok made ↔ List.Forall₂ (fun a b => make a = .ok b) items made := by
  induction items generalizing made with
  | nil => simp [pure, Except.pure, eq_comm]
  | cons a items ih =>
    rw [List.mapM_cons, bind_iff, List.forall₂_cons_left_iff]
    constructor
    · rintro ⟨b, first, rest⟩
      obtain ⟨others, others_made, same⟩ := bind_iff.1 rest
      cases same
      exact ⟨b, others, first, ih.1 others_made, rfl⟩
    · rintro ⟨b, others, first, rest, rfl⟩
      exact ⟨b, first, bind_iff.2 ⟨others, ih.2 rest, rfl⟩⟩

theorem mapM_isOk {make : α → Except ε β} {items : List α}
    (each : ∀ a ∈ items, ∃ b, make a = .ok b) : ∃ made, items.mapM make = .ok made := by
  induction items with
  | nil => exact ⟨[], rfl⟩
  | cons a items ih =>
    obtain ⟨b, first⟩ := each a List.mem_cons_self
    obtain ⟨others, rest⟩ := ih fun other ho => each other (List.mem_cons_of_mem a ho)
    rw [List.mapM_cons]
    exact ⟨b :: others, bind_iff.2 ⟨b, first, bind_iff.2 ⟨others, rest, rfl⟩⟩⟩

theorem mem_of_mapM {make : α → Except ε β} {items : List α} {made : List β} {b : β}
    (accepted : items.mapM make = .ok made) (mem : b ∈ made) : ∃ a ∈ items, make a = .ok b := by
  have each := mapM_iff.1 accepted
  clear accepted
  induction each with
  | nil => simp at mem
  | cons first _ ih =>
    rcases List.mem_cons.1 mem with rfl | mem
    · exact ⟨_, List.mem_cons_self, first⟩
    · obtain ⟨a, ha, made⟩ := ih mem
      exact ⟨a, List.mem_cons_of_mem _ ha, made⟩

theorem toOption_eq_some_iff {answer : Except ε α} {a : α} :
    answer.toOption = some a ↔ answer = .ok a := by
  cases answer <;> simp [Except.toOption]

/-- What holds of a state and of the items that are left holds at the end of nothing left. -/
theorem foldlM {step : σ → α → Except ε σ} (property : List α → σ → Prop)
    (keeps : ∀ a rest state next, property (a :: rest) state → step state a = .ok next →
      property rest next) {items : List α} {state last : σ} (start : property items state)
    (accepted : items.foldlM step state = .ok last) : property [] last := by
  induction items generalizing state with
  | nil =>
    rw [List.foldlM_nil] at accepted
    cases accepted
    exact start
  | cons a items ih =>
    rw [List.foldlM_cons, bind_iff] at accepted
    obtain ⟨next, first, accepted⟩ := accepted
    exact ih (keeps a items state next start first) accepted

theorem foldlM_done {step : σ → α → Except ε σ} (property : List α → List α → σ → Prop)
    {items : List α} (nodup : items.Nodup)
    (keeps : ∀ done a rest state next, a ∉ done → property done (a :: rest) state →
      step state a = .ok next → property (done ++ [a]) rest next)
    {state last : σ} (start : property [] items state)
    (accepted : items.foldlM step state = .ok last) : property items [] last := by
  have held := foldlM (fun rest state => ∃ done, done ++ rest = items ∧ property done rest state)
    (fun a rest state next held step => by
      obtain ⟨done, split, holds⟩ := held
      have left : a ∉ done := fun mem => by
        rw [← split, List.nodup_append] at nodup
        exact nodup.2.2 a mem a List.mem_cons_self rfl
      exact ⟨done ++ [a], by simpa using split, keeps done a rest state next left holds step⟩)
    ⟨[], rfl, start⟩ accepted
  obtain ⟨done, same, holds⟩ := held
  rw [List.append_nil] at same
  subst same
  exact holds

end NodeScript.Accepted
