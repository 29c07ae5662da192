import Mathlib.Data.Fintype.EquivFin
import Mathlib.Logic.Relation
import NodeScript.Graph.Search

/-!
Searches find what edges lead to. `Step` is an edge from an element that is still to be expanded;
the two searches tell apart such elements in their own ways and are right for one reason. Main
statements: `leadsTo_iff` and `leadsToMarked_iff`, what becomes of paths when pairs are added to a
relation (`transGen_of_added`), and what a relation without loops has (`wellFounded_of_acyclic`).
-/

set_option autoImplicit false
set_option relaxedAutoImplicit false

namespace NodeScript

open Relation

variable {α : Type}

namespace Search

/-- An edge from an element that is still to be expanded. -/
def Step (edges : α → List α) (fresh : α → Prop) (a b : α) : Prop := fresh a ∧ b ∈ edges a

def Finds (edges : α → List α) (goal : α → Bool) (fresh : α → Prop) (pending : List α) : Prop :=
  ∃ p ∈ pending, ∃ x, goal x = true ∧ ReflTransGen (Step edges fresh) p x

variable {edges : α → List α} {goal : α → Bool} {fresh fresh' : α → Prop} {a : α}
  {pending : List α}

theorem Finds.of_goal (found : goal a = true) : Finds edges goal fresh (a :: pending) := by
  exact ⟨a, List.mem_cons_self, a, found, .refl⟩

private theorem path_around (others : ∀ x, fresh x → x ≠ a → fresh' x) {p x : α}
    (path : ReflTransGen (Step edges fresh) p x) :
    ReflTransGen (Step edges fresh') p x ∨ x = a ∨
      ∃ b ∈ edges a, ReflTransGen (Step edges fresh') b x := by
  induction path with
  | refl => exact .inl .refl
  | @tail y x _ step ih =>
    by_cases hy : y = a
    · subst hy
      exact .inr (.inr ⟨x, step.2, .refl⟩)
    · have rest : Step edges fresh' y x := ⟨others y step.1 hy, step.2⟩
      rcases ih with before | same | ⟨b, hb, behind⟩
      · exact .inl (before.tail rest)
      · exact absurd same hy
      · exact .inr (.inr ⟨b, hb, behind.tail rest⟩)

theorem finds_expand (missed : goal a ≠ true) (here : fresh a)
    (rest : ∀ x, fresh' x ↔ fresh x ∧ x ≠ a) :
    Finds edges goal fresh' (edges a ++ pending) ↔ Finds edges goal fresh (a :: pending) := by
  constructor
  · rintro ⟨p, hp, x, hx, path⟩
    have path : ReflTransGen (Step edges fresh) p x :=
      ReflTransGen.mono (fun y _ step => ⟨((rest y).1 step.1).1, step.2⟩) _ _ path
    rcases List.mem_append.1 hp with hp | hp
    · exact ⟨a, List.mem_cons_self, x, hx, .head ⟨here, hp⟩ path⟩
    · exact ⟨p, List.mem_cons_of_mem a hp, x, hx, path⟩
  · rintro ⟨p, hp, x, hx, path⟩
    rcases path_around (fun y hy apart => (rest y).2 ⟨hy, apart⟩) path with
      around | rfl | ⟨b, hb, behind⟩
    · rcases List.mem_cons.1 hp with rfl | hp
      · rcases around.cases_head with rfl | ⟨y, step, -⟩
        · exact absurd hx missed
        · exact absurd rfl ((rest p).1 step.1).2
      · exact ⟨p, List.mem_append_right _ hp, x, hx, around⟩
    · exact absurd hx missed
    · exact ⟨b, List.mem_append_left _ hb, x, hx, behind⟩

theorem finds_skip (missed : goal a ≠ true) (stale : ¬fresh a) :
    Finds edges goal fresh pending ↔ Finds edges goal fresh (a :: pending) := by
  constructor
  · rintro ⟨p, hp, rest⟩
    exact ⟨p, List.mem_cons_of_mem a hp, rest⟩
  · rintro ⟨p, hp, x, hx, path⟩
    rcases List.mem_cons.1 hp with rfl | hp
    · rcases path.cases_head with rfl | ⟨y, step, -⟩
      · exact absurd hx missed
      · exact absurd step.1 stale
    · exact ⟨p, hp, x, hx, path⟩

end Search

open Search

/-- The search in a list finds just what the edges from its elements lead to. -/
theorem leadsTo_iff [DecidableEq α] (edges : α → List α) (goal : α → Bool) {domain : List α}
    (nodup : domain.Nodup) (pending : List α) :
    leadsTo edges goal domain pending = true ↔ Finds edges goal (· ∈ domain) pending := by
  induction domain, pending using leadsTo.induct edges goal with
  | case1 domain => simp [leadsTo, Finds]
  | case2 domain a pending found =>
    rw [leadsTo, if_pos found]
    exact iff_of_true rfl (.of_goal found)
  | case3 domain a pending missed inside ih =>
    rw [leadsTo, if_neg missed, if_pos inside, ih (nodup.erase a)]
    exact finds_expand missed inside fun x => by rw [nodup.mem_erase_iff, and_comm]
  | case4 domain a pending missed outside ih =>
    rw [leadsTo, if_neg missed, if_neg outside, ih nodup]
    exact finds_skip missed outside

/-- The search with marks finds just what the edges from marked places lead to. -/
theorem leadsToMarked_iff {place : α → Nat} (injective : Function.Injective place)
    (edges : α → List α) (goal : α → Bool) (marks : Array Bool) (pending : List α) :
    leadsToMarked place edges goal marks pending = true ↔
      Finds edges goal (fun a => marks[place a]? = some true) pending := by
  induction marks, pending using leadsToMarked.induct place edges goal with
  | case1 marks => simp [leadsToMarked, Finds]
  | case2 marks a pending found =>
    rw [leadsToMarked, if_pos found]
    exact iff_of_true rfl (.of_goal found)
  | case3 marks a pending missed marked ih =>
    rw [leadsToMarked, if_neg missed, dif_pos marked, ih]
    refine finds_expand missed marked fun x => ?_
    rw [Array.getElem?_setIfInBounds]
    by_cases same : x = a
    · simp [same]
    · have apart : place a ≠ place x := fun h => same (injective h).symm
      simp [same, apart]
  | case4 marks a pending missed unmarked ih =>
    rw [leadsToMarked, if_neg missed, dif_neg unmarked, ih]
    exact finds_skip missed unmarked

/-- A path in a relation with more pairs stays in the relation, or runs up to the first part of
such a pair and onwards from the second part of one. -/
theorem transGen_of_added {r r' : α → α → Prop} {first second : α → Prop}
    (pairs : ∀ x y, r' x y → r x y ∨ (first x ∧ second y)) {x y : α} (path : TransGen r' x y) :
    TransGen r x y ∨
      ∃ a b, (first a ∧ ReflTransGen r x a) ∧ second b ∧ ReflTransGen r b y := by
  induction path with
  | single step =>
    rcases pairs _ _ step with step | ⟨hx, hy⟩
    · exact .inl (.single step)
    · exact .inr ⟨_, _, ⟨hx, .refl⟩, hy, .refl⟩
  | tail _ step ih =>
    rcases pairs _ _ step with step | ⟨hy, hz⟩
    · rcases ih with path | ⟨a, b, upTo, hb, onwards⟩
      · exact .inl (path.tail step)
      · exact .inr ⟨a, b, upTo, hb, onwards.tail step⟩
    · rcases ih with path | ⟨a, b, upTo, -⟩
      · exact .inr ⟨_, _, ⟨hy, path.to_reflTransGen⟩, hz, .refl⟩
      · exact .inr ⟨a, _, upTo, hz, .refl⟩

/-- Where there are finitely many elements, those that one without loops leads to come before it in
some order without end. -/
theorem wellFounded_of_acyclic [Finite α] {r : α → α → Prop} (acyclic : ∀ a, ¬TransGen r a a) :
    WellFounded fun b a => r a b := by
  let below (b a : α) : Prop := TransGen r a b
  have : IsTrans α below := ⟨fun _ _ _ first second => second.trans first⟩
  have : Std.Irrefl below := ⟨acyclic⟩
  have order : WellFounded below := Finite.wellFounded_of_trans_of_irrefl below
  exact Subrelation.wf (fun step => .single step) order

end NodeScript
