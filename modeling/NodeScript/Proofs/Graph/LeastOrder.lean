import Mathlib.Data.List.Permutation
import NodeScript.Proofs.Graph.Ordered

/-!
Where a table of structs is put when it is ordered. A struct is behind those of the table that it
mentions, and no struct is moved further than that asks for. Main statement: `inOrder_least`: of
all such orders the one that is taken comes first, places of the table being compared one by one.
-/

set_option autoImplicit false
set_option relaxedAutoImplicit false

namespace NodeScript.Graph

open Relation Schema

variable {pending rest other : List StructEntry} {entry : StructEntry} {i : Nat}

/-- Each struct stands behind those structs of the list that it mentions. -/
def IsDependencyOrder (entries : List StructEntry) : Prop :=
  ∀ before entry after, entries = before ++ entry :: after →
    ∀ mentioned ∈ entries, entry.schema.Mentions mentioned.schema.name → mentioned ∈ before

/-- The place in a table of the struct with the name of the given one. -/
def placeIn (table : List StructEntry) (entry : StructEntry) : Nat :=
  (table.map (·.schema.name)).idxOf entry.schema.name

/-- The structs of a table in the order in which they are taken out of it, each being the first
that is ready at its turn. -/
inductive TakenInTurn : List StructEntry → List StructEntry → Prop where
  | nil : TakenInTurn [] []
  | cons {pending rest : List StructEntry} {entry : StructEntry} {i : Nat}
    (found : pending.findIdx? (isReady pending) = some i) (here : pending[i]? = some entry)
    (later : TakenInTurn (pending.eraseIdx i) rest) : TakenInTurn pending (entry :: rest)

theorem isReady_perm (perm : pending.Perm other) (entry : StructEntry) :
    isReady pending entry = isReady other entry := by
  rw [Bool.eq_iff_iff, isReady_iff, isReady_iff]
  simp only [(perm.map (·.schema.name)).mem_iff]

theorem isDependencyOrder_nil : IsDependencyOrder [] := by
  intro _ _ _ here
  simp at here

theorem IsDependencyOrder.isReady_head (order : IsDependencyOrder (entry :: rest)) :
    isReady (entry :: rest) entry = true := by
  refine isReady_iff.2 fun name mentions there => ?_
  obtain ⟨mentioned, member, rfl⟩ := List.mem_map.1 there
  simpa using order [] entry rest rfl mentioned member mentions

theorem IsDependencyOrder.tail (order : IsDependencyOrder (entry :: rest))
    (distinct : ((entry :: rest).map (·.schema.name)).Nodup) : IsDependencyOrder rest := by
  rintro before holder after rfl mentioned member mentions
  have earlier := order (entry :: before) holder after rfl mentioned
    (List.mem_cons_of_mem _ member) mentions
  refine (List.mem_cons.1 earlier).resolve_left ?_
  rintro rfl
  exact (List.nodup_cons.1 distinct).1 (List.mem_map_of_mem member)

theorem IsDependencyOrder.cons (ready : isReady (entry :: rest) entry = true)
    (order : IsDependencyOrder rest) : IsDependencyOrder (entry :: rest) := by
  intro before holder after here mentioned member mentions
  cases before with
  | nil =>
    obtain ⟨rfl, rfl⟩ := List.cons.inj here
    exact absurd (List.mem_map_of_mem member) (isReady_iff.1 ready _ mentions)
  | cons first before =>
    obtain ⟨rfl, behind⟩ := List.cons.inj here
    rcases List.mem_cons.1 member with rfl | member
    · exact List.mem_cons_self
    · exact List.mem_cons_of_mem _ (order before holder after behind mentioned member mentions)

theorem IsDependencyOrder.unlooped {entries : List StructEntry} (order : IsDependencyOrder entries)
    (distinct : (entries.map (·.schema.name)).Nodup) : Unlooped (entries.map (·.schema)) := by
  induction entries with
  | nil => exact unlooped_nil
  | cons entry rest ih =>
    have ready := isReady_iff.1 order.isReady_head
    refine (ih (order.tail distinct) (List.nodup_cons.1 distinct).2).with_one
      (fun _ member => (List.mem_cons.1 member).symm) fun name mentions path => ?_
    -- What the first struct mentions is not in the table, so that no path begins there.
    rcases path.cases_head with rfl | ⟨_, ⟨schema, member, rfl, -⟩, -⟩
    · exact ready _ mentions List.mem_cons_self
    · obtain ⟨holder, hholder, rfl⟩ := List.mem_map.1 member
      exact ready _ mentions (List.mem_cons_of_mem _ (List.mem_map_of_mem hholder))

theorem takenInTurn_inOrder (unlooped : Unlooped (pending.map (·.schema))) :
    TakenInTurn pending (inOrder pending) := by
  induction pending using inOrder.induct with
  | case1 pending none =>
    rw [eq_nil_of_nextReady none, inOrder_nil]
    exact .nil
  | case2 pending entry here ih =>
    have some : pending ≠ [] := fun none => by simp [none] at here
    obtain ⟨first, member, ready⟩ := exists_isReady some unlooped
    obtain ⟨i, found⟩ : ∃ i, pending.findIdx? (isReady pending) = .some i := by
      rw [← Option.isSome_iff_exists, List.findIdx?_isSome]
      exact List.any_eq_true.2 ⟨first, member, ready⟩
    have next : nextReady pending = i := by rw [nextReady, found, Option.getD_some]
    rw [inOrder_cons here]
    rw [next] at here ih ⊢
    refine .cons found here (ih ?_)
    exact unlooped.of_subset fun _ member => ((pending.eraseIdx_sublist i).map _).subset member

namespace TakenInTurn

variable {order : List StructEntry}

theorem isReady (taken : TakenInTurn pending (entry :: rest)) :
    Graph.isReady pending entry = true := by
  cases taken with
  | cons found here later =>
    obtain ⟨inside, ready, -⟩ := List.findIdx?_eq_some_iff_getElem.1 found
    rw [List.getElem?_eq_getElem inside] at here
    obtain rfl := Option.some.inj here
    exact ready

theorem perm (taken : TakenInTurn pending order) : order.Perm pending := by
  induction taken with
  | nil => exact .nil
  | cons _ here _ ih => exact (ih.cons _).trans (eraseIdx_perm here)

theorem isDependencyOrder (taken : TakenInTurn pending order) : IsDependencyOrder order := by
  induction taken with
  | nil => exact isDependencyOrder_nil
  | cons found here later ih =>
    have whole := (TakenInTurn.cons found here later).perm
    refine .cons ?_ ih
    rw [isReady_perm whole]
    exact (TakenInTurn.cons found here later).isReady

theorem eq_of_isDependencyOrder (taken : TakenInTurn pending order)
    (distinct : (pending.map (·.schema.name)).Nodup) (already : IsDependencyOrder pending) :
    order = pending := by
  induction taken with
  | nil => rfl
  | @cons pending rest entry i found here later ih =>
    cases pending with
    | nil => simp at here
    | cons first others =>
      have front : i = 0 := by
        rw [List.findIdx?_cons, already.isReady_head, if_pos rfl] at found
        exact (Option.some.inj found).symm
      subst front
      obtain rfl := Option.some.inj here
      rw [ih (List.nodup_cons.1 distinct).2 (already.tail distinct)]
      rfl

theorem least {key : StructEntry → Nat} (taken : TakenInTurn pending order)
    (distinct : (pending.map (·.schema.name)).Nodup)
    (grows : pending.Pairwise fun a b => key a < key b) (perm : other.Perm pending)
    (already : IsDependencyOrder other) :
    other = order ∨ List.Lex (· < ·) (order.map key) (other.map key) := by
  induction taken generalizing other with
  | nil => exact .inl perm.eq_nil
  | @cons pending rest entry i found here later ih =>
    obtain ⟨inside, -, before⟩ := List.findIdx?_eq_some_iff_getElem.1 found
    obtain rfl : pending[i] = entry := by
      rw [List.getElem?_eq_getElem inside] at here
      exact Option.some.inj here
    cases other with
    | nil => simp [perm.symm.eq_nil] at inside
    | cons first others =>
      -- The first of the other order is ready too, so it does not stand before the one taken.
      have ready : Graph.isReady pending first = true := by
        rw [← isReady_perm perm first]
        exact already.isReady_head
      obtain ⟨j, inside', rfl⟩ := List.getElem_of_mem (perm.mem_iff.1 List.mem_cons_self)
      have notBefore : i ≤ j := Nat.le_of_not_lt fun less => by
        simpa [ready] using before j less
      rcases Nat.eq_or_lt_of_le notBefore with rfl | later
      · have whole := eraseIdx_perm here
        have others_perm := (perm.trans whole.symm).cons_inv
        have kept := pending.eraseIdx_sublist i
        have names := (perm.map (·.schema.name)).nodup_iff.2 distinct
        rcases ih (kept.map _ |>.nodup distinct) (grows.sublist kept) others_perm
          (already.tail names) with rfl | less
        · exact .inl rfl
        · exact .inr (.cons less)
      · exact .inr (.rel (List.pairwise_iff_getElem.1 grows i j inside inside' later))

end TakenInTurn

theorem placeIn_pairwise {table : List StructEntry}
    (distinct : (table.map (·.schema.name)).Nodup) :
    table.Pairwise fun a b => placeIn table a < placeIn table b := by
  rw [List.pairwise_iff_getElem]
  intro i j hi hj less
  have place (k : Nat) (inside : k < table.length) : placeIn table table[k] = k := by
    have inside' : k < (table.map (·.schema.name)).length := by rwa [List.length_map]
    have same := distinct.idxOf_getElem k inside'
    rwa [List.getElem_map] at same
  rwa [place i hi, place j hj]

/-- Structs with distinct names that do not lead back to themselves are taken in turn, one always
being ready, until none is left. In the order that comes of it each struct stands behind those of
the table that it mentions, and of all such orders it is the least by the places in the table; so a
table that is in order already stays as it is. -/
theorem inOrder_least (distinct : (pending.map (·.schema.name)).Nodup)
    (unlooped : Unlooped (pending.map (·.schema))) :
    TakenInTurn pending (inOrder pending) ∧ (inOrder pending).Perm pending ∧
      IsDependencyOrder (inOrder pending) ∧
      (∀ other : List StructEntry, other.Perm pending → IsDependencyOrder other →
        other = inOrder pending ∨ List.Lex (· < ·)
          ((inOrder pending).map (placeIn pending)) (other.map (placeIn pending))) ∧
      (IsDependencyOrder pending → inOrder pending = pending) := by
  have taken := takenInTurn_inOrder unlooped
  exact ⟨taken, taken.perm, taken.isDependencyOrder,
    fun _ => taken.least distinct (placeIn_pairwise distinct),
    taken.eq_of_isDependencyOrder distinct⟩

/-- Marks at points, lines, and points. -/
def drawing : List StructEntry := [
  { id := ⟨0⟩, schema := ⟨"Mark", [("at", .list (.struct "Point" [("x", .number)]))]⟩ },
  { id := ⟨1⟩, schema := ⟨"Line", [("width", .number)]⟩ },
  { id := ⟨2⟩, schema := ⟨"Point", [("x", .number)]⟩ }]

theorem drawing_inOrder :
    (drawing.map (·.schema.name)).Nodup ∧ Unlooped (drawing.map (·.schema)) ∧
      (inOrder drawing).map (·.schema.name) = ["Line", "Point", "Mark"] ∧
      IsDependencyOrder (inOrder drawing) ∧
      ∃ other : List StructEntry, other.Perm drawing ∧ IsDependencyOrder other ∧
        other.map (placeIn drawing) = [2, 0, 1] ∧
        List.Lex (· < ·) ((inOrder drawing).map (placeIn drawing)) [2, 0, 1] := by
  have distinct : (drawing.map (·.schema.name)).Nodup := by decide
  have names : (inOrder drawing).map (·.schema.name) = ["Line", "Point", "Mark"] := by cbv
  let other : List StructEntry := [drawing[2], drawing[0], drawing[1]]
  have perm : other.Perm drawing :=
    @List.perm_append_comm _ [drawing[2]] [drawing[0], drawing[1]]
  have order : IsDependencyOrder other :=
    .cons (by decide) (.cons (by decide) (.cons (by decide) isDependencyOrder_nil))
  have unlooped : Unlooped (drawing.map (·.schema)) :=
    (order.unlooped (by decide)).of_subset fun _ member => (perm.map _).mem_iff.2 member
  obtain ⟨-, -, dependency, least, -⟩ := inOrder_least distinct unlooped
  refine ⟨distinct, unlooped, names, dependency, other, perm, order, by decide, ?_⟩
  refine (least other perm order).resolve_left fun same => ?_
  rw [← same] at names
  exact absurd names (by decide)

end NodeScript.Graph
