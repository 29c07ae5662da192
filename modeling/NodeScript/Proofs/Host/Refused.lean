import Mathlib
import NodeScript.Proofs.Graph.Unchanged
import NodeScript.Proofs.Host.Guarded

/-!
Refused edits of graphs and of hosts. Main statement: whatever edits in place made of a graph, an
edit that is refused or finds nothing to change leaves the graph as it was, and a host does with an
edit what is done in place (`Graph.Worked.refused_unchanged`).
-/

set_option autoImplicit false
set_option relaxedAutoImplicit false

namespace NodeScript

open Decode Format

/-- The answer of an edit in place, and the graph that it leaves. -/
def Editing.runOn {α : Type} (editing : Editing α) (graph : Graph) : Except GraphError α × Graph :=
  match editing.run graph with
  | .ok a next => (.ok a, next)
  | .error error left => (.error error, left)

/-- One graph is what an edit in place leaves of another, whether it is refused or not. -/
def Edit.Leaves (catalogs : Registry → Prop) (graph next : Graph) : Prop :=
  ∃ registry guarded edit, catalogs registry ∧
    ((performAs guarded registry edit).runOn graph).2 = next

/-- The graphs that begin empty or in a file of any version, and what is left of them by edits in
place, whether they are refused or not. -/
def Graph.Worked (catalogs : Registry → Prop) : Graph → Prop :=
  Reached (Begins catalogs) (Edit.Leaves catalogs)

namespace Editing

variable {α : Type} {graph : Graph}

theorem Whole.runOn_eq {editing : Editing α} (whole : editing.Whole graph) :
    editing.runOn graph = ((editing.outcome graph).map (·.1),
      match editing.outcome graph with
      | .ok made => made.2
      | .error _ => graph) := by
  unfold runOn outcome
  cases ran : editing.run graph with
  | ok => rfl
  | error error after => rw [whole error after ran]; rfl

end Editing

namespace Edit

variable {admits : Graph.Admits} {graph : Graph}

def makeAs (guarded : Bool) (registry : Registry) (graph : Graph) (edit : Edit) :
    Except GraphError (Bool × Graph) := do
  if guarded then edit.guard graph
  edit.make registry graph

theorem outcome_performAs (guarded : Bool) (registry : Registry) (edit : Edit) :
    (edit.performAs guarded registry).outcome graph = edit.makeAs guarded registry graph := by
  cases guarded with
  | false => exact outcome_perform edit
  | true =>
    simp only [performAs, makeAs, if_true, Editing.outcome_bind, Editing.outcome_check,
      outcome_perform]
    cases edit.guard graph <;> rfl

theorem whole_performAs (formed : graph.WellFormed admits) (guarded : Bool) (registry : Registry)
    (edit : Edit) : (edit.performAs guarded registry).Whole graph := by
  cases guarded with
  | false => exact edit.whole formed registry
  | true => exact .check fun _ _ => edit.whole formed registry

theorem makeAs_eq_ok {guarded : Bool} {registry : Registry} {edit : Edit} {made : Bool × Graph}
    (accepted : edit.makeAs guarded registry graph = .ok made) :
    edit.make registry graph = .ok made := by
  cases guarded with
  | false => exact accepted
  | true =>
    obtain ⟨_, _, made⟩ := Accepted.bind_iff.1 accepted
    exact made

theorem runOn_same (formed : graph.WellFormed admits) {guarded : Bool} {registry : Registry}
    {edit : Edit} (idle : ((edit.performAs guarded registry).runOn graph).1 ≠ .ok true) :
    ((edit.performAs guarded registry).runOn graph).2 = graph := by
  rw [(whole_performAs formed guarded registry edit).runOn_eq] at idle ⊢
  cases made : (edit.performAs guarded registry).outcome graph with
  | error => rfl
  | ok answer =>
    obtain ⟨changed, after⟩ := answer
    cases changed with
    | true => simp [made, Except.map] at idle
    | false =>
      rw [outcome_performAs] at made
      have performed : (edit.perform registry).outcome graph = .ok (false, after) := by
        rw [outcome_perform edit]
        exact makeAs_eq_ok made
      exact Edit.idle formed performed

variable {catalogs : Registry → Prop} {next : Graph}

theorem leaves_cases (formed : graph.WellFormed admits) (left : Edit.Leaves catalogs graph next) :
    next = graph ∨ Edit.Leads catalogs (fun _ _ => True) graph next := by
  obtain ⟨registry, guarded, edit, catalog, rfl⟩ := left
  by_cases changed : ((edit.performAs guarded registry).runOn graph).1 = .ok true
  · refine .inr ⟨registry, edit, catalog, trivial, ?_⟩
    rw [(whole_performAs formed guarded registry edit).runOn_eq] at changed ⊢
    cases made : (edit.performAs guarded registry).outcome graph with
    | error => simp [made, Except.map] at changed
    | ok answer =>
      rw [outcome_performAs] at made
      rw [← map_make, makeAs_eq_ok made]
      rfl
  · exact .inl (runOn_same formed changed)

theorem Leads.leaves {allowed : Graph → Edit → Prop}
    (leads : Edit.Leads catalogs allowed graph next)
    (formed : graph.WellFormed admits) : Edit.Leaves catalogs graph next := by
  obtain ⟨registry, edit, catalog, -, accepted⟩ := leads
  refine ⟨registry, false, edit, catalog, ?_⟩
  rw [(whole_performAs formed false registry edit).runOn_eq, outcome_performAs]
  obtain ⟨made, makes, rfl⟩ := Accepted.map_iff.1 ((map_make edit).trans accepted)
  have made : edit.makeAs false registry graph = .ok made := makes
  rw [made]

end Edit

namespace Graph

variable {catalogs : Registry → Prop} {graph : Graph}

theorem worked_iff_authored :
    graph.Worked catalogs ↔ graph.Authored catalogs fun _ _ => True := by
  constructor
  · intro worked
    induction worked with
    | first begins => exact .first begins
    | step _ made ih =>
      rcases Edit.leaves_cases (Authored.wellFormed ih) made with rfl | leads
      · exact ih
      · exact .step ih leads
  · intro authored
    induction authored with
    | first begins => exact .first begins
    | step before made ih =>
      exact .step ih (made.leaves (Authored.wellFormed before))

end Graph

namespace Host

/-- What a host does with an edit. It has methods of its own for the changes of definitions that it
refuses while they are in use. -/
def make (host : Host) (guarded : Bool) (edit : Edit) : Except GraphError Bool × Host :=
  match guarded, edit with
  | true, .redefineFunction f signature =>
    let (answer, next) := host.redefineFunction f signature
    (answer.map (·.isSome), next)
  | true, .removeFunction f => host.removeFunction f
  | true, .redefineStruct s schema =>
    let (answer, next) := host.redefineStruct s schema
    (answer.map (·.isSome), next)
  | true, .removeStruct s => host.removeStruct s
  | _, edit => host.edit fun graph => edit.make host.registry graph

private theorem edit_map {α β : Type} (host : Host) (change : Graph → Except GraphError (α × Graph))
    (f : α → β) : ((host.edit change).1.map f, (host.edit change).2) =
      host.edit fun graph => (change graph).map fun (a, next) => (f a, next) := by
  simp only [edit]
  cases change host.graph <;> rfl

private theorem map_guard {α β : Type} (inUse : Bool) (name : Option String)
    (edit : Except GraphError α) (f : α → β) :
    (guard inUse name edit).map f = guard inUse name (.ok ()) >>= fun _ => edit.map f := by
  cases inUse <;> rfl

private theorem map_orUnchanged {α : Type} (graph : Graph)
    (changed : Except GraphError (Option (α × Graph))) :
    (changed.map (orUnchanged graph)).map (fun (a, next) => (a.isSome, next)) =
      changed.map fun changed => (changed.isSome, (changed.map (·.2)).getD graph) := by
  cases changed with
  | error => rfl
  | ok changed => cases changed <;> rfl

theorem make_eq (host : Host) (guarded : Bool) (edit : Edit) :
    host.make guarded edit = host.edit fun graph => edit.makeAs guarded host.registry graph := by
  have kept {α : Type} (answer : Except GraphError α) : answer.map id = answer := by
    cases answer <;> rfl
  cases guarded with
  | false => cases edit <;> rfl
  | true =>
    cases edit
    case redefineFunction f signature =>
      simp only [make, Host.redefineFunction, edit_map]
      refine congrArg host.edit (funext fun graph => (map_guard _ _ _ _).trans ?_)
      rw [map_orUnchanged]
      rfl
    case redefineStruct s schema =>
      simp only [make, Host.redefineStruct, edit_map]
      refine congrArg host.edit (funext fun graph => (map_guard _ _ _ _).trans ?_)
      rw [map_orUnchanged]
      rfl
    case removeFunction f =>
      exact congrArg host.edit (funext fun graph => (kept _).symm.trans (map_guard _ _ _ id))
    case removeStruct s =>
      exact congrArg host.edit (funext fun graph => (kept _).symm.trans (map_guard _ _ _ id))
    all_goals rfl

end Host

/-- An edit that is refused or finds nothing to change leaves the graph as it was, and a host goes
on with what is left of the graph. -/
theorem Graph.Worked.refused_unchanged {catalogs : Registry → Prop} {host : Host}
    (worked : host.graph.Worked catalogs) (guarded : Bool) (edit : Edit) :
    ∃ answer left, (edit.performAs guarded host.registry).runOn host.graph = (answer, left) ∧
      host.make guarded edit = (answer, host.replace left) ∧
      (answer ≠ .ok true → left = host.graph) := by
  have formed := (worked_iff_authored.1 worked).wellFormed
  refine ⟨((edit.performAs guarded host.registry).runOn host.graph).1,
    ((edit.performAs guarded host.registry).runOn host.graph).2, rfl, ?_, Edit.runOn_same formed⟩
  rw [Host.make_eq, (Edit.whole_performAs formed guarded host.registry edit).runOn_eq,
    Edit.outcome_performAs]
  simp only [Host.edit]
  cases edit.makeAs guarded host.registry host.graph <;> rfl

def Edit.nesting : List Edit := [
  .defineStruct { name := "Point", fields := [("x", .number)] } .zero,
  .defineStruct
    { name := "Mark", fields := [("at", .struct "Point" [("x", .number)])] } .zero]

def Edit.knotting : Edit := .redefineStruct ⟨0⟩
  { name := "Point", fields := [("of", .struct "Mark" [("at", .struct "Point" [("x", .number)])])] }

theorem nesting_refused_unchanged : ∃ host : Host,
    Edit.nesting.foldlM (Edit.apply Registry.builtin) .empty = .ok host.graph ∧
      host.graph.Worked (fun _ => True) ∧
      host.make true (.removeStruct ⟨0⟩) =
        (.error (.illegalEdit "Point"), host.replace host.graph) ∧
      host.make false Edit.knotting =
        (.error (.unresolvedReference "Mark"), host.replace host.graph) ∧
      host.make false (.disconnect ⟨⟨0⟩, 0⟩ ⟨⟨1⟩, 0⟩) = (.ok false, host.replace host.graph) := by
  have facts : (Edit.nesting.foldlM (Edit.apply Registry.builtin) .empty).toOption.map
      (fun graph =>
        (((Edit.performAs true Registry.builtin (.removeStruct ⟨0⟩)).runOn graph).1,
          ((Edit.performAs false Registry.builtin Edit.knotting).runOn graph).1,
          ((Edit.performAs false Registry.builtin (.disconnect ⟨⟨0⟩, 0⟩ ⟨⟨1⟩, 0⟩)).runOn
            graph).1)) =
      some (.error (.illegalEdit "Point"), .error (.unresolvedReference "Mark"), .ok false) := by
    cbv
  obtain ⟨graph, built, facts⟩ := Option.map_eq_some_iff.1 facts
  simp only [Prod.mk.injEq] at facts
  obtain ⟨used, knotted, apart⟩ := facts
  have built := Accepted.toOption_eq_some_iff.1 built
  have worked : graph.Worked (fun _ => True) := Graph.worked_iff_authored.2
    (.of_reached (Reached.foldlM trivial (.first rfl) (fun _ _ _ => trivial) built))
  have refused (guarded : Bool) (edit : Edit) {answer : Except GraphError Bool}
      (ran : ((edit.performAs guarded Registry.builtin).runOn graph).1 = answer)
      (idle : answer ≠ .ok true) : (Host.ofGraph .builtin graph).make guarded edit =
        (answer, (Host.ofGraph .builtin graph).replace graph) := by
    have held : (Host.ofGraph .builtin graph).graph.Worked (fun _ => True) := worked
    obtain ⟨answer', left, ran', made, same⟩ := held.refused_unchanged guarded edit
    obtain rfl : answer' = answer := (congrArg Prod.fst ran').symm.trans ran
    rw [made, same idle]
    rfl
  exact ⟨Host.ofGraph .builtin graph, built, worked, refused _ _ used (by simp),
    refused _ _ knotted (by simp), refused _ _ apart (by simp)⟩

end NodeScript
