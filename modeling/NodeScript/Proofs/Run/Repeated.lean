import NodeScript.Proofs.Run.Isolated

/-!
Reading a value leaves nothing behind that another reading could see: what it changes is the number
of steps made, which no run sees, and the state of the random numbers, which is seen only where such
a number is drawn. Main statement: `Graph.pull_unnoticed`.
-/

set_option autoImplicit false
set_option relaxedAutoImplicit false

namespace NodeScript

open Run Context

/-- The context after some readings, each with fuel of its own. -/
def Machine.pulled (machine : Machine) (reads : List (Nat × InputRef)) (ctx : Context) : Context :=
  reads.foldl (fun ctx (fuel, target) => ((machine.pull fuel target).runAt ctx).2) ctx

namespace Graph

variable {graph : Graph} {maxCallDepth : Nat} {ctx : Context}

theorem pull_agrees (outermost : ctx.outermost.call = none) {delay : Delay} {draws : Prop}
    (redraws : draws → delay.redraw = id) (made : ∀ id behavior,
      (graph.machine .builtin maxCallDepth).program.behavior? id = some behavior →
        behavior.Made draws) (fuel : Nat) (target : InputRef) :
    let read := (graph.machine .builtin maxCallDepth).pull fuel target
    (read.runAt (ctx.later delay)).1 = (read.runAt ctx).1 ∧
      Kept False ctx (read.runAt ctx).2 := by
  intro read
  obtain ⟨room, limit, within⟩ := exists_within outermost maxCallDepth
  obtain ⟨same, kept⟩ := (Machine.parts_agree limit redraws made fuel).pull target ctx within
  exact ⟨(congrArg Prod.fst same :), kept⟩

theorem pull_kept (outermost : ctx.outermost.call = none) (fuel : Nat) (target : InputRef) :
    Kept False ctx (((graph.machine .builtin maxCallDepth).pull fuel target).runAt ctx).2 := by
  have redraws (_ : True) : Delay.none.redraw = id := rfl
  exact (pull_agrees outermost redraws (fun _ _ => made_machine) fuel target).2

theorem pulled_kept (outermost : ctx.outermost.call = none) (reads : List (Nat × InputRef)) :
    Kept False ctx ((graph.machine .builtin maxCallDepth).pulled reads ctx) := by
  induction reads generalizing ctx with
  | nil => exact .refl _ _
  | cons read reads ih =>
    have first : Kept False ctx
        (((graph.machine .builtin maxCallDepth).pull read.1 read.2).runAt ctx).2 :=
      pull_kept outermost read.1 read.2
    obtain ⟨room, -, within⟩ := exists_within outermost maxCallDepth
    exact first.trans (ih (first.within within).outermost)

/-- A reading leaves the frames, the messages and the trigger as they were, whether it gives a
value or not. So what is read from an input is the same after other readings: if no random numbers
are drawn, and otherwise if they are drawn again from the same source. -/
theorem pull_unnoticed (graph : Graph) (maxCallDepth : Nat) {ctx : Context}
    (outermost : ctx.outermost.call = none) :
    let machine := graph.machine .builtin maxCallDepth
    (∀ fuel target, let after := ((machine.pull fuel target).runAt ctx).2
      after.frames = ctx.frames ∧ after.messages = ctx.messages ∧ after.trigger = ctx.trigger ∧
        ctx.steps ≤ after.steps) ∧
    (∀ reads fuel target,
      ((machine.pull fuel target).runAt { machine.pulled reads ctx with draws := ctx.draws }).1 =
        ((machine.pull fuel target).runAt ctx).1) ∧
    ((∀ id, ¬graph.HasKind id (.builtin Catalog.random.id)) → ∀ reads fuel target,
      ((machine.pull fuel target).runAt (machine.pulled reads ctx)).1 =
        ((machine.pull fuel target).runAt ctx).1) := by
  intro machine
  refine ⟨fun fuel target => ?_, fun reads fuel target => ?_, fun undrawn reads fuel target => ?_⟩
  · have kept : Kept False ctx ((machine.pull fuel target).runAt ctx).2 :=
      pull_kept outermost fuel target
    obtain ⟨top, messages⟩ := kept.quiet not_false
    refine ⟨?_, messages, kept.trigger, kept.steps⟩
    rw [frames, frames, top, kept.callers]
  · -- What is left of the change is a number of steps, so it makes no difference what is drawn.
    have later : { machine.pulled reads ctx with draws := ctx.draws } =
        ctx.later ⟨(machine.pulled reads ctx).steps - ctx.steps, id⟩ :=
      congrArg (fun after : Context => { after with draws := ctx.draws })
        (pulled_kept outermost reads).eq_later
    rw [later]
    exact (pull_agrees outermost (fun _ => rfl) (fun _ _ => made_machine) fuel target).1
  · rw [(pulled_kept outermost reads).eq_later]
    -- Nothing is drawn, so the source of random numbers may be any.
    refine (pull_agrees outermost False.elim (fun id behavior found => ?_) fuel target).1
    obtain ⟨type, kind, registered⟩ := hasKind_machine found
    refine Registry.builtin_made_of_ne registered fun random => undrawn id ?_
    subst random
    exact kind

end Graph

theorem returning_unnoticed : ∃ graph,
    Edit.returning.foldlM (Edit.apply Registry.builtin) .empty = .ok graph ∧
      (Context.called ⟨2⟩).outermost.call = none ∧
      (∀ id, ¬graph.HasKind id (.builtin Catalog.random.id)) ∧
      let machine := graph.machine .builtin 8
      let after := machine.pulled [(8, ⟨⟨1⟩, 1⟩), (8, ⟨⟨9⟩, 0⟩)] (.called ⟨2⟩)
      after.steps = 1 ∧
        ((machine.pull 8 ⟨⟨1⟩, 1⟩).runAt after).1.map Value.kindName = .ok "number" ∧
        ((machine.pull 8 ⟨⟨1⟩, 1⟩).runAt after).1 =
          ((machine.pull 8 ⟨⟨1⟩, 1⟩).runAt (.called ⟨2⟩)).1 := by
  have facts : ∃ graph ∈ (Edit.returning.foldlM (Edit.apply Registry.builtin) .empty).toOption,
      graph.nodesOfKind (· == .builtin Catalog.random.id) = [] ∧
        let machine := graph.machine .builtin 8
        let after := machine.pulled [(8, ⟨⟨1⟩, 1⟩), (8, ⟨⟨9⟩, 0⟩)] (.called ⟨2⟩)
        after.steps = 1 ∧
          ((machine.pull 8 ⟨⟨1⟩, 1⟩).runAt after).1.map Value.kindName = .ok "number" := by
    decide +kernel
  obtain ⟨graph, built, nowhere, steps, given⟩ := facts
  have undrawn := Graph.not_hasKind_of_nodesOfKind nowhere
  have outermost : (Context.called ⟨2⟩).outermost.call = none := rfl
  obtain ⟨-, -, same⟩ := graph.pull_unnoticed 8 outermost
  exact ⟨graph, Accepted.toOption_eq_some_iff.1 built, outermost, undrawn, steps, given,
    same undrawn _ 8 ⟨⟨1⟩, 1⟩⟩

end NodeScript
