import NodeScript.Proofs.Catalog.Made
import NodeScript.Proofs.Run.Follows

/-!
What runs maintain: something holds of the context after a run as it did before it, and the run
panics only at certain nodes. Main statement: `Scope.Made.maintains`, by which nodes maintain what
their inputs and chains do.
-/

set_option autoImplicit false
set_option relaxedAutoImplicit false

namespace NodeScript

open Run

def Run.Maintains {α : Type} (holds : Context → Prop) (panics : NodeId → Double → Double → Prop)
    (run : Run α) : Prop :=
  ∀ ctx, holds ctx → holds (run.runAt ctx).2 ∧
    ∀ node low high, (run.runAt ctx).1 = .error (.panicked node low high) → panics node low high

namespace Run.Maintains

variable {α β : Type} {holds : Context → Prop} {panics : NodeId → Double → Double → Prop}
  {run : Run α}

theorem pure (a : α) : Maintains holds panics (Pure.pure a : Run α) := by
  intro ctx before
  refine ⟨before, ?_⟩
  simp

theorem fail (error : RunError) : Maintains holds panics (Run.fail error : Run α) := by
  intro ctx before
  refine ⟨before, ?_⟩
  simp

theorem outOfFuel : Maintains holds panics (throw .outOfFuel : Run α) := by
  intro ctx before
  refine ⟨before, ?_⟩
  simp

/-- A change of the context. -/
theorem changing {change : Context → Context} (keeps : ∀ ctx, holds ctx → holds (change ctx)) :
    Maintains holds panics (modify change : Run Unit) := by
  intro ctx before
  refine ⟨keeps ctx before, ?_⟩
  simp

/-- A part that looks at the context before it goes on. -/
theorem looking {next : Context → Run β} (rest : ∀ ctx, Maintains holds panics (next ctx)) :
    Maintains holds panics ((get : Run Context) >>= next) := by
  intro ctx before
  rw [runAt_bind, runAt_get]
  exact rest ctx ctx before

theorem bind {next : α → Run β} (first : Maintains holds panics run)
    (rest : ∀ a, Maintains holds panics (next a)) : Maintains holds panics (run >>= next) := by
  intro ctx before
  have here := first ctx before
  rw [runAt_bind]
  generalize run.runAt ctx = outcome at here ⊢
  obtain ⟨result, ctx'⟩ := outcome
  obtain ⟨between, allowed⟩ := here
  cases result with
  | ok a => exact rest a ctx' between
  | error stop =>
    refine ⟨between, fun node low high stopped => allowed node low high ?_⟩
    rw [Except.error.inj stopped]

theorem orMissing (tried : Maintains holds panics run) :
    Maintains holds panics run.orMissing := by
  intro ctx before
  obtain ⟨after, allowed⟩ := tried ctx before
  rw [runAt_orMissing]
  refine ⟨after, fun node low high stopped => ?_⟩
  rcases caught_cases (run.runAt ctx).1 with
    ⟨a, -, given⟩ | ⟨_, _, -, given⟩ | ⟨stop, ended, -, given⟩
  · simp [given] at stopped
  · simp [given] at stopped
  · rw [given] at stopped
    rw [Except.error.inj stopped] at ended
    exact allowed node low high ended

theorem repeatWhile {condition : Run Bool} {body : Run Unit}
    (check : Maintains holds panics condition) (each : Maintains holds panics body) (fuel : Nat) :
    Maintains holds panics (repeatWhile condition body fuel) := by
  induction fuel with
  | zero => exact outOfFuel
  | succ fuel ih =>
    rw [repeatWhile_succ]
    refine check.bind fun more => ?_
    cases more with
    | false => exact pure ()
    | true => exact each.bind fun _ => ih

theorem forM {ι : Type} {items : List ι} {body : ι → Run Unit}
    (each : ∀ a, Maintains holds panics (body a)) : Maintains holds panics (items.forM body) := by
  induction items with
  | nil => exact pure ()
  | cons a items ih => exact (each a).bind fun _ => ih

theorem mapM {ι : Type} {items : List ι} {make : ι → Run α}
    (each : ∀ a, Maintains holds panics (make a)) : Maintains holds panics (items.mapM make) := by
  induction items with
  | nil => exact pure []
  | cons a items ih =>
    rw [List.mapM_cons]
    exact (each a).bind fun _ => ih.bind fun _ => pure _

end Run.Maintains

/-- What nodes change by themselves is nothing to a property of contexts. -/
structure Context.Stable (holds : Context → Prop) : Prop where
  draw : ∀ {ctx} (low high : Double), holds ctx →
    holds { ctx with draws := (ctx.draws.next low high).2 }
  store : ∀ {ctx} (vars : List (VarKey × Value)), holds ctx →
    holds { ctx with top := { ctx.top with vars } }
  send : ∀ {ctx} (message : Message), holds ctx →
    holds { ctx with messages := ctx.messages ++ [message] }

/-- A node maintains what its inputs and chains do. -/
theorem Scope.Made.maintains {acts draws : Prop} {α : Type} {run : Scope → Run α}
    (made : Scope.Made acts draws run) {holds : Context → Prop}
    {panics : NodeId → Double → Double → Prop} (stable : Context.Stable holds) {scope : Scope}
    (unanswered : draws → ∀ ctx low high, holds ctx → high.le low = false →
      (ctx.draws.next low high).1 = none → panics scope.node low high)
    (input : ∀ slot, Run.Maintains holds panics (scope.input slot))
    (fire : ∀ slot, Run.Maintains holds panics (scope.fire slot)) :
    Run.Maintains holds panics (run scope) := by
  induction made with
  | pure a => exact .pure a
  | refuse why => exact .fail _
  | config run each ih => exact ih _
  | bind first rest ihFirst ihRest => exact ihFirst.bind ihRest
  | input slot => exact input slot
  | slotKey index =>
    beta_reduce
    rw [Scope.slotKey]
    split
    · exact .pure _
    · exact .fail _
  | fetch? key => exact .looking fun _ => .pure _
  | trigger => exact .looking fun _ => .pure _
  | random drawing low high above =>
    intro ctx before
    rw [runAt_random]
    refine ⟨stable.draw low high before, fun node low' high' stopped => ?_⟩
    cases answer : (ctx.draws.next low high).1 with
    | some n => simp [answer] at stopped
    | none =>
      rw [answer] at stopped
      obtain ⟨rfl, rfl, rfl⟩ := Stop.panicked.inj (Except.error.inj stopped)
      exact unanswered drawing ctx low high before above answer
  | orMissing acting tried ih => exact ih.orMissing
  | store acting key value => exact .changing fun _ before => stable.store _ before
  | send acting recipient text => exact .changing fun _ before => stable.send _ before
  | fire acting slot => exact fire slot
  | repeatWhile acting check each ihCheck ihEach => exact ihCheck.repeatWhile ihEach _
  | forM acting items each ih => exact .forM ih

end NodeScript
