import NodeScript.Run.Machine

/-!
Runs that do as other ones do. `Run.Follows` excuses certain stops: the run may end in one of them
where the other run goes on. Main statements: what is made of parts follows what is made of other
parts if the parts do.
-/

set_option autoImplicit false
set_option relaxedAutoImplicit false

namespace NodeScript

namespace Run

variable {α β : Type}

@[simp] theorem runAt_pure (a : α) (ctx : Context) : (pure a : Run α).runAt ctx = (.ok a, ctx) :=
  rfl

@[simp] theorem runAt_throw (stop : Stop) (ctx : Context) :
    (throw stop : Run α).runAt ctx = (.error stop, ctx) := rfl

@[simp] theorem runAt_fail (error : RunError) (ctx : Context) :
    (fail error : Run α).runAt ctx = (.error (.fault error), ctx) := rfl

@[simp] theorem runAt_get (ctx : Context) : (get : Run Context).runAt ctx = (.ok ctx, ctx) := rfl

@[simp] theorem runAt_modify (change : Context → Context) (ctx : Context) :
    (modify change : Run Unit).runAt ctx = (.ok (), change ctx) := rfl

theorem runAt_bind (run : Run α) (next : α → Run β) (ctx : Context) :
    (run >>= next).runAt ctx =
      match run.runAt ctx with
      | (.ok a, ctx) => (next a).runAt ctx
      | (.error stop, ctx) => (.error stop, ctx) := by
  show (ExceptT.run (ExceptT.bind run next)).run ctx = _
  simp only [ExceptT.bind, ExceptT.run, ExceptT.mk, runAt, StateT.run, bind, StateT.bind]
  rcases h : run ctx with ⟨result, ctx'⟩
  cases result <;> rfl

theorem ext {run run' : Run α} (same : ∀ ctx, run.runAt ctx = run'.runAt ctx) : run = run' :=
  funext same

private theorem runAt_repeatWhile_succ (condition : Run Bool) (body : Run Unit) (fuel : Nat)
    (ctx : Context) : (repeatWhile condition body (fuel + 1)).runAt ctx =
    match condition.runAt ctx with
    | (.ok true, ctx) =>
      match body.runAt ctx with
      | (.ok (), ctx) => repeatWhile condition body fuel ctx
      | (.error stop, ctx) => (.error stop, ctx)
    | (.ok false, ctx) => (.ok (), ctx)
    | (.error stop, ctx) => (.error stop, ctx) := rfl

theorem repeatWhile_succ (condition : Run Bool) (body : Run Unit) (fuel : Nat) :
    repeatWhile condition body (fuel + 1) = (do
      if ← condition then
        body
        repeatWhile condition body fuel) := by
  refine ext fun ctx => ?_
  rw [runAt_bind, runAt_repeatWhile_succ]
  rcases condition.runAt ctx with ⟨stop | _ | _, ctx'⟩
  · rfl
  · rfl
  · simp only [if_true, runAt_bind]
    rcases body.runAt ctx' with ⟨_ | _, _⟩ <;> rfl

/-- What a result is where a missing value is no fault. -/
def caught : Except Stop α → Except Stop (Option α)
  | .ok a => .ok (some a)
  | .error (.fault (.missingValue _ _)) => .ok none
  | .error stop => .error stop

theorem caught_cases (result : Except Stop α) :
    (∃ a, result = .ok a ∧ caught result = .ok (some a)) ∨
      (∃ node input, result = .error (.fault (.missingValue node input)) ∧
        caught result = .ok none) ∨
      ∃ stop, result = .error stop ∧ (∀ node input, stop ≠ .fault (.missingValue node input)) ∧
        caught result = .error stop := by
  rcases result with stop | a
  · by_cases missing : ∃ node input, stop = .fault (.missingValue node input)
    · obtain ⟨node, input, rfl⟩ := missing
      exact .inr (.inl ⟨node, input, rfl, rfl⟩)
    · have other (node : NodeId) (input : String) : stop ≠ .fault (.missingValue node input) :=
        fun same => missing ⟨node, input, same⟩
      refine .inr (.inr ⟨stop, rfl, other, ?_⟩)
      unfold caught
      split <;> simp_all
  · exact .inl ⟨a, rfl, rfl⟩

theorem runAt_orMissing (run : Run α) (ctx : Context) :
    run.orMissing.runAt ctx = (caught (run.runAt ctx).1, (run.runAt ctx).2) := by
  dsimp only [orMissing, runAt, ExceptT.run, StateT.run]
  split <;> simp_all [caught]

theorem runAt_leaving (run : Run α) (ctx : Context) : (Machine.leaving run).runAt ctx =
    (.ok ((run.runAt ctx).1, (run.runAt ctx).2.pop.1), (run.runAt ctx).2.pop.2) := rfl

theorem runAt_inCaller (run : Run α) (ctx : Context) : (Machine.inCaller run).runAt ctx =
    ((run.runAt ctx.pop.2).1, (run.runAt ctx.pop.2).2.push ctx.pop.1) := rfl

theorem runAt_liftExcept (result : Except Stop α) (ctx : Context) :
    (liftExcept result : Run α).runAt ctx = (result, ctx) := by cases result <;> rfl

theorem runAt_random (scope : Scope) (low high : Double) (ctx : Context) :
    (scope.random low high).runAt ctx =
      ((ctx.draws.next low high).1.elim (.error (.panicked scope.node low high)) .ok,
        { ctx with draws := (ctx.draws.next low high).2 }) := by
  unfold Scope.random
  rw [runAt_bind, runAt_get]
  dsimp only
  generalize ctx.draws.next low high = drawn
  obtain ⟨answer, draws⟩ := drawn
  cases answer <;> rfl

/-- A run does as another one does, unless it stops for an excused reason. -/
def Follows (excused : Stop → Prop) (run run' : Run α) : Prop :=
  ∀ ctx, (∃ stop ctx', run.runAt ctx = (.error stop, ctx') ∧ excused stop) ∨
    run.runAt ctx = run'.runAt ctx

/-- A run stops for an excused reason from every context. -/
def Stops (excused : Stop → Prop) (run : Run α) : Prop :=
  ∀ ctx, ∃ stop ctx', run.runAt ctx = (.error stop, ctx') ∧ excused stop

variable {excused : Stop → Prop} {run run' : Run α}

theorem Follows.refl (run : Run α) : Follows excused run run := by
  intro _
  exact .inr rfl

theorem Stops.follows (stops : Stops excused run) (run' : Run α) : Follows excused run run' := by
  intro ctx
  exact .inl (stops ctx)

theorem Stops.throw {stop : Stop} (reason : excused stop) :
    Stops excused (throw stop : Run α) := by
  intro ctx
  exact ⟨stop, ctx, rfl, reason⟩

theorem Follows.of_ok (follows : Follows excused run run') {ctx ctx' : Context} {a : α}
    (done : run.runAt ctx = (.ok a, ctx')) : run'.runAt ctx = (.ok a, ctx') := by
  rcases follows ctx with ⟨stop, _, stopped, -⟩ | same
  · simp [done] at stopped
  · rw [← same, done]

theorem Follows.of_ended (follows : Follows (· = .outOfFuel) run run') {ctx : Context}
    (ended : (run.runAt ctx).1 ≠ .error .outOfFuel) : run'.runAt ctx = run.runAt ctx := by
  rcases follows ctx with ⟨stop, _, stopped, rfl⟩ | same
  · rw [stopped] at ended
    exact absurd rfl ended
  · exact same.symm

theorem Follows.eq (follows : Follows (fun _ => False) run run') : run = run' := by
  refine ext fun ctx => ?_
  exact (follows ctx).resolve_left fun ⟨_, _, _, never⟩ => never

theorem Follows.bind {next next' : α → Run β} (first : Follows excused run run')
    (rest : ∀ a, Follows excused (next a) (next' a)) :
    Follows excused (run >>= next) (run' >>= next') := by
  intro ctx
  rw [runAt_bind, runAt_bind]
  rcases first ctx with ⟨stop, ctx', stopped, reason⟩ | same
  · rw [stopped]
    exact .inl ⟨stop, ctx', rfl, reason⟩
  · rw [← same]
    rcases run.runAt ctx with ⟨result, ctx'⟩
    cases result with
    | ok a => exact rest a ctx'
    | error stop => exact .inr rfl

/-- Nothing comes behind a fault. -/
theorem Follows.fail (error : RunError) (next next' : α → Run β) :
    Follows excused (fail error >>= next) (fail error >>= next') := by
  intro ctx
  refine .inr ?_
  rw [runAt_bind, runAt_bind, runAt_fail]

theorem Stops.bind (stops : Stops excused run) (next : α → Run β) :
    Stops excused (run >>= next) := by
  intro ctx
  obtain ⟨stop, ctx', stopped, reason⟩ := stops ctx
  exact ⟨stop, ctx', by rw [runAt_bind, stopped], reason⟩

theorem Follows.orMissing (follows : Follows excused run run')
    (caught : ∀ node input, ¬excused (.fault (.missingValue node input))) :
    Follows excused run.orMissing run'.orMissing := by
  intro ctx
  rw [runAt_orMissing, runAt_orMissing]
  rcases follows ctx with ⟨stop, ctx', stopped, reason⟩ | same
  · rw [stopped]
    rcases caught_cases (.error stop : Except Stop α) with
      ⟨a, ended, -⟩ | ⟨node, input, missed, -⟩ | ⟨other, here, -, given⟩
    · simp at ended
    · rw [Except.error.inj missed] at reason
      exact absurd reason (caught node input)
    · rw [given, ← Except.error.inj here]
      exact .inl ⟨stop, ctx', rfl, reason⟩
  · rw [same]
    exact .inr rfl

theorem Follows.repeatWhile {condition condition' : Run Bool} {body body' : Run Unit}
    (check : Follows excused condition condition') (each : Follows excused body body')
    (fuel : Nat) :
    Follows excused (repeatWhile condition body fuel) (repeatWhile condition' body' fuel) := by
  induction fuel with
  | zero => exact .refl _
  | succ fuel ih =>
    rw [repeatWhile_succ, repeatWhile_succ]
    refine check.bind fun holds => ?_
    cases holds with
    | false => exact .refl _
    | true => exact each.bind fun _ => ih

theorem Follows.repeatWhile_of_le {condition condition' : Run Bool} {body body' : Run Unit}
    (check : Follows excused condition condition') (each : Follows excused body body')
    (short : excused .outOfFuel) {fuel more : Nat} (less : fuel ≤ more) :
    Follows excused (Run.repeatWhile condition body fuel)
      (Run.repeatWhile condition' body' more) := by
  induction fuel generalizing more with
  | zero => exact (Stops.throw short).follows _
  | succ fuel ih =>
    obtain ⟨more, rfl⟩ := Nat.exists_eq_add_of_lt less
    rw [repeatWhile_succ, repeatWhile_succ]
    refine check.bind fun holds => ?_
    cases holds with
    | false => exact .refl _
    | true => exact each.bind fun _ => ih (by omega)

theorem Follows.forM {ι : Type} {items : List ι} {body body' : ι → Run Unit}
    (each : ∀ a, Follows excused (body a) (body' a)) :
    Follows excused (items.forM body) (items.forM body') := by
  induction items with
  | nil => exact .refl _
  | cons a items ih => exact (each a).bind fun _ => ih

theorem Follows.mapM {ι : Type} {items : List ι} {make make' : ι → Run α}
    (each : ∀ a ∈ items, Follows excused (make a) (make' a)) :
    Follows excused (items.mapM make) (items.mapM make') := by
  induction items with
  | nil => exact .refl _
  | cons a items ih =>
    rw [List.forall_mem_cons] at each
    rw [List.mapM_cons, List.mapM_cons]
    exact each.1.bind fun _ => (ih each.2).bind fun _ => .refl _

theorem Follows.leaving (follows : Follows excused run run')
    {next next' : Except Stop α × Frame → Run β}
    (stops : ∀ stop frame, excused stop → Stops excused (next (.error stop, frame)))
    (rest : ∀ result, Follows excused (next result) (next' result)) :
    Follows excused (Machine.leaving run >>= next) (Machine.leaving run' >>= next') := by
  intro ctx
  rw [runAt_bind, runAt_bind, runAt_leaving, runAt_leaving]
  rcases follows ctx with ⟨stop, ctx', stopped, reason⟩ | same
  · rw [stopped]
    exact .inl (stops stop _ reason _)
  · rw [← same]
    exact rest _ _

theorem Follows.inCaller (follows : Follows excused run run') :
    Follows excused (Machine.inCaller run) (Machine.inCaller run') := by
  intro ctx
  rw [runAt_inCaller, runAt_inCaller]
  rcases follows ctx.pop.2 with ⟨stop, ctx', stopped, reason⟩ | same
  · rw [stopped]
    exact .inl ⟨stop, _, rfl, reason⟩
  · rw [same]
    exact .inr rfl

end Run

end NodeScript
