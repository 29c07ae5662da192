import NodeScript.Proofs.Catalog.Made
import NodeScript.Proofs.Run.Follows

/-!
What a run leaves alone. `Context.Kept` says what is the same after a run as before it: for a run
that acts the frames below the innermost one, for a run that only reads all of them.
`Run.Agrees` says this of two runs that do the same, one of them some steps later, so that a way to
close frames may differ between them. Main statement: `Scope.Made.agrees`.
-/

set_option autoImplicit false
set_option relaxedAutoImplicit false

namespace NodeScript

/-- The outermost frame is that of no call, and all others are those of calls. -/
structure Context.Grounded (ctx : Context) : Prop where
  outermost : ctx.outermost.call = none
  inner : ∀ frame ∈ ctx.frames.dropLast, frame.call.isSome = true

/-- The outermost frame is that of no call, and there is room for all frames. -/
structure Context.Within (room : Nat) (ctx : Context) : Prop where
  outermost : ctx.outermost.call = none
  depth : ctx.depth ≤ room

/-- What a run that may act or not leaves of the context that it begins in. -/
structure Context.Kept (acts : Prop) (ctx ctx' : Context) : Prop where
  callers : ctx'.callers = ctx.callers
  call : ctx'.top.call = ctx.top.call
  trigger : ctx'.trigger = ctx.trigger
  messages : ctx.messages <+: ctx'.messages
  steps : ctx.steps ≤ ctx'.steps
  quiet : ¬acts → ctx'.top = ctx.top ∧ ctx'.messages = ctx.messages

namespace Context

variable {acts : Prop} {room : Nat} {ctx ctx' ctx'' : Context}

theorem Kept.refl (acts : Prop) (ctx : Context) : Kept acts ctx ctx := by
  exact ⟨rfl, rfl, rfl, List.prefix_refl _, Nat.le_refl _, fun _ => ⟨rfl, rfl⟩⟩

theorem Kept.trans (first : Kept acts ctx ctx') (second : Kept acts ctx' ctx'') :
    Kept acts ctx ctx'' where
  callers := second.callers.trans first.callers
  call := second.call.trans first.call
  trigger := second.trigger.trans first.trigger
  messages := first.messages.trans second.messages
  steps := Nat.le_trans first.steps second.steps
  quiet := by
    intro reads
    obtain ⟨top, messages⟩ := first.quiet reads
    obtain ⟨top', messages'⟩ := second.quiet reads
    exact ⟨top'.trans top, messages'.trans messages⟩

theorem Kept.acting (kept : Kept False ctx ctx') : Kept acts ctx ctx' :=
  { kept with quiet := fun _ => kept.quiet not_false }

theorem Kept.depth (kept : Kept acts ctx ctx') : ctx'.depth = ctx.depth := by
  rw [Context.depth, Context.depth, kept.callers]

theorem Kept.within (kept : Kept acts ctx ctx') (within : ctx.Within room) : ctx'.Within room := by
  refine ⟨?_, Nat.le_trans (Nat.le_of_eq kept.depth) within.depth⟩
  have outermost := within.outermost
  rw [Context.outermost] at outermost ⊢
  rw [kept.callers]
  cases below : ctx.callers with
  | nil =>
    rw [below] at outermost
    exact kept.call.trans outermost
  | cons caller callers => rwa [below] at outermost

theorem exists_within (outermost : ctx.outermost.call = none) (depth : Nat) :
    ∃ room, depth < room ∧ ctx.Within room := by
  exact ⟨max (depth + 1) ctx.depth, Nat.le_max_left _ _, outermost, Nat.le_max_right _ _⟩

/-- A frame is opened where there is room for one more. -/
theorem Within.push (within : ctx.Within room) (space : ctx.depth < room) (frame : Frame) :
    (ctx.push frame).Within room := by
  refine ⟨?_, space⟩
  have outermost := within.outermost
  rw [Context.outermost] at outermost
  rw [Context.outermost, Context.push, List.getLastD_cons]
  exact outermost

theorem Within.caller (within : ctx.Within room) {call : NodeId}
    (opened : ctx.top.call = some call) :
    ∃ caller callers, ctx.callers = caller :: callers := by
  cases below : ctx.callers with
  | nil =>
    have outermost := within.outermost
    rw [Context.outermost, below] at outermost
    simp [opened] at outermost
  | cons caller callers => exact ⟨caller, callers, rfl⟩

/-- The callers of a frame are those of an outer one. -/
theorem Within.below (within : ctx.Within room) {caller : Frame} {callers : List Frame}
    (found : ctx.callers = caller :: callers) :
    ({ ctx with top := caller, callers } : Context).Within room := by
  obtain ⟨outermost, depth⟩ := within
  rw [Context.outermost, found, List.getLastD_cons] at outermost
  rw [Context.depth, found] at depth
  exact ⟨outermost, Nat.le_of_succ_le depth⟩

/-- More steps made before a run, and another source of random numbers. -/
structure Delay where
  steps : Nat
  redraw : Draws → Draws

def Delay.none : Delay := ⟨0, id⟩

/-- The context some steps later. -/
def later (delay : Delay) (ctx : Context) : Context :=
  { ctx with steps := ctx.steps + delay.steps, draws := delay.redraw ctx.draws }

theorem pop_later (delay : Delay) (ctx : Context) :
    (ctx.later delay).pop = (ctx.pop.1, ctx.pop.2.later delay) := by
  obtain ⟨trigger, top, callers, messages, steps, draws⟩ := ctx
  cases callers <;> rfl

theorem Kept.eq_later (kept : Kept False ctx ctx') :
    ctx' = ctx.later ⟨ctx'.steps - ctx.steps, fun _ => ctx'.draws⟩ := by
  obtain ⟨top, messages⟩ := kept.quiet not_false
  obtain ⟨trigger', top', callers', messages', steps', draws'⟩ := ctx'
  obtain rfl : top' = ctx.top := top
  obtain rfl : messages' = ctx.messages := messages
  obtain rfl : callers' = ctx.callers := kept.callers
  obtain rfl : trigger' = ctx.trigger := kept.trigger
  rw [later, Nat.add_sub_cancel' kept.steps]

end Context

namespace Run

open Context

variable {α β : Type} {delay : Delay} {room : Nat} {acts : Prop} {run run' : Run α}

/-- A run does some steps later what another one does, and that keeps what it may not change, where
the outermost frame is that of no call and there is room for the frames that are open. -/
def Agrees (delay : Delay) (room : Nat) (acts : Prop) (run run' : Run α) : Prop :=
  ∀ ctx : Context, ctx.Within room →
    run.runAt (ctx.later delay) = ((run'.runAt ctx).1, (run'.runAt ctx).2.later delay) ∧
      Kept acts ctx (run'.runAt ctx).2

namespace Agrees

theorem pure (a : α) : Agrees delay room acts (Pure.pure a) (Pure.pure a) := by
  intro ctx _
  exact ⟨rfl, .refl _ ctx⟩

theorem throw (stop : Stop) : Agrees delay room acts (throw stop : Run α) (throw stop) := by
  intro ctx _
  exact ⟨rfl, .refl _ ctx⟩

theorem fail (error : RunError) : Agrees delay room acts (fail error : Run α) (fail error) := by
  intro ctx _
  exact ⟨rfl, .refl _ ctx⟩

/-- A change of what runs see. -/
theorem changing {change : Context → Context} (kept : ∀ ctx, Kept acts ctx (change ctx))
    (same : ∀ ctx, change (ctx.later delay) = (change ctx).later delay) :
    Agrees delay room acts (modify change : Run Unit) (modify change) := by
  intro ctx _
  refine ⟨?_, kept ctx⟩
  rw [runAt_modify, runAt_modify, same]

theorem acting (agrees : Agrees delay room False run run') : Agrees delay room acts run run' := by
  intro ctx within
  exact ⟨(agrees ctx within).1, (agrees ctx within).2.acting⟩

theorem bind {next next' : α → Run β} (first : Agrees delay room acts run run')
    (rest : ∀ a, Agrees delay room acts (next a) (next' a)) :
    Agrees delay room acts (run >>= next) (run' >>= next') := by
  intro ctx within
  obtain ⟨same, kept⟩ := first ctx within
  rw [runAt_bind, runAt_bind, same]
  generalize run'.runAt ctx = outcome at kept ⊢
  obtain ⟨result, ctx'⟩ := outcome
  cases result with
  | error stop => exact ⟨rfl, kept⟩
  | ok a =>
    obtain ⟨same', kept'⟩ := rest a ctx' (kept.within within)
    exact ⟨same', kept.trans kept'⟩

/-- A part that looks at what runs see before it goes on. -/
theorem looking {next next' : Context → Run β}
    (same : ∀ ctx, next (ctx.later delay) = next ctx)
    (rest : ∀ ctx, Agrees delay room acts (next ctx) (next' ctx)) :
    Agrees delay room acts ((get : Run Context) >>= next) ((get : Run Context) >>= next') := by
  intro ctx within
  rw [runAt_bind, runAt_bind, runAt_get, runAt_get]
  dsimp only
  rw [same]
  exact rest ctx ctx within

theorem orMissing (agrees : Agrees delay room acts run run') :
    Agrees delay room acts run.orMissing run'.orMissing := by
  intro ctx within
  obtain ⟨same, kept⟩ := agrees ctx within
  rw [runAt_orMissing, runAt_orMissing, same]
  exact ⟨rfl, kept⟩

theorem repeatWhile {condition condition' : Run Bool} {body body' : Run Unit}
    (check : Agrees delay room acts condition condition')
    (each : Agrees delay room acts body body') (fuel : Nat) :
    Agrees delay room acts (repeatWhile condition body fuel)
      (repeatWhile condition' body' fuel) := by
  induction fuel with
  | zero => exact throw _
  | succ fuel ih =>
    rw [repeatWhile_succ, repeatWhile_succ]
    refine check.bind fun holds => ?_
    cases holds with
    | false => exact pure ()
    | true => exact each.bind fun _ => ih

theorem forM {ι : Type} {items : List ι} {body body' : ι → Run Unit}
    (each : ∀ a, Agrees delay room acts (body a) (body' a)) :
    Agrees delay room acts (items.forM body) (items.forM body') := by
  induction items with
  | nil => exact pure ()
  | cons a items ih => exact (each a).bind fun _ => ih

theorem mapM {ι : Type} {items : List ι} {make make' : ι → Run α}
    (each : ∀ a, Agrees delay room acts (make a) (make' a)) :
    Agrees delay room acts (items.mapM make) (items.mapM make') := by
  induction items with
  | nil => exact pure []
  | cons a items ih =>
    rw [List.mapM_cons, List.mapM_cons]
    exact (each a).bind fun _ => ih.bind fun _ => pure _

variable {close : Machine.Close}

theorem runAt_leaving_close (run : Run α) (ctx : Context) :
    (Machine.leaving run close).runAt ctx =
      (.ok ((run.runAt ctx).1, (close (run.runAt ctx).2).1), (close (run.runAt ctx).2).2) := rfl

theorem runAt_inCaller_close (run : Run α) (ctx : Context) :
    (Machine.inCaller run close).runAt ctx =
      ((run.runAt (close ctx).2).1, (run.runAt (close ctx).2).2.push (close ctx).1) := rfl

theorem leaving_kept (closes : ∀ ctx, ctx.callers ≠ [] → close ctx = ctx.pop)
    (agrees : Agrees delay room acts run run') {ctx : Context} (within : ctx.Within room)
    (space : ctx.depth < room) (call : NodeId) :
    let opened := ctx.push { call := some call }
    (Machine.leaving run close).runAt (opened.later delay) =
        (((Machine.leaving run').runAt opened).1,
          ((Machine.leaving run').runAt opened).2.later delay) ∧
      Kept acts ctx ((Machine.leaving run').runAt opened).2 ∧
      ((Machine.leaving run').runAt opened).2.top = ctx.top := by
  intro opened
  obtain ⟨same, kept⟩ := agrees opened (within.push space _)
  rw [runAt_leaving_close, runAt_leaving, same]
  generalize run'.runAt opened = outcome at kept ⊢
  obtain ⟨result, after⟩ := outcome
  -- The part kept its callers, so the frame that is closed is the one that was opened.
  have callers : after.callers = ctx.top :: ctx.callers := kept.callers
  have popped : after.pop = (after.top, { after with top := ctx.top, callers := ctx.callers }) := by
    rw [Context.pop, callers]
  have inner : (after.later delay).callers ≠ [] := by
    show after.callers ≠ []
    simp [callers]
  rw [closes _ inner, pop_later, popped]
  exact ⟨rfl, ⟨rfl, rfl, kept.trigger, kept.messages, kept.steps,
    fun reads => ⟨rfl, (kept.quiet reads).2⟩⟩, rfl⟩

/-- A part that runs in a frame of its own, and what is done after it. -/
theorem leaving (closes : ∀ ctx, ctx.callers ≠ [] → close ctx = ctx.pop)
    (agrees : Agrees delay room acts run run') {next next' : Except Stop α × Frame → Run β}
    (rest : ∀ result, Agrees delay room acts (next result) (next' result)) {ctx : Context}
    (within : ctx.Within room) (space : ctx.depth < room) (call : NodeId) :
    let opened := ctx.push { call := some call }
    (Machine.leaving run close >>= next).runAt (opened.later delay) =
        (((Machine.leaving run' >>= next').runAt opened).1,
          ((Machine.leaving run' >>= next').runAt opened).2.later delay) ∧
      Kept acts ctx ((Machine.leaving run' >>= next').runAt opened).2 := by
  intro opened
  obtain ⟨same, kept, -⟩ := leaving_kept closes agrees within space call
  rw [runAt_bind, runAt_bind, same]
  generalize (Machine.leaving run').runAt opened = outcome at kept ⊢
  obtain ⟨result, ctx'⟩ := outcome
  cases result with
  | error stop => exact ⟨rfl, kept⟩
  | ok a =>
    obtain ⟨same', kept'⟩ := rest a ctx' (kept.within within)
    exact ⟨same', kept.trans kept'⟩

/-- A part that only reads, in the frame of the caller. -/
theorem inCaller (closes : ∀ ctx, ctx.callers ≠ [] → close ctx = ctx.pop)
    (agrees : Agrees delay room False run run') {ctx : Context} (within : ctx.Within room)
    {call : NodeId} (opened : ctx.top.call = some call) :
    (Machine.inCaller run close).runAt (ctx.later delay) =
        (((Machine.inCaller run').runAt ctx).1,
          ((Machine.inCaller run').runAt ctx).2.later delay) ∧
      Kept acts ctx ((Machine.inCaller run').runAt ctx).2 := by
  obtain ⟨caller, callers, found⟩ := within.caller opened
  obtain ⟨same, kept⟩ := agrees _ (within.below found)
  have popped : ctx.pop = (ctx.top, { ctx with top := caller, callers }) := by
    rw [Context.pop, found]
  have inner : (ctx.later delay).callers ≠ [] := by
    show ctx.callers ≠ []
    simp [found]
  rw [runAt_inCaller_close, runAt_inCaller, closes _ inner, pop_later, popped, same]
  refine ⟨rfl, ?_⟩
  generalize run'.runAt { ctx with top := caller, callers } = outcome at kept ⊢
  obtain ⟨result, after⟩ := outcome
  -- The frame of the caller was only read, so the innermost one goes back on top of what it was.
  obtain ⟨top, messages⟩ := kept.quiet not_false
  refine ⟨?_, rfl, kept.trigger, kept.messages, kept.steps, fun _ => ⟨rfl, messages⟩⟩
  show after.top :: after.callers = ctx.callers
  rw [top, kept.callers, found]

end Agrees

end Run

/-- A node sees the same, and its inputs and chains keep what they may not change. -/
structure Scope.Agrees (delay : Context.Delay) (room : Nat) (scope scope' : Scope) : Prop where
  node : scope.node = scope'.node
  config : scope.config = scope'.config
  slots : scope.slots = scope'.slots
  fuel : scope.fuel = scope'.fuel
  input : ∀ slot, Run.Agrees delay room False (scope.input slot) (scope'.input slot)
  fire : ∀ slot, Run.Agrees delay room True (scope.fire slot) (scope'.fire slot)

theorem Scope.Made.agrees {acts draws : Prop} {α : Type} {run : Scope → Run α}
    (made : Scope.Made acts draws run) {delay : Context.Delay}
    (redraws : draws → delay.redraw = id) {room : Nat} {scope scope' : Scope}
    (agrees : scope.Agrees delay room scope') :
    Run.Agrees delay room acts (run scope) (run scope') := by
  induction made with
  | pure a => exact .pure a
  | refuse why =>
    beta_reduce
    rw [agrees.node]
    exact .fail _
  | config run each ih =>
    beta_reduce
    rw [agrees.config]
    exact ih _
  | bind first rest ihFirst ihRest => exact ihFirst.bind ihRest
  | input slot => exact (agrees.input slot).acting
  | slotKey index =>
    beta_reduce
    rw [Scope.slotKey, Scope.slotKey, Scope.fault, Scope.fault, agrees.node, agrees.slots]
    split
    · exact .pure _
    · exact .fail _
  | fetch? key => exact .looking (fun _ => rfl) fun _ => .pure _
  | trigger => exact .looking (fun _ => rfl) fun _ => .pure _
  | random drawing low high above =>
    intro ctx _
    have same : (ctx.later delay).draws = ctx.draws := congrFun (redraws drawing) ctx.draws
    rw [Run.runAt_random, Run.runAt_random, same, agrees.node]
    refine ⟨?_, rfl, rfl, rfl, List.prefix_refl _, Nat.le_refl _, fun _ => ⟨rfl, rfl⟩⟩
    simp only [Context.later, redraws drawing, id]
  | orMissing acting tried ih => exact ih.orMissing
  | store acting key value =>
    refine .changing (fun ctx => ?_) fun ctx => ?_
    · exact ⟨rfl, rfl, rfl, List.prefix_refl _, Nat.le_refl _, fun reads => (reads acting).elim⟩
    · rfl
  | send acting recipient text =>
    refine .changing (fun ctx => ?_) fun ctx => ?_
    · exact ⟨rfl, rfl, rfl, List.prefix_append _ _, Nat.le_refl _, fun reads => (reads acting).elim⟩
    · rfl
  | fire acting slot =>
    intro ctx within
    obtain ⟨same, kept⟩ := agrees.fire slot ctx within
    exact ⟨same, { kept with quiet := fun reads => (reads acting).elim }⟩
  | repeatWhile acting check each ihCheck ihEach =>
    beta_reduce
    rw [agrees.fuel]
    exact ihCheck.repeatWhile ihEach _
  | forM acting items each ih => exact .forM ih

end NodeScript
