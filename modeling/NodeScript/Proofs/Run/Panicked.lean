import NodeScript.Proofs.Run.Isolated
import NodeScript.Proofs.Run.Maintained

/-!
Where runs panic. With a source of random numbers that does as it is documented, only nodes that
draw them do, and only between bounds that are no range. Main statements: `Graph.parts_panicOnly`
and its converse for one node, `Graph.WellFormed.evaluate_panics`.
-/

set_option autoImplicit false
set_option relaxedAutoImplicit false

namespace NodeScript

open Run

theorem Draws.Documented.next {draws : Draws} (documented : draws.Documented) (low high : Double) :
    (draws.next low high).2.Documented := by
  obtain ⟨within, isSome⟩ := documented
  exact ⟨within, isSome⟩

theorem Draws.Documented.not_isRange {draws : Draws} (documented : draws.Documented)
    {low high : Double} (unanswered : (draws.next low high).1 = none) : ¬low.IsRange high := by
  intro range
  have answered := (documented.answers_isSome draws.drawn low high).2 range
  have none : draws.answers draws.drawn low high = none := unanswered
  simp [none] at answered

theorem Draws.Documented.next_eq_none {draws : Draws} (documented : draws.Documented)
    {low high : Double} (noRange : ¬low.IsRange high) : (draws.next low high).1 = none := by
  have answered := (documented.answers_isSome draws.drawn low high).not.2 noRange
  rwa [Option.not_isSome_iff_eq_none] at answered

theorem Scope.runAt_number {scope : Scope} {slot : Nat} {ctx after : Context} {n : Double}
    (read : (scope.input slot).runAt ctx = (.ok (.number n), after)) :
    (scope.number slot).runAt ctx = (.ok n, after) := by
  unfold number
  rw [runAt_bind, read]
  rfl

theorem Catalog.random_panics {scope : Scope} {low high : Double} {ctx between after : Context}
    (lower : (scope.input 0).runAt ctx = (.ok (.number low), between))
    (upper : (scope.input 1).runAt between = (.ok (.number high), after))
    (above : high.le low = false) (unanswered : (after.draws.next low high).1 = none) :
    ((random.behavior.evaluate scope 0).runAt ctx).1 =
      .error (.panicked scope.node low high) := by
  show ((scope.number 0 >>= fun low => scope.number 1 >>= fun high =>
    if high.le low = true then pure (.number low)
    else scope.random low high >>= fun n => pure (Value.number n)).runAt ctx).1 = _
  rw [runAt_bind, Scope.runAt_number lower]
  dsimp only
  rw [runAt_bind, Scope.runAt_number upper]
  dsimp only
  rw [above, if_neg Bool.false_ne_true, runAt_bind, runAt_random, unanswered]
  rfl

theorem Double.le_self_of_lt {low high : Double} (less : low.lt high = true) :
    low.le low = true := by
  unfold lt at less
  unfold le
  simp only [Bool.and_eq_true, Bool.not_eq_true'] at less
  simp [less.1.1]

theorem Draws.spread_documented (seed : UInt64) : (spread seed).Documented where
  within := by
    intro turn low high x answered
    simp only [spread] at answered
    split at answered
    · rename_i range
      obtain rfl := Option.some.inj answered
      split
      · rename_i inside
        simpa using inside
      · exact ⟨Double.le_self_of_lt range.1, range.1⟩
    · simp at answered
  answers_isSome := by
    intro turn low high
    simp only [spread]
    split <;> simp_all

/-- A node draws random numbers, and may ask for one between bounds that are no range. -/
structure Graph.PanicsAt (graph : Graph) (node : NodeId) (low high : Double) : Prop where
  draws : graph.HasKind node (.builtin Catalog.random.id)
  above : high.le low = false
  noRange : ¬low.IsRange high

def Context.DrawsDocumented (ctx : Context) : Prop := ctx.draws.Documented

theorem Context.stable_drawsDocumented : Stable DrawsDocumented where
  draw low high documented := documented.next low high
  store _ documented := documented
  send _ documented := documented

theorem Context.DrawsDocumented.pop {ctx : Context} (documented : ctx.DrawsDocumented) :
    ctx.pop.2.DrawsDocumented := by
  unfold Context.pop
  split
  · exact documented
  · exact documented

abbrev Graph.PanicsOnly {α : Type} (graph : Graph) (run : Run α) : Prop :=
  run.Maintains Context.DrawsDocumented graph.PanicsAt

namespace Machine

variable {graph : Graph} {machine : Machine} {parts : Parts} {α β : Type}

structure Parts.PanicOnly (graph : Graph) (parts : Parts) : Prop where
  fire : ∀ source, graph.PanicsOnly (parts.fire source)
  execute : ∀ target, graph.PanicsOnly (parts.execute target)
  pull : ∀ target, graph.PanicsOnly (parts.pull target)
  evaluate : ∀ source, graph.PanicsOnly (parts.evaluate source)

theorem panicsOnly_step : graph.PanicsOnly step := by
  refine .changing fun ctx documented => ?_
  exact documented

theorem panicsOnly_liftExcept {result : Except Stop α}
    (allowed : ∀ node low high, result = .error (.panicked node low high) →
      graph.PanicsAt node low high) : graph.PanicsOnly (liftExcept result : Run α) := by
  intro ctx documented
  rw [runAt_liftExcept]
  exact ⟨documented, allowed⟩

theorem panicsOnly_leaving {run : Run α} (inner : graph.PanicsOnly run)
    {next : Except Stop α × Frame → Run β}
    (rest : ∀ result frame, (∀ node low high, result = .error (.panicked node low high) →
      graph.PanicsAt node low high) → graph.PanicsOnly (next (result, frame))) :
    graph.PanicsOnly (leaving run >>= next) := by
  intro ctx documented
  obtain ⟨after, allowed⟩ := inner ctx documented
  rw [runAt_bind, runAt_leaving]
  exact rest _ _ allowed _ after.pop

theorem panicsOnly_inCaller {run : Run α} (inner : graph.PanicsOnly run) :
    graph.PanicsOnly (inCaller run) := by
  intro ctx documented
  rw [runAt_inCaller]
  exact inner ctx.pop.2 documented.pop

theorem panicsOnly_boundaryNodes (call : NodeId) (f : FunctionId) :
    graph.PanicsOnly (machine.boundaryNodes call f) := by
  unfold boundaryNodes
  split
  · exact .pure _
  · exact .fail _

theorem panicsOnly_currentCall (boundary : NodeId) (f : FunctionId) :
    graph.PanicsOnly (machine.currentCall boundary f) := by
  intro ctx documented
  rw [runAt_currentCall]
  refine ⟨documented, fun node low high => ?_⟩
  split
  · split <;> simp
  · simp

theorem panicsOnly_openCall (call : NodeId) {next : Unit → Run α}
    (rest : graph.PanicsOnly (next ())) : graph.PanicsOnly (machine.openCall call >>= next) := by
  rw [openCall_bind]
  refine .looking fun ctx => ?_
  split
  · exact .fail _
  · refine Maintains.bind (.changing fun ctx documented => ?_) fun _ => rest
    exact documented

section

variable (inner : parts.PanicOnly graph)
include inner

theorem panicsOnly_fireWith (source : OutputRef) :
    graph.PanicsOnly (machine.fireWith parts source) := by
  rw [fireWith_eq]
  split
  · exact .pure ()
  · refine (inner.execute _).bind fun flow => ?_
    cases flow with
    | next slot => exact inner.fire _
    | done => exact .pure ()

theorem panicsOnly_pullWith (target : InputRef) :
    graph.PanicsOnly (machine.pullWith parts target) := by
  rw [pullWith_eq]
  split
  · exact .fail _
  · split
    · exact inner.evaluate _
    · split
      · exact .pure _
      · exact .fail _

theorem panicsOnly_collect (target : InputRef) (node : Node) (f : FunctionId) :
    graph.PanicsOnly (machine.collect parts target node f) := by
  refine (panicsOnly_currentCall _ _).bind fun _ => ?_
  have each (item : Input × Nat) : graph.PanicsOnly
      (if item.1.port.isSignal then pure none
        else (parts.pull ⟨target.node, item.2⟩).orMissing : Run (Option Value)) := by
    split
    · exact .pure none
    · exact (inner.pull ⟨target.node, item.2⟩).orMissing
  refine (Maintains.mapM each).bind fun results => ?_
  exact Maintains.bind (.changing fun ctx documented => documented) fun _ => .pure _

theorem panicsOnly_construct (source : OutputRef) (s : StructId) :
    graph.PanicsOnly (machine.construct parts source s) := by
  rw [construct_eq]
  split
  · exact .fail _
  · refine (Maintains.mapM fun item => ?_).bind fun _ => .pure _
    exact (inner.pull ⟨source.node, item.2⟩).bind fun _ => .pure _

theorem panicsOnly_call (target : InputRef) (f : FunctionId) :
    graph.PanicsOnly (machine.call parts target f) := by
  rw [call_eq]
  refine (panicsOnly_boundaryNodes _ _).bind fun nodes => ?_
  refine panicsOnly_openCall _ (panicsOnly_leaving (inner.fire _) fun result frame allowed => ?_)
  refine (panicsOnly_liftExcept allowed).bind fun _ => ?_
  split
  · exact Maintains.bind (.changing fun ctx documented => documented) fun _ => .pure _
  · exact .pure _

theorem panicsOnly_callOutput (source : OutputRef) (f : FunctionId) :
    graph.PanicsOnly (machine.callOutput parts source f) := by
  unfold callOutput
  refine .looking fun ctx => ?_
  split
  · exact .pure _
  · refine (panicsOnly_boundaryNodes _ _).bind fun nodes => ?_
    refine panicsOnly_openCall _ (panicsOnly_leaving (inner.pull _) fun result frame allowed => ?_)
    exact panicsOnly_liftExcept allowed

variable (made : ∀ id behavior, machine.program.behavior? id = some behavior →
  behavior.Made (graph.HasKind id (.builtin Catalog.random.id)))
include made

theorem panicsOnly_executeWith (fuel : Nat) (target : InputRef) :
    graph.PanicsOnly (machine.executeWith fuel parts target) := by
  unfold executeWith
  split
  · exact .fail _
  · refine panicsOnly_step.bind fun _ => ?_
    split
    · rw [Machine.behavior]
      split
      · rename_i behavior found
        refine ((made _ behavior found).execute target.slot).maintains
          Context.stable_drawsDocumented ?_ (fun slot => inner.pull _) fun slot => inner.fire _
        intro draws ctx low high documented above unanswered
        exact ⟨draws, above, documented.not_isRange unanswered⟩
      · exact .fail _
    · exact panicsOnly_call inner target _
    · exact panicsOnly_collect inner target _ _
    · exact .fail _
    · exact .fail _

theorem panicsOnly_evaluateWith (fuel : Nat) (source : OutputRef) :
    graph.PanicsOnly (machine.evaluateWith fuel parts source) := by
  rw [evaluateWith_eq]
  split
  · exact .fail _
  · split
    · exact .fail _
    · refine panicsOnly_step.bind fun _ => ?_
      split
      · rw [Machine.behavior]
        split
        · rename_i behavior found
          refine ((made _ behavior found).evaluate source.slot).maintains
            Context.stable_drawsDocumented ?_ (fun slot => inner.pull _) fun slot => inner.fire _
          intro draws ctx low high documented above unanswered
          exact ⟨draws, above, documented.not_isRange unanswered⟩
        · exact .fail _
      · exact panicsOnly_callOutput inner source _
      · exact (panicsOnly_currentCall _ _).bind fun call => panicsOnly_inCaller (inner.pull _)
      · exact panicsOnly_construct inner source _
      · exact .fail _

end

end Machine

namespace Graph

/-- Whatever a script does, it panics only at nodes that draw random numbers. -/
theorem parts_panicOnly (graph : Graph) (maxCallDepth fuel : Nat) :
    ((graph.machine .builtin maxCallDepth).parts fuel).PanicOnly graph := by
  have made : ∀ id behavior,
      (graph.machine .builtin maxCallDepth).program.behavior? id = some behavior →
        behavior.Made (graph.HasKind id (.builtin Catalog.random.id)) := by
    intro id behavior found
    obtain ⟨type, kind, registered⟩ := hasKind_machine found
    refine Registry.builtin_made_drawing registered fun same => ?_
    rwa [← same]
  induction fuel with
  | zero =>
    exact ⟨fun _ => .outOfFuel, fun _ => .outOfFuel, fun _ => .outOfFuel, fun _ => .outOfFuel⟩
  | succ fuel inner =>
    exact ⟨Machine.panicsOnly_fireWith inner, Machine.panicsOnly_executeWith inner made fuel,
      Machine.panicsOnly_pullWith inner, Machine.panicsOnly_evaluateWith inner made fuel⟩

/-- Evaluating a value output of a built-in node takes a step and asks its type. -/
theorem runAt_evaluate {graph : Graph} {source : OutputRef} {node : Node} {output : Output}
    {type : String} {behavior : Behavior} (here : graph.node? source.node = some node)
    (kind : node.kind = .builtin type)
    (registered : Registry.builtin.behavior? type = some behavior)
    (place : node.outputs[source.slot]? = some output) (value : output.port.isSignal = false)
    (limit fuel : Nat) (ctx : Context) :
    ((graph.machine .builtin limit).evaluate (fuel + 1) source).runAt ctx =
      (behavior.evaluate ((graph.machine .builtin limit).scope fuel
        ((graph.machine .builtin limit).parts fuel) source.node node.config) source.slot).runAt
          { ctx with steps := ctx.steps + 1 } := by
  have builtin : graph.builtin? source.node = some (type, node.config) :=
    builtin?_eq_some (form?_eq_of_node? here) kind
  have found : (graph.machine .builtin limit).graph.node? source.node = some node := here
  show ((graph.machine .builtin limit).evaluateWith fuel
    ((graph.machine .builtin limit).parts fuel) source).runAt ctx = _
  rw [Machine.evaluateWith_eq, found]
  dsimp only
  rw [place, Option.all_some, value, if_neg Bool.false_ne_true, runAt_bind, kind]
  show ((graph.machine .builtin limit).behavior source.node >>= _).runAt
    { ctx with steps := ctx.steps + 1 } = _
  rw [behavior_machine builtin registered, pure_bind]

/-- A node that draws random numbers panics where it may: its inputs give it two bounds that are no
range, the second not at or below the first. -/
theorem WellFormed.evaluate_panics {graph : Graph} {id : NodeId} {limit fuel : Nat}
    (formed : graph.WellFormed Registry.builtin.Declares) {low high : Double}
    (panics : graph.PanicsAt id low high) {ctx between after : Context}
    (documented : after.DrawsDocumented)
    (lower : ((graph.machine .builtin limit).pull fuel ⟨id, 0⟩).runAt
      { ctx with steps := ctx.steps + 1 } = (.ok (.number low), between))
    (upper : ((graph.machine .builtin limit).pull fuel ⟨id, 1⟩).runAt between =
      (.ok (.number high), after)) :
    (((graph.machine .builtin limit).evaluate (fuel + 1) ⟨id, 0⟩).runAt ctx).1 =
      .error (.panicked id low high) := by
  obtain ⟨draws, above, noRange⟩ := panics
  obtain ⟨node, here, kind⟩ := hasKind_iff.1 draws
  have form := form?_eq_of_node? here
  obtain ⟨behavior, known, registered, declared⟩ := formed.admitted form kind
  obtain rfl : Catalog.random.behavior = behavior := Option.some.inj registered
  have port : graph.outputPort? ⟨id, 0⟩ = some (Catalog.valuePort "result" .number) := by
    rw [outputPort?, form, Option.bind_some, ← Except.ok.inj declared]
    rfl
  rw [outputPort?_eq, output?, here, Option.bind_some, Option.map_eq_some_iff] at port
  obtain ⟨output, place, same⟩ := port
  have value : output.port.isSignal = false := by
    rw [same]
    rfl
  rw [runAt_evaluate here kind registered place value]
  exact Catalog.random_panics lower upper above (documented.next_eq_none noRange)

end Graph

end NodeScript
