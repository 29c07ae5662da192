import Mathlib.Order.Filter.AtTopBot.Basic
import Mathlib.Order.Filter.Finite
import NodeScript.Proofs.Format.Loaded
import NodeScript.Proofs.Run.Isolated
import NodeScript.Proofs.Run.Panicked
import NodeScript.Proofs.Run.Vacated

/-!
Values are there in the end. What a value is computed from stands in nodes below its own, at the
end of a function one frame further in, of which there are no more than the limit allows, or at the
call of the innermost frame one frame further out. Main statement: `Graph.IsScript.pull_ends`.
-/

set_option autoImplicit false
set_option relaxedAutoImplicit false

namespace NodeScript

open Run Relation Filter

theorem Graph.Wired.index_lt_of_reads {graph : Graph} (wired : graph.Wired) {id other : NodeId}
    (reads : graph.Reads id other) : other.index < graph.arena.size := by
  obtain ⟨slot, input, wire, hi, -, hw, rfl⟩ := reads_iff.1 reads
  obtain ⟨output, ho, -⟩ := wired.source hi hw
  obtain ⟨node, hn, -⟩ := Option.bind_eq_some_iff.1 ho
  exact index_lt_of_node? hn

theorem NodeId.wellFounded {r : NodeId → NodeId → Prop} {size : Nat}
    (inside : ∀ {id other}, r id other → other.index < size) (acyclic : ∀ id, ¬TransGen r id id) :
    WellFounded fun other id => r id other := by
  let node (place : Fin size) : NodeId := ⟨place⟩
  have order := wellFounded_of_acyclic (r := fun a b => r (node a) (node b))
    fun place loop => acyclic (node place) (loop.lift node fun _ _ leads => leads)
  have within (place : Fin size) : Acc (fun other id => r id other) ⟨place⟩ := by
    induction place using order.induction with
    | h place ih =>
      refine ⟨_, fun other leads => ?_⟩
      exact ih ⟨other.index, inside leads⟩ leads
  exact ⟨fun id => ⟨_, fun other leads => within ⟨other.index, inside leads⟩⟩⟩

theorem Graph.Acyclic.wellFounded {graph : Graph} (acyclic : graph.Acyclic) (wired : graph.Wired) :
    WellFounded fun other id => graph.Reads id other :=
  NodeId.wellFounded wired.index_lt_of_reads acyclic

/-- The calls of the open frames, innermost first. -/
def Context.calls (ctx : Context) : List (Option NodeId) := ctx.frames.map (·.call)

theorem Context.pop_calls {ctx : Context} {call : Option NodeId} {calls : List (Option NodeId)}
    (ground : calls.getLast? = some none) (open' : ctx.calls = call :: calls) :
    ctx.pop.1.call = call ∧ ctx.pop.2.calls = calls := by
  obtain ⟨trigger, top, callers, messages, steps, draws⟩ := ctx
  simp only [Context.calls, Context.frames, List.map_cons, List.cons.injEq] at open'
  obtain ⟨rfl, rfl⟩ := open'
  cases callers with
  | nil => simp at ground
  | cons caller callers => exact ⟨rfl, rfl⟩

def Run.Ends {α : Type} (calls : List (Option NodeId)) (run : Run α) : Prop :=
  ∀ ctx : Context, ctx.calls = calls →
    (run.runAt ctx).1 ≠ .error .outOfFuel ∧ (run.runAt ctx).2.calls = calls

namespace Run.Ends

variable {α β : Type} {calls : List (Option NodeId)} {run : Run α}

theorem pure (a : α) : Ends calls (Pure.pure a : Run α) := by
  intro _ open'
  refine ⟨?_, open'⟩
  simp

theorem fail (error : RunError) : Ends calls (fail error : Run α) := by
  intro _ open'
  refine ⟨?_, open'⟩
  simp

theorem bind {next : α → Run β} (first : Ends calls run) (rest : ∀ a, Ends calls (next a)) :
    Ends calls (run >>= next) := by
  intro ctx open'
  obtain ⟨ended, kept⟩ := first ctx open'
  rw [runAt_bind]
  generalize run.runAt ctx = outcome at ended kept ⊢
  obtain ⟨result, ctx'⟩ := outcome
  cases result with
  | ok a => exact rest a ctx' kept
  | error stop => exact ⟨fun same => ended (congrArg _ (Except.error.inj same)), kept⟩

/-- Nothing comes behind a fault. -/
theorem stopped (error : RunError) (next : α → Run β) : Ends calls (Run.fail error >>= next) := by
  intro ctx open'
  refine ⟨?_, ?_⟩
  · simp [runAt_bind]
  · rwa [runAt_bind]

/-- A part that looks at the context before it goes on. -/
theorem looking {next : Context → Run β} (rest : ∀ ctx, ctx.calls = calls → Ends calls (next ctx)) :
    Ends calls ((get : Run Context) >>= next) := by
  intro ctx open'
  rw [runAt_bind, runAt_get]
  exact rest ctx open' ctx open'

/-- A change that opens and closes nothing. -/
theorem changing {change : Context → Context} (kept : ∀ ctx, (change ctx).calls = ctx.calls) :
    Ends calls (modify change : Run Unit) := by
  intro ctx open'
  refine ⟨?_, (kept ctx).trans open'⟩
  simp

theorem mapM {ι : Type} {items : List ι} {make : ι → Run α} (each : ∀ a, Ends calls (make a)) :
    Ends calls (items.mapM make) := by
  induction items with
  | nil => exact pure []
  | cons a items ih =>
    rw [List.mapM_cons]
    exact (each a).bind fun _ => ih.bind fun _ => pure _

/-- What is done in the frame of a call, and after it. -/
theorem leaving (ground : calls.getLast? = some none) {call : NodeId}
    (ends : Ends (some call :: calls) run) {next : Except Stop α × Frame → Run β}
    (rest : ∀ result frame, result ≠ .error .outOfFuel → Ends calls (next (result, frame))) :
    Ends calls (modify (Context.push { call := some call }) >>= fun _ =>
      Machine.leaving run >>= next) := by
  intro ctx open'
  have opened : (ctx.push { call := some call }).calls = some call :: calls := by
    rw [← open']
    rfl
  obtain ⟨ended, kept⟩ := ends _ opened
  rw [runAt_bind, runAt_modify]
  dsimp only
  rw [runAt_bind, runAt_leaving]
  generalize run.runAt (ctx.push { call := some call }) = outcome at ended kept ⊢
  obtain ⟨result, after⟩ := outcome
  exact rest result after.pop.1 ended after.pop.2 (Context.pop_calls ground kept).2

/-- What is done in the frame of the caller. -/
theorem inCaller (ground : calls.getLast? = some none) {call : Option NodeId}
    (ends : Ends calls run) : Ends (call :: calls) (Machine.inCaller run) := by
  intro ctx open'
  obtain ⟨ended, kept⟩ := ends ctx.pop.2 (Context.pop_calls ground open').2
  rw [runAt_inCaller]
  refine ⟨ended, ?_⟩
  have top : ctx.pop.1.call = call := (Context.pop_calls ground open').1
  rw [← top, ← kept]
  rfl

end Run.Ends

/-- What nodes of the catalog compute ends where their inputs do. -/
theorem Scope.Made.ends {acts draws : Prop} {α : Type} {run : Scope → Run α}
    (made : Scope.Made acts draws run)
    (reads : ¬acts) {calls : List (Option NodeId)} {scope : Scope}
    (input : ∀ slot, Run.Ends calls (scope.input slot)) : Run.Ends calls (run scope) := by
  induction made with
  | pure a => exact .pure a
  | refuse why => exact .fail _
  | config run each ih => exact ih _
  | bind first rest ihFirst ihRest => exact ihFirst.bind ihRest
  | input slot => exact input slot
  | slotKey index =>
    beta_reduce
    rw [Scope.slotKey]
    split
    · exact .pure _
    · exact .fail _
  | fetch? key => exact .looking fun _ _ => .pure _
  | trigger => exact .looking fun _ _ => .pure _
  | random drawing low high above =>
    intro ctx open'
    rw [runAt_random]
    refine ⟨?_, open'⟩
    cases (ctx.draws.next low high).1 <;> simp
  | orMissing acting | store acting | send acting | fire acting | repeatWhile acting
  | forM acting => exact (reads acting).elim

namespace Machine

variable {machine : Machine} {calls : List (Option NodeId)} {parts : Parts}

def PullsEnd (machine : Machine) (calls : List (Option NodeId)) (id : NodeId) : Prop :=
  ∀ᶠ fuel in atTop, ∀ slot, Run.Ends calls (machine.pull fuel ⟨id, slot⟩)

def EvaluatesEnd (machine : Machine) (calls : List (Option NodeId)) (source : OutputRef) : Prop :=
  ∀ᶠ fuel in atTop, Run.Ends calls (machine.evaluate fuel source)

def CallersEnd (machine : Machine) (calls : List (Option NodeId)) : Prop :=
  ∀ call callers, calls = some call :: callers → machine.PullsEnd callers call

theorem eventually_succ {p : Nat → Prop} (spent : ∀ᶠ fuel in atTop, p (fuel + 1)) :
    ∀ᶠ fuel in atTop, p fuel := by
  rw [← map_add_atTop_eq_nat 1, eventually_map]
  exact spent

theorem eventually_slots {p : Nat → Nat → Prop} (count : Nat)
    (each : ∀ slot < count, ∀ᶠ fuel in atTop, p fuel slot)
    (beyond : ∀ᶠ fuel in atTop, ∀ slot, count ≤ slot → p fuel slot) :
    ∀ᶠ fuel in atTop, ∀ slot, p fuel slot := by
  have within := (eventually_all_finset (Finset.range count)).2 fun slot mem =>
    each slot (Finset.mem_range.1 mem)
  filter_upwards [within, beyond] with fuel within beyond slot
  by_cases inside : slot < count
  · exact within slot (Finset.mem_range.2 inside)
  · exact beyond slot (Nat.le_of_not_lt inside)

def exit? (machine : Machine) (call : NodeId) : Option NodeId :=
  (machine.graph.node? call).bind fun node =>
    match node.kind with
    | .call f => (machine.graph.function? f).bind (·.output)
    | _ => none

theorem ends_step : Run.Ends calls step := by
  exact .changing fun _ => rfl

theorem ends_liftExcept {α : Type} {result : Except Stop α} (ended : result ≠ .error .outOfFuel) :
    Run.Ends calls (liftExcept result : Run α) := by
  cases result with
  | ok a => exact .pure a
  | error stop =>
    intro ctx open'
    refine ⟨fun same => ended ?_, open'⟩
    rw [Except.error.inj same]

theorem ends_currentCall (machine : Machine) (boundary : NodeId) (f : FunctionId) :
    Run.Ends calls (machine.currentCall boundary f) := by
  intro ctx open'
  rw [runAt_currentCall]
  refine ⟨?_, open'⟩
  split
  · split <;> simp
  · simp

theorem ends_callOutput (ground : calls.getLast? = some none) {source : OutputRef} {f : FunctionId}
    (callee : calls.length ≤ machine.maxCallDepth →
      ∀ exit ∈ (machine.graph.function? f).bind (·.output),
        Run.Ends (some source.node :: calls) (parts.pull ⟨exit, source.slot⟩)) :
    Run.Ends calls (machine.callOutput parts source f) := by
  unfold callOutput
  refine .looking fun ctx _ => ?_
  split
  · exact .pure _
  · unfold boundaryNodes
    split
    · rename_i id signature entry exit found
      have here : exit ∈ (machine.graph.function? f).bind (·.output) := by rw [found]; rfl
      show Run.Ends calls (machine.openCall source.node >>= fun _ =>
        leaving (parts.pull ⟨exit, source.slot⟩) >>= fun outcome => liftExcept outcome.1)
      rw [openCall_bind]
      refine .looking fun ctx open' => ?_
      have depth : ctx.depth = calls.length := by simp [← open', Context.calls, Context.frames,
        Context.depth]
      split
      · exact .fail _
      · rename_i shallow
        refine .leaving ground (callee (by omega) exit here) fun result _ ended => ?_
        exact ends_liftExcept ended
    · exact .stopped _ _

theorem ends_argument (ground : calls.getLast? = some none) {source : OutputRef} {f : FunctionId}
    (caller : ∀ call callers, calls = some call :: callers →
      Run.Ends callers (parts.pull ⟨call, source.slot⟩)) :
    Run.Ends calls (machine.currentCall source.node f >>= fun call =>
      inCaller (parts.pull ⟨call, source.slot⟩)) := by
  intro ctx open'
  have ends := ends_currentCall machine source.node f ctx open'
  rw [runAt_bind]
  rcases found : (machine.currentCall source.node f).runAt ctx with ⟨result, ctx'⟩
  rw [found] at ends
  cases result with
  | error stop =>
    exact ⟨fun same => ends.1 (congrArg _ (Except.error.inj same)), ends.2⟩
  | ok call =>
    obtain ⟨rfl, opened, -⟩ := called_of_currentCall found
    cases calls with
    | nil => simp at ground
    | cons top callers =>
      obtain rfl : top = some call := by
        rw [← opened]
        exact (List.cons.inj open').1.symm
      have ground' : callers.getLast? = some none := by
        cases callers with
        | nil => simp at ground
        | cons _ _ => rwa [List.getLast?_cons_cons] at ground
      exact Run.Ends.inCaller ground' (caller call callers rfl) ctx' open'

theorem ends_evaluateWith (made : ∀ id behavior, machine.program.behavior? id = some behavior →
    behavior.Made) (ground : calls.getLast? = some none) {source : OutputRef}
    (own : ∀ slot, Run.Ends calls (parts.pull ⟨source.node, slot⟩))
    (callee : calls.length ≤ machine.maxCallDepth → ∀ exit ∈ machine.exit? source.node,
        Run.Ends (some source.node :: calls) (parts.pull ⟨exit, source.slot⟩))
    (caller : ∀ call callers, calls = some call :: callers →
      Run.Ends callers (parts.pull ⟨call, source.slot⟩)) (fuel : Nat) :
    Run.Ends calls (machine.evaluateWith fuel parts source) := by
  rw [evaluateWith_eq]
  split
  · exact .fail _
  · rename_i node here
    split
    · exact .fail _
    · refine ends_step.bind fun _ => ?_
      split
      · rw [Machine.behavior]
        split
        · rename_i behavior found
          exact ((made _ behavior found).evaluate source.slot).ends not_false own
        · exact .fail _
      · rename_i f kind
        refine ends_callOutput ground fun room exit found => callee room exit ?_
        rw [exit?, here]
        simpa [kind] using found
      · exact ends_argument ground caller
      · rw [construct_eq]
        split
        · exact .fail _
        · refine (Run.Ends.mapM fun item => ?_).bind fun _ => .pure _
          exact (own item.2).bind fun _ => .pure _
      · exact .fail _

/-- An input is read to the end if the outputs that the node reads are computed to the end. -/
theorem pullsEnd_of_reads (wired : machine.graph.Wired) {id : NodeId}
    (reads : ∀ other, machine.graph.Reads id other → ∀ slot,
      machine.EvaluatesEnd calls ⟨other, slot⟩) : machine.PullsEnd calls id := by
  have signal {source : OutputRef} {output : Output} (found : machine.graph.output? source =
      some output) (isSignal : output.port.isSignal = true) (fuel : Nat) :
      Run.Ends calls (machine.evaluateWith fuel (machine.parts fuel) source) := by
    obtain ⟨node, here, out⟩ := Option.bind_eq_some_iff.1 found
    rw [evaluateWith_eq, here]
    dsimp only
    rw [out]
    simp only [Option.all_some, isSignal, if_true]
    exact .fail _
  have each (slot : Nat) : ∀ᶠ fuel in atTop, Run.Ends calls (machine.pull fuel ⟨id, slot⟩) := by
    refine eventually_succ ?_
    show ∀ᶠ fuel in atTop, Run.Ends calls (machine.pullWith (machine.parts fuel) ⟨id, slot⟩)
    simp only [pullWith_eq]
    cases found : machine.graph.input? ⟨id, slot⟩ with
    | none => exact .of_forall fun _ => .fail _
    | some input =>
      dsimp only
      cases origin : input.source? with
      | some source =>
        obtain ⟨wire, first, rfl⟩ := Option.map_eq_some_iff.1 origin
        have mem : wire ∈ input.wires := List.mem_of_head? first
        obtain ⟨output, out, -, same⟩ := wired.source found mem
        by_cases control : input.port.isSignal = true
        · have control' : output.port.isSignal = true :=
            (DataType.isSignal_of_same same).trans control
          exact eventually_succ (.of_forall (signal out control'))
        · refine reads _ (Graph.reads_iff.2 ⟨slot, input, wire, found, ?_, mem, rfl⟩) _
          exact Bool.eq_false_iff.2 control
      | none =>
        dsimp only
        cases input.literal? with
        | some value => exact .of_forall fun _ => .pure value
        | none => exact .of_forall fun _ => .fail _
  obtain ⟨count, beyond⟩ : ∃ count, ∀ slot, count ≤ slot →
      machine.graph.input? ⟨id, slot⟩ = none := by
    cases here : machine.graph.node? id with
    | none => exact ⟨0, fun slot _ => by simp [Graph.input?, here]⟩
    | some node =>
      refine ⟨node.inputs.length, fun slot long => ?_⟩
      simpa [Graph.input?, here] using List.getElem?_eq_none long
  refine eventually_slots count (fun slot _ => each slot) (eventually_succ (.of_forall ?_))
  intro fuel slot outside
  show Run.Ends calls (machine.pullWith (machine.parts fuel) ⟨id, slot⟩)
  rw [pullWith_eq, beyond slot outside]
  exact .fail _

theorem evaluatesEnd (made : ∀ id behavior, machine.program.behavior? id = some behavior →
    behavior.Made) (ground : calls.getLast? = some none) {source : OutputRef}
    (own : machine.PullsEnd calls source.node)
    (callee : calls.length ≤ machine.maxCallDepth → ∀ exit ∈ machine.exit? source.node,
      machine.PullsEnd (some source.node :: calls) exit)
    (caller : machine.CallersEnd calls) : machine.EvaluatesEnd calls source := by
  have callee' : ∀ᶠ fuel in atTop, calls.length ≤ machine.maxCallDepth →
      ∀ exit ∈ machine.exit? source.node,
        Run.Ends (some source.node :: calls) (machine.pull fuel ⟨exit, source.slot⟩) := by
    rw [eventually_imp_distrib_left]
    intro room
    cases called : machine.exit? source.node with
    | none => exact .of_forall fun _ exit mem => by simp at mem
    | some exit =>
      refine (callee room exit called).mono fun fuel ends exit' mem => ?_
      obtain rfl := Option.some.inj mem
      exact ends source.slot
  have caller' : ∀ᶠ fuel in atTop, ∀ call callers, calls = some call :: callers →
      Run.Ends callers (machine.pull fuel ⟨call, source.slot⟩) := by
    cases calls with
    | nil => simp at ground
    | cons top callers =>
      cases top with
      | none => exact .of_forall fun _ _ _ same => by simp at same
      | some call =>
        refine (caller call callers rfl).mono fun fuel ends call' callers' same => ?_
        obtain ⟨head, rfl⟩ := List.cons.inj same
        obtain rfl := Option.some.inj head
        exact ends source.slot
  refine eventually_succ ?_
  filter_upwards [own, callee', caller'] with fuel own callee caller
  exact ends_evaluateWith made ground own callee caller fuel

theorem pullsEnd_of_callers (made : ∀ id behavior, machine.program.behavior? id = some behavior →
    behavior.Made) (wired : machine.graph.Wired) (acyclic : machine.graph.Acyclic) (room : Nat)
    (bound : machine.maxCallDepth + 1 ≤ room + calls.length) (ground : calls.getLast? = some none)
    (caller : machine.CallersEnd calls) (id : NodeId) : machine.PullsEnd calls id := by
  induction room generalizing calls id with
  | zero =>
    induction id using (acyclic.wellFounded wired).induction with
    | h id below =>
      refine pullsEnd_of_reads wired fun other reads slot => ?_
      exact evaluatesEnd made ground (below other reads) (fun room => by omega) caller
  | succ room ih =>
    induction id using (acyclic.wellFounded wired).induction with
    | h id below =>
      refine pullsEnd_of_reads wired fun other reads slot => ?_
      refine evaluatesEnd made ground (below other reads) (fun _ exit _ => ?_) caller
      -- The arguments of the call come from nodes below the one that reads its results.
      have caller' : machine.CallersEnd (some other :: calls) := by
        intro call callers same
        obtain ⟨head, rfl⟩ := List.cons.inj same
        obtain rfl := Option.some.inj head
        exact below _ reads
      refine ih (by simp; omega) ?_ caller' exit
      cases calls with
      | nil => simp at ground
      | cons _ _ => rwa [List.getLast?_cons_cons]

theorem pullsEnd (made : ∀ id behavior, machine.program.behavior? id = some behavior →
    behavior.Made) (wired : machine.graph.Wired) (acyclic : machine.graph.Acyclic)
    (ground : calls.getLast? = some none) (id : NodeId) : machine.PullsEnd calls id := by
  induction calls generalizing id with
  | nil => simp at ground
  | cons top callers ih =>
    refine pullsEnd_of_callers made wired acyclic (machine.maxCallDepth + 1) (by omega) ground ?_ id
    intro call callers' same
    obtain ⟨rfl, rfl⟩ := List.cons.inj same
    cases callers with
    | nil => simp at ground
    | cons caller callers => exact ih (by rwa [List.getLast?_cons_cons] at ground) call

end Machine

theorem Context.getLast?_calls (ctx : Context) : ctx.calls.getLast? = some ctx.outermost.call := by
  obtain ⟨trigger, top, callers, messages, steps, draws⟩ := ctx
  rw [calls, frames, List.getLast?_map, List.getLast?_cons, ← List.getLastD_eq_getLast?]
  rfl

theorem Context.calls_getLast? {ctx : Context} (bottom : ctx.outermost.call = none) :
    ctx.calls.getLast? = some none := by
  exact ctx.getLast?_calls.trans (congrArg some bottom)

theorem Graph.parts_follow_more (graph : Graph) {limit fuel more : Nat} (enough : fuel ≤ more) :
    ((graph.machine .builtin limit).parts fuel).Follows (· = .outOfFuel) (fun _ => True)
      (fun _ _ => False) ((graph.machine .builtin limit).parts more) := by
  refine Machine.parts_follow_of_le _ (fun _ _ found => ?_) enough
  exact parametric_of_machine Registry.builtin_parametric found

/-- Every reading of an input of a script comes to its end, whatever functions call themselves, and
whatever calls are open above the outermost frame. If it comes neither to a value nor to a fault, it
panics, at a node that asked for a random number between bounds that are no range. -/
theorem Graph.IsScript.pull_ends {graph : Graph} (script : graph.IsScript .builtin)
    (maxCallDepth : Nat) {ctx : Context} (bottom : ctx.outermost.call = none)
    (documented : ctx.draws.Documented) (target : InputRef) :
    ∃ fuel outcome, outcome.1 ≠ .error .outOfFuel ∧
      (∀ node low high, outcome.1 = .error (.panicked node low high) →
        graph.PanicsAt node low high) ∧
      ∀ more, fuel ≤ more →
        ((graph.machine .builtin maxCallDepth).pull more target).runAt ctx = outcome := by
  have formed := script.wellFormed
  have made : ∀ id behavior,
      (graph.machine .builtin maxCallDepth).program.behavior? id = some behavior →
        behavior.Made := by
    intro id behavior found
    obtain ⟨type, registered⟩ := registered_machine found
    exact Registry.builtin_made type behavior registered
  obtain ⟨fuel, ends⟩ := eventually_atTop.1
    (Machine.pullsEnd made formed.wired formed.acyclic (Context.calls_getLast? bottom) target.node)
  obtain ⟨ended, -⟩ := ends fuel (Nat.le_refl fuel) target.slot ctx rfl
  obtain ⟨-, allowed⟩ := (parts_panicOnly graph maxCallDepth fuel).pull target ctx documented
  refine ⟨fuel, _, ended, allowed, fun more enough => ?_⟩
  exact ((graph.parts_follow_more enough).pull target trivial).of_ended ended

def Edit.recursing : List Edit := [
  .defineFunction
    { name := "f", inputs := [("in", .signal), ("x", .number)],
      outputs := [("out", .signal), ("y", .number)] } .zero,
  .addCall ⟨0⟩ .zero,
  .connect ⟨⟨0⟩, 1⟩ ⟨⟨2⟩, 1⟩ [],
  .connect ⟨⟨2⟩, 1⟩ ⟨⟨1⟩, 1⟩ []]

theorem recursing_ends : ∃ graph,
    Edit.recursing.foldlM (Edit.apply Registry.builtin) .empty = .ok graph ∧
      graph.IsScript .builtin ∧ (Context.called ⟨2⟩).outermost.call = none ∧
      (Context.called ⟨2⟩).draws.Documented ∧
      (((graph.machine .builtin 4).pull 9 ⟨⟨1⟩, 1⟩).runAt (.called ⟨2⟩)).1 =
        .error (.fault (.callDepthExceeded 4)) ∧
      ∃ fuel outcome, outcome.1 ≠ .error .outOfFuel ∧
        (∀ node low high, outcome.1 = .error (.panicked node low high) →
          graph.PanicsAt node low high) ∧
        ∀ more, fuel ≤ more →
          ((graph.machine .builtin 4).pull more ⟨⟨1⟩, 1⟩).runAt (.called ⟨2⟩) = outcome := by
  have facts : ∃ graph ∈ (Edit.recursing.foldlM (Edit.apply Registry.builtin) .empty).toOption,
      (((graph.machine .builtin 4).pull 9 ⟨⟨1⟩, 1⟩).runAt (.called ⟨2⟩)).1.map (fun _ => ()) =
        .error (.fault (.callDepthExceeded 4)) := by decide +kernel
  obtain ⟨graph, built, stopped⟩ := facts
  have built := Accepted.toOption_eq_some_iff.1 built
  have script : graph.IsScript .builtin :=
    Reached.foldlM rfl (.first (.inl rfl)) (fun _ _ _ => trivial) built
  have stopped : (((graph.machine .builtin 4).pull 9 ⟨⟨1⟩, 1⟩).runAt (.called ⟨2⟩)).1 =
      .error (.fault (.callDepthExceeded 4)) := by
    cases result : (((graph.machine .builtin 4).pull 9 ⟨⟨1⟩, 1⟩).runAt (.called ⟨2⟩)).1 with
    | ok value => simp [result, Except.map] at stopped
    | error stop => simpa [result, Except.map] using stopped
  have documented : (Context.called ⟨2⟩).draws.Documented := Draws.spread_documented 0
  exact ⟨graph, built, script, rfl, documented, stopped,
    script.pull_ends 4 rfl documented ⟨⟨1⟩, 1⟩⟩

/-- A sum with a random number that is to be no number or more. -/
def Edit.gambling : List Edit := [
  .addBuiltin "math/Random" .null .zero,
  .addBuiltin "math/Add" .null .zero,
  .setInset ⟨⟨0⟩, 0⟩ (some (.number .nan)),
  .connect ⟨⟨0⟩, 0⟩ ⟨⟨1⟩, 0⟩ []]

/-- With whatever fuel, reading the input of the sum comes neither to a value nor to a fault. -/
theorem gambling_panics : ∃ graph,
    Edit.gambling.foldlM (Edit.apply Registry.builtin) .empty = .ok graph ∧
      graph.IsScript .builtin ∧ (Context.ofTrigger {}).outermost.call = none ∧
      (Context.ofTrigger {}).draws.Documented ∧ graph.PanicsAt ⟨0⟩ .nan 1 ∧
      ∀ fuel, 4 ≤ fuel →
        (((graph.machine .builtin 4).pull fuel ⟨⟨1⟩, 0⟩).runAt (.ofTrigger {})).1 =
          .error (.panicked ⟨0⟩ .nan 1) := by
  have facts : ∃ graph ∈ (Edit.gambling.foldlM (Edit.apply Registry.builtin) .empty).toOption,
      (((graph.machine .builtin 4).pull 4 ⟨⟨1⟩, 0⟩).runAt (.ofTrigger {})).1.map (fun _ => ()) =
        .error (.panicked ⟨0⟩ .nan 1) := by decide +kernel
  obtain ⟨graph, built, stopped⟩ := facts
  have built := Accepted.toOption_eq_some_iff.1 built
  have script : graph.IsScript .builtin :=
    Reached.foldlM rfl (.first (.inl rfl)) (fun _ _ _ => trivial) built
  have documented : (Context.ofTrigger {}).draws.Documented := Draws.spread_documented 0
  have panicked : (((graph.machine .builtin 4).pull 4 ⟨⟨1⟩, 0⟩).runAt (.ofTrigger {})).1 =
      .error (.panicked ⟨0⟩ .nan 1) := by
    cases result : (((graph.machine .builtin 4).pull 4 ⟨⟨1⟩, 0⟩).runAt (.ofTrigger {})).1 with
    | ok value => simp [result, Except.map] at stopped
    | error stop => simpa [result, Except.map] using stopped
  obtain ⟨-, allowed⟩ := (Graph.parts_panicOnly graph 4 4).pull ⟨⟨1⟩, 0⟩ _ documented
  refine ⟨graph, built, script, rfl, documented, allowed _ _ _ panicked, fun fuel enough => ?_⟩
  have follows : Run.Follows (· = .outOfFuel) ((graph.machine .builtin 4).pull 4 ⟨⟨1⟩, 0⟩)
      ((graph.machine .builtin 4).pull fuel ⟨⟨1⟩, 0⟩) :=
    (graph.parts_follow_more enough).pull _ trivial
  exact (congrArg Prod.fst (follows.of_ended (by simp [panicked]))).trans panicked

end NodeScript
