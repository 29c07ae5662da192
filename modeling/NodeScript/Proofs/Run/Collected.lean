import NodeScript.Proofs.Run.Checked
import NodeScript.Proofs.Run.Maintained

/-!
What a call leaves behind. While the body of a function runs, the frame of its call holds nothing,
or what the inputs of an end of the function gave when control reached it last. Main statement:
`Graph.WellFormed.call_collects`.
-/

set_option autoImplicit false
set_option relaxedAutoImplicit false

namespace NodeScript

open Run Context

def Context.Holds (ctx ctx' : Context) : Prop :=
  ctx'.top.returned = ctx.top.returned ∧ ctx'.top.results = ctx.top.results

theorem Run.Agrees.mapM_reads {ι α : Type} {room : Nat} {make : ι → Run α}
    (each : ∀ a, Agrees .none room False (make a) (make a)) {items : List ι} {ctx after : Context}
    (within : ctx.Within room) {results : List α}
    (made : (items.mapM make).runAt ctx = (.ok results, after)) (place : Nat) (item : ι)
    (listed : items[place]? = some item) :
    ∃ result before after, results[place]? = some result ∧ Kept False ctx before ∧
      (make item).runAt before = (.ok result, after) := by
  induction items generalizing ctx after results place with
  | nil => simp at listed
  | cons first items ih =>
    rw [List.mapM_cons, runAt_bind] at made
    obtain ⟨-, kept⟩ := each first ctx within
    rcases head : (make first).runAt ctx with ⟨stop | result, middle⟩
    · simp [head] at made
    · rw [head] at made kept
      dsimp only at made kept
      rw [runAt_bind] at made
      rcases tail : (items.mapM make).runAt middle with ⟨stop | rest, last⟩
      · simp [tail] at made
      · rw [tail] at made
        obtain rfl : result :: rest = results := Except.ok.inj (congrArg Prod.fst made)
        cases place with
        | zero =>
          obtain rfl := Option.some.inj listed
          exact ⟨result, ctx, middle, rfl, .refl _ ctx, head⟩
        | succ place =>
          obtain ⟨found, before, after, there, kept', read⟩ :=
            ih (kept.within within) tail place listed
          exact ⟨found, before, after, there, kept.trans kept', read⟩

namespace Machine

def endInput (parts : Parts) (id : NodeId) (item : Input × Nat) : Run (Option Value) :=
  if item.1.port.isSignal then pure none else (parts.pull ⟨id, item.2⟩).orMissing

theorem collect_eq (machine : Machine) (parts : Parts) (target : InputRef) (node : Node)
    (g : FunctionId) : machine.collect parts target node g =
      machine.currentCall target.node g >>= fun _ =>
        node.inputs.zipIdx.mapM (endInput parts target.node) >>= fun results =>
          modify (fun ctx => { ctx with top := { ctx.top with
            results, returned := some target.slot } }) >>= fun _ => pure .done := rfl

def Collects (machine : Machine) (opened : Context) (boundary : NodeId) (results : Results) :
    Prop :=
  ∀ slot port, machine.graph.inputPort? ⟨boundary, slot⟩ = some port → port.isSignal = false →
    ∃ value? fuel before after, results[slot]? = some value? ∧ Kept True opened before ∧
      (machine.pull fuel ⟨boundary, slot⟩).orMissing.runAt before = (.ok value?, after)

/-- A context that the body of a function comes to. -/
structure InBody (machine : Machine) (f : FunctionId) (opened ctx : Context) : Prop where
  kept : Kept True opened ctx
  collected : ∀ exit, ctx.top.returned = some exit → ∃ boundary,
    machine.graph.HasKind boundary (.functionOutput f) ∧
      machine.Collects opened boundary ctx.top.results

variable {machine : Machine} {f : FunctionId} {opened ctx ctx' : Context} {room fuel : Nat}

theorem InBody.stable (inBody : machine.InBody f opened ctx) (kept : Kept True ctx ctx')
    (same : ctx.Holds ctx') : machine.InBody f opened ctx' := by
  refine ⟨inBody.kept.trans kept, fun exit returned => ?_⟩
  rw [same.2]
  exact inBody.collected exit (same.1.symm.trans returned)

theorem stable_inBody : Context.Stable (machine.InBody f opened) where
  draw _ _ inBody := inBody.stable
    ⟨rfl, rfl, rfl, List.prefix_refl _, Nat.le_refl _, fun _ => ⟨rfl, rfl⟩⟩ ⟨rfl, rfl⟩
  store _ inBody := inBody.stable
    ⟨rfl, rfl, rfl, List.prefix_refl _, Nat.le_refl _, fun reads => (reads trivial).elim⟩ ⟨rfl, rfl⟩
  send _ inBody := inBody.stable
    ⟨rfl, rfl, rfl, List.prefix_append _ _, Nat.le_refl _, fun reads => (reads trivial).elim⟩
    ⟨rfl, rfl⟩

theorem InBody.read (inBody : machine.InBody f opened ctx) (kept : Kept False ctx ctx') :
    machine.InBody f opened ctx' := by
  have top : ctx'.top = ctx.top := (kept.quiet not_false).1
  exact inBody.stable kept.acting ⟨by rw [top], by rw [top]⟩

theorem agrees_endInput (agree : (machine.parts fuel).Agree .none room (machine.parts fuel))
    (id : NodeId) (item : Input × Nat) :
    Agrees .none room False (endInput (machine.parts fuel) id item)
      (endInput (machine.parts fuel) id item) := by
  unfold endInput
  split
  · exact .pure none
  · exact (agree.pull ⟨id, item.2⟩).orMissing

theorem agrees_endInputs (agree : (machine.parts fuel).Agree .none room (machine.parts fuel))
    (id : NodeId) (items : List (Input × Nat)) :
    Agrees .none room False (items.mapM (endInput (machine.parts fuel) id))
      (items.mapM (endInput (machine.parts fuel) id)) := by
  refine .mapM fun item => ?_
  exact agrees_endInput agree id item

theorem collects_of_endInputs
    (agree : (machine.parts fuel).Agree .none room (machine.parts fuel)) {boundary : NodeId}
    {node : Node} (here : machine.graph.node? boundary = some node) (within : ctx.Within room)
    (kept : Kept True opened ctx) {results : Results}
    (made : (node.inputs.zipIdx.mapM (endInput (machine.parts fuel) boundary)).runAt ctx =
      (.ok results, ctx')) : machine.Collects opened boundary results := by
  intro slot port found value
  rw [Graph.inputPort?_eq, Graph.input?, here, Option.bind_some, Option.map_eq_some_iff] at found
  obtain ⟨input, place, rfl⟩ := found
  have listed : node.inputs.zipIdx[slot]? = some (input, slot) := by
    simp [List.getElem?_zipIdx, place]
  obtain ⟨value?, before, last, given, kept', pulled⟩ :=
    Agrees.mapM_reads (agrees_endInput agree boundary) within made slot _ listed
  rw [endInput, if_neg (by simpa using value)] at pulled
  exact ⟨value?, fuel, before, last, given, kept.trans kept'.acting, pulled⟩

section

variable (within : opened.Within room)
include within

theorem InBody.maintains_read {α : Type} {run : Run α} (agrees : Agrees .none room False run run) :
    Maintains (machine.InBody f opened) (fun _ _ _ => True) run := by
  intro ctx inBody
  obtain ⟨-, kept⟩ := agrees ctx (inBody.kept.within within)
  exact ⟨inBody.read kept, fun _ _ _ _ => trivial⟩

variable {call : NodeId} (opens : opened.top.call = some call)
  (calls : machine.graph.HasKind call (.call f))
include opens calls

theorem maintains_collect (agree : (machine.parts fuel).Agree .none room (machine.parts fuel))
    {target : InputRef} {node : Node} {g : FunctionId}
    (here : machine.graph.node? target.node = some node) (kind : node.kind = .functionOutput g) :
    Maintains (machine.InBody f opened) (fun _ _ _ => True)
      (machine.collect (machine.parts fuel) target node g) := by
  intro ctx inBody
  refine ⟨?_, fun _ _ _ _ => trivial⟩
  rw [collect_eq, runAt_bind]
  rcases found : (machine.currentCall target.node g).runAt ctx with ⟨stop | caller, ctx'⟩
  · rw [runAt_currentCall] at found
    rw [← show ctx = ctx' from congrArg Prod.snd found]
    exact inBody
  · obtain ⟨rfl, opened', kind'⟩ := called_of_currentCall found
    -- The end of a function is reached by calls of it only.
    obtain rfl : caller = call :=
      Option.some.inj (opened'.symm.trans (inBody.kept.call.trans opens))
    obtain rfl : f = g := by simpa using calls.unique kind'
    dsimp only
    rw [runAt_bind]
    have within' := inBody.kept.within within
    obtain ⟨-, kept⟩ := agrees_endInputs agree target.node node.inputs.zipIdx ctx' within'
    rcases made : (node.inputs.zipIdx.mapM (endInput (machine.parts fuel) target.node)).runAt ctx'
      with ⟨stop | results, after⟩
    · rw [made] at kept
      exact inBody.read kept
    · rw [made] at kept
      have collects := collects_of_endInputs agree here within' inBody.kept made
      refine ⟨inBody.kept.trans (kept.acting.trans ⟨rfl, rfl, rfl, List.prefix_refl _,
        Nat.le_refl _, fun reads => (reads trivial).elim⟩), fun exit _ => ?_⟩
      exact ⟨target.node, Graph.hasKind_iff.2 ⟨node, here, kind⟩, collects⟩

variable (limit : machine.maxCallDepth < room)
  (made : ∀ id behavior, machine.program.behavior? id = some behavior → behavior.Made)
include limit made

/-- A node of the body that control enters. -/
theorem maintains_execute {target : InputRef}
    (fires : ∀ source,
      Maintains (machine.InBody f opened) (fun _ _ _ => True) (machine.fire fuel source)) :
    Maintains (machine.InBody f opened) (fun _ _ _ => True)
      (machine.execute (fuel + 1) target) := by
  have agree (fuel : Nat) : (machine.parts fuel).Agree .none room (machine.parts fuel) :=
    parts_agree limit (fun _ => rfl) made fuel
  have unfolded : machine.execute (fuel + 1) target =
      machine.executeWith fuel (machine.parts fuel) target := rfl
  have counts : Maintains (machine.InBody f opened) (fun _ _ _ => True) step :=
    .changing fun ctx inBody => inBody.stable (kept_step True ctx) ⟨rfl, rfl⟩
  cases here : machine.graph.node? target.node with
  | none =>
    rw [unfolded, executeWith, here]
    exact .fail _
  | some node =>
    cases kind : node.kind with
    | call g =>
      -- What the call leaves in the frame is behind its own node.
      intro ctx inBody
      refine ⟨?_, fun _ _ _ _ => trivial⟩
      have within' := inBody.kept.within within
      have kept := ((agree (fuel + 1)).execute target ctx within').2
      refine inBody.stable kept ?_
      rcases execute_leaves limit made within' (Graph.hasKind_iff.2 ⟨node, here, kind⟩)
        (fuel + 1) with ⟨exit, results, -, top⟩ | ⟨-, top⟩
      · exact ⟨by rw [top], by rw [top]⟩
      · exact ⟨by rw [top], by rw [top]⟩
    | functionOutput g =>
      simp only [unfolded, executeWith, here, kind]
      exact counts.bind fun _ => maintains_collect within opens calls (agree fuel) here kind
    | builtin type =>
      simp only [unfolded, executeWith, here, kind]
      refine counts.bind fun _ => ?_
      rw [Machine.behavior]
      split
      · rename_i behavior found
        exact ((made _ behavior found).execute target.slot).maintains stable_inBody
          (fun _ _ _ _ _ _ _ => trivial)
          (fun slot => InBody.maintains_read within ((agree fuel).pull ⟨target.node, slot⟩))
          fun slot => fires ⟨target.node, slot⟩
      · exact .fail _
    | functionInput g =>
      simp only [unfolded, executeWith, here, kind]
      exact counts.bind fun _ => .fail _
    | construct s =>
      simp only [unfolded, executeWith, here, kind]
      exact counts.bind fun _ => .fail _

theorem maintains_parts (fuel : Nat) :
    (∀ source,
      Maintains (machine.InBody f opened) (fun _ _ _ => True) (machine.fire fuel source)) ∧
    ∀ target,
      Maintains (machine.InBody f opened) (fun _ _ _ => True) (machine.execute fuel target) := by
  induction fuel with
  | zero => exact ⟨fun _ => .outOfFuel, fun _ => .outOfFuel⟩
  | succ fuel ih =>
    obtain ⟨fires, executes⟩ := ih
    refine ⟨fun source => ?_, fun target =>
      maintains_execute within opens calls limit made fires⟩
    show Maintains _ _ (machine.fireWith (machine.parts fuel) source)
    rw [fireWith_eq]
    split
    · exact .pure ()
    · refine (executes _).bind fun flow => ?_
      cases flow with
      | next slot => exact fires _
      | done => exact .pure ()

end

theorem next_of_afterBody {call : NodeId} {outcome : Except Stop Unit × Frame} {exit : Nat}
    {after : Context}
    (went : (afterBody call outcome).runAt ctx = (.ok (.next exit), after)) :
    outcome.2.returned = some exit ∧ after.top.callResults =
      Assoc.put call outcome.2.results ctx.top.callResults := by
  obtain ⟨result, frame⟩ := outcome
  rw [afterBody, runAt_bind, runAt_liftExcept] at went
  cases result with
  | error stop => exact absurd (congrArg Prod.fst went) (by simp)
  | ok _ =>
    dsimp only at went
    cases returned : frame.returned with
    | none => simp [returned] at went
    | some exit' =>
      rw [returned] at went
      dsimp only at went
      rw [runAt_bind, runAt_modify] at went
      obtain ⟨same, rfl⟩ := Prod.mk.inj went
      exact ⟨congrArg some (Flow.next.inj (Except.ok.inj same)), rfl⟩

theorem next_of_call {parts : Parts} {target : InputRef} {entry own : NodeId}
    (boundaries : machine.boundaryNodes target.node f = pure (entry, own)) {exit : Nat}
    {after : Context} (went : (machine.call parts target f).runAt ctx = (.ok (.next exit), after)) :
    ctx.depth ≤ machine.maxCallDepth ∧
      let ran := (parts.fire ⟨entry, target.slot⟩).runAt (ctx.push { call := some target.node })
      ran.2.pop.1.returned = some exit ∧ after.top.callResults =
        Assoc.put target.node ran.2.pop.1.results ran.2.pop.2.top.callResults := by
  rw [call_eq, boundaries, pure_bind, openCall_bind, runAt_bind, runAt_get] at went
  dsimp only at went
  split at went
  · exact absurd (congrArg Prod.fst went) (by simp)
  · rename_i shallow
    rw [runAt_bind, runAt_modify] at went
    dsimp only at went
    rw [runAt_bind, runAt_leaving] at went
    exact ⟨Nat.not_lt.1 shallow, next_of_afterBody went⟩

end Machine

namespace Graph

variable {graph : Graph} {admits : Admits} {call : NodeId} {f : FunctionId}

/-- A call through which control went on has left behind what an end of its function collected, and
there was room for its frame. -/
theorem WellFormed.call_collects (formed : graph.WellFormed admits)
    (calls : graph.HasKind call (.call f)) {limit fuel slot exit : Nat} {ctx after : Context}
    (bottom : ctx.outermost.call = none)
    (returned : ((graph.machine .builtin limit).execute fuel ⟨call, slot⟩).runAt ctx =
      (.ok (.next exit), after)) :
    ctx.depth ≤ limit ∧ ∃ boundary results, graph.HasKind boundary (.functionOutput f) ∧
      after.top.callResults.lookup call = some results ∧
      (graph.machine .builtin limit).Collects (ctx.push { call := some call }) boundary
        results := by
  obtain ⟨entry, own, boundaries, -⟩ := formed.boundaryNodes .builtin limit calls
  cases fuel with
  | zero => exact absurd (congrArg Prod.fst returned) (by simp [Machine.execute])
  | succ fuel =>
    rw [Machine.runAt_execute_call calls] at returned
    obtain ⟨shallow, left, top⟩ := Machine.next_of_call boundaries returned
    obtain ⟨room, deep, within⟩ := exists_within bottom limit
    let pushed := ctx.push { call := some call }
    have inner : pushed.Within room := within.push (Nat.lt_of_le_of_lt shallow deep) _
    let opened := { ctx with steps := ctx.steps + 1 }.push { call := some call }
    have begun : (graph.machine .builtin limit).InBody f pushed opened :=
      ⟨Machine.kept_step True pushed, nofun⟩
    have body : (graph.machine .builtin limit).InBody f pushed
        ((((graph.machine .builtin limit).parts fuel).fire ⟨entry, slot⟩).runAt opened).2 :=
      ((Machine.maintains_parts inner rfl calls deep (fun _ _ => made_machine) fuel).1 _ _ begun).1
    generalize (((graph.machine .builtin limit).parts fuel).fire ⟨entry, slot⟩).runAt _ = ran
      at left top body
    have callers : ran.2.callers = ctx.top :: ctx.callers := body.kept.callers
    have closed : ran.2.pop.1 = ran.2.top := by rw [Context.pop, callers]
    rw [closed] at left top
    obtain ⟨boundary, kind, collects⟩ := body.collected exit left
    exact ⟨shallow, boundary, _, kind, by rw [top, Assoc.lookup_put_self], collects⟩

end Graph

end NodeScript
