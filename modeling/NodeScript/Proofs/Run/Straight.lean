import NodeScript.Proofs.Catalog.Leads
import NodeScript.Proofs.Run.Checked
import NodeScript.Proofs.Run.Ends

/-!
Runs without loops. Where no node repeats its body for as long as a condition holds, and no wires of
signals lead back to where they come from, control comes to an end: on its way it gets to nodes
further along the wires, or into the body of a function in one frame more, of which there are no
more than the limit allows. Main statement: `Graph.IsScript.emit_ends`.
-/

set_option autoImplicit false
set_option relaxedAutoImplicit false

namespace NodeScript

open Run Relation
open Filter (atTop)

namespace Graph

def Steers (graph : Graph) (id other : NodeId) : Prop :=
  ∃ slot output target, graph.output? ⟨id, slot⟩ = some output ∧ output.port.isSignal = true ∧
    target ∈ output.targets ∧ target.node = other

/-- No wires of signals lead from a node back to it. -/
def Straight (graph : Graph) : Prop := ∀ id, ¬TransGen graph.Steers id id

variable {graph : Graph}

theorem straight_of_rank {rank : NodeId → Nat}
    (rises : ∀ entry ∈ graph.live, ∀ output ∈ entry.2.outputs, output.port.isSignal = true →
      ∀ target ∈ output.targets, rank entry.1 < rank target.node) : graph.Straight := by
  have step {id other : NodeId} (steers : graph.Steers id other) : rank id < rank other := by
    obtain ⟨slot, output, target, found, signal, mem, rfl⟩ := steers
    obtain ⟨node, here, out⟩ := Option.bind_eq_some_iff.1 found
    exact rises (id, node) (mem_live.2 here) output (List.mem_of_getElem? out) signal target mem
  intro id loop
  have higher : ∀ {other}, TransGen graph.Steers id other → rank id < rank other := by
    intro other path
    induction path with
    | single first => exact step first
    | tail _ last ih => exact ih.trans (step last)
  exact Nat.lt_irrefl _ (higher loop)

theorem Straight.wellFounded (straight : graph.Straight) (wired : graph.Wired) :
    WellFounded fun other id => graph.Steers id other := by
  have inside {id other : NodeId} (steers : graph.Steers id other) :
      other.index < graph.arena.size := by
    obtain ⟨slot, output, target, found, -, mem, rfl⟩ := steers
    obtain ⟨input, there, -⟩ := wired.target found mem
    obtain ⟨node, here, -⟩ := Option.bind_eq_some_iff.1 there
    exact index_lt_of_node? here
  exact NodeId.wellFounded inside straight

def control (graph : Graph) : Typing where
  var _ _ := False
  result _ _ _ := False
  exit call slot := ∃ port, graph.outputPort? ⟨call, slot⟩ = some port ∧ port.isSignal = true
  fault _ := True
  agree := fun used => used.elim

theorem typed_control {frame : Frame} (returned : ∀ {call exit}, frame.call = some call →
    frame.returned = some exit → graph.control.exit call exit) : frame.Typed graph.control where
  vars _ used := used.elim
  results _ := fun _ used => used.elim
  returned := returned
  callResults _ := fun _ used => used.elim

end Graph

theorem Context.Typed.outermost {typing : Typing} {stack : List (Option NodeId)} {ctx : Context}
    (typed : ctx.Typed typing stack) : ctx.outermost.call = none := by
  have last : ctx.calls.getLast? = some none := by
    rw [← typed.ground, ← typed.calls]
    rfl
  exact Option.some.inj (ctx.getLast?_calls.symm.trans last)

theorem Context.typed_alone {graph : Graph} {ctx : Context} (alone : ctx.calls = [none]) :
    ctx.Typed graph.control [none] where
  calls := alone
  ground := rfl
  frames frame mem := by
    refine Graph.typed_control fun opened => ?_
    have outside : frame.call ∈ ctx.calls := List.mem_map_of_mem mem
    rw [alone, opened] at outside
    simp at outside

namespace Run

variable {α β : Type} {graph : Graph} {stack : List (Option NodeId)}

def Halts (graph : Graph) (stack : List (Option NodeId)) (post : α → Prop) (run : Run α) : Prop :=
  ∀ ctx, ctx.Typed graph.control stack → (run.runAt ctx).2.Typed graph.control stack ∧
    match (run.runAt ctx).1 with
    | .ok a => post a
    | .error stop => stop ≠ .outOfFuel

namespace Halts

variable {post : α → Prop} {run : Run α}

theorem pure {a : α} (holds : post a) : Halts graph stack post (Pure.pure a) := by
  intro _ typed
  exact ⟨typed, holds⟩

theorem fail (error : RunError) : Halts graph stack post (fail error) := by
  intro _ typed
  refine ⟨typed, ?_⟩
  simp

/-- What a part comes to. -/
theorem ends (halts : Halts graph stack post run) {ctx ctx' : Context} {result : Except Stop α}
    (typed : ctx.Typed graph.control stack) (done : run.runAt ctx = (result, ctx')) :
    ctx'.Typed graph.control stack ∧ result ≠ .error .outOfFuel := by
  have here := halts ctx typed
  rw [done] at here
  refine ⟨here.1, ?_⟩
  rintro rfl
  exact here.2 rfl

theorem bind {post' : β → Prop} {next : α → Run β} (first : Halts graph stack post run)
    (rest : ∀ a, post a → Halts graph stack post' (next a)) :
    Halts graph stack post' (run >>= next) := by
  intro ctx typed
  have here := first ctx typed
  rw [runAt_bind]
  rcases done : run.runAt ctx with ⟨result, ctx'⟩
  rw [done] at here
  cases result with
  | ok a => exact rest a here.2 ctx' here.1
  | error stop => exact here

theorem yields {post' : α → Prop} (halts : Halts graph stack post run) (made : Yields post' run) :
    Halts graph stack post' run := by
  intro ctx typed
  have here := halts ctx typed
  rcases done : run.runAt ctx with ⟨result, ctx'⟩
  rw [done] at here
  cases result with
  | ok a => exact ⟨here.1, made ctx a (congrArg Prod.fst done)⟩
  | error stop => exact here

/-- A change of the context in which all frames stay as control may leave them. -/
theorem changing {change : Context → Context}
    (keeps : ∀ ctx, ctx.Typed graph.control stack → (change ctx).Typed graph.control stack) :
    Halts graph stack (fun _ => True) (modify change) := by
  intro ctx typed
  exact ⟨keeps ctx typed, trivial⟩

/-- A part that looks at the context before it goes on. -/
theorem looking {next : Context → Run α} (rest : ∀ ctx, ctx.Typed graph.control stack →
    Halts graph stack post (next ctx)) : Halts graph stack post ((get : Run Context) >>= next) := by
  intro ctx typed
  rw [runAt_bind, runAt_get]
  exact rest ctx typed ctx typed

theorem orMissing (halts : Halts graph stack post run) :
    Halts graph stack (fun _ => True) run.orMissing := by
  intro ctx typed
  obtain ⟨left, ended⟩ := halts.ends typed rfl
  rw [runAt_orMissing]
  refine ⟨left, ?_⟩
  rcases caught_cases (run.runAt ctx).1 with
    ⟨a, -, given⟩ | ⟨node, input, -, given⟩ | ⟨stop, stopped, -, given⟩
  · rw [given]
    trivial
  · rw [given]
    trivial
  · rw [given]
    rintro rfl
    exact ended stopped

theorem forM {ι : Type} {items : List ι} {body : ι → Run Unit}
    (each : ∀ a, Halts graph stack (fun _ => True) (body a)) :
    Halts graph stack (fun _ => True) (items.forM body) := by
  induction items with
  | nil => exact pure trivial
  | cons a items ih => exact (each a).bind fun _ _ => ih

theorem mapM {ι : Type} {items : List ι} {make : ι → Run α}
    (each : ∀ a ∈ items, Halts graph stack (fun _ => True) (make a)) :
    Halts graph stack (fun _ => True) (items.mapM make) := by
  induction items with
  | nil => exact pure trivial
  | cons a items ih =>
    rw [List.forall_mem_cons] at each
    rw [List.mapM_cons]
    exact each.1.bind fun _ _ => (ih each.2).bind fun _ _ => pure trivial

/-- What is done in the frame of a call and after it. -/
theorem leaving {call : NodeId} {post' : β → Prop} {next : Except Stop α × Frame → Run β}
    (halts : Halts graph (some call :: stack) post run)
    (rest : ∀ result frame, result ≠ .error .outOfFuel → frame.call = some call →
      frame.Typed graph.control → Halts graph stack post' (next (result, frame))) :
    Halts graph stack post'
      (modify (Context.push { call := some call }) >>= fun _ => Machine.leaving run >>= next) := by
  intro ctx typed
  have opened := typed.push (Frame.typed_open graph.control (some call))
  rw [runAt_bind, runAt_modify]
  dsimp only
  rw [runAt_bind, runAt_leaving]
  obtain ⟨left, ended⟩ := halts.ends opened rfl
  obtain ⟨called, top, below⟩ := left.pop
  exact rest _ _ ended called top _ below

end Halts

end Run

section

variable {graph : Graph} {stack : List (Option NodeId)} {scope : Scope}
  (input : ∀ slot, Halts graph stack (fun _ => True) (scope.input slot))
include input

theorem Scope.Made.halts {draws : Prop} {α : Type} {run : Scope → Run α}
    (made : Scope.Made False draws run) : Halts graph stack (fun _ => True) (run scope) := by
  induction made with
  | pure a => exact .pure trivial
  | refuse why => exact .fail _
  | config run each ih => exact ih _
  | bind first rest ihFirst ihRest => exact ihFirst.bind fun a _ => ihRest a
  | input slot => exact input slot
  | slotKey index =>
    beta_reduce
    rw [Scope.slotKey]
    split
    · exact .pure trivial
    · exact .fail _
  | fetch? key => exact .looking fun _ _ => .pure trivial
  | trigger => exact .looking fun _ _ => .pure trivial
  | random drawing low high above =>
    intro ctx typed
    rw [runAt_random]
    refine ⟨typed.change rfl rfl (typed.frames ctx.top List.mem_cons_self), ?_⟩
    cases (ctx.draws.next low high).1 with
    | none => simp
    | some n => trivial
  | orMissing acting | store acting | send acting | fire acting | repeatWhile acting
  | forM acting => exact acting.elim

end

theorem Scope.halts_store {graph : Graph} {stack : List (Option NodeId)} (key : VarKey)
    (value : Value) : Halts graph stack (fun _ => True) (Scope.store key value) := by
  refine .changing fun ctx typed => ?_
  refine typed.change rfl rfl ?_
  exact Graph.typed_control (typed.frames ctx.top List.mem_cons_self).returned

theorem Scope.halts_send {graph : Graph} {stack : List (Option NodeId)} (recipient : Option String)
    (text : String) : Halts graph stack (fun _ => True) (Scope.send recipient text) := by
  refine .changing fun ctx typed => ?_
  exact typed.change rfl rfl (typed.frames ctx.top List.mem_cons_self)

namespace Catalog

section

variable {graph : Graph} {stack : List (Option NodeId)} {scope : Scope}
  (input : ∀ slot, Halts graph stack (fun _ => True) (scope.input slot))
include input

open Scope.Made

private theorem halts_branch (slot : Nat) :
    Halts graph stack (fun _ => True) (branch.behavior.execute scope slot) := by
  refine ((boolean 1 : Scope.Made False True _).halts input).bind fun holds _ => ?_
  cases holds <;> exact .pure trivial

private theorem halts_log (slot : Nat) :
    Halts graph stack (fun _ => True) (log.behavior.execute scope slot) := by
  refine ((text 1 : Scope.Made False True _).halts input).bind fun _ _ => ?_
  exact .pure trivial

private theorem halts_message (slot : Nat) :
    Halts graph stack (fun _ => True) (message.behavior.execute scope slot) := by
  refine ((text 1 : Scope.Made False True _).halts input).bind fun said _ =>
    (input 2).orMissing.bind fun value? _ => ?_
  rcases value? with _ | _ | _ | _ | player | _ | _
  · exact ((trigger : Scope.Made False True _).halts input).bind fun _ _ =>
      (Scope.halts_send _ _).bind fun _ _ => .pure trivial
  all_goals
    first
    | exact (Scope.halts_send (some player) said).bind fun _ _ => .pure trivial
    | exact .fail _

private theorem halts_setVariable (slot : Nat) :
    Halts graph stack (fun _ => True) (setVariable.behavior.execute scope slot) := by
  refine (input 1).bind fun _ _ => ?_
  refine (Scope.halts_store _ _).bind fun _ _ => ?_
  exact .pure trivial

variable (fire : ∀ slot, Halts graph stack (fun _ => True) (scope.fire slot))
include fire

private theorem halts_forEach (slot : Nat) :
    Halts graph stack (fun _ => True) (forEach.behavior.execute scope slot) := by
  refine ((list 1 : Scope.Made False True _).halts input).bind fun items _ =>
    ((slotKey 0 : Scope.Made False True _).halts input).bind fun element _ =>
      ((slotKey 1 : Scope.Made False True _).halts input).bind fun index _ => ?_
  refine (Halts.forM fun item => ?_).bind fun _ _ => .pure trivial
  exact (Scope.halts_store _ _).bind fun _ _ => (Scope.halts_store _ _).bind fun _ _ => fire 0

omit input in
private theorem halts_sequence (slot : Nat) :
    Halts graph stack (fun _ => True) (sequence.behavior.execute scope slot) := by
  refine (Halts.forM fire).bind fun _ _ => ?_
  exact .pure trivial

theorem all_halt {type : NodeType} (h : type ∈ all) (unlike : type.id ≠ repeatWhile.id)
    (slot : Nat) : Halts graph stack (fun _ => True) (type.behavior.execute scope slot) := by
  simp only [all, List.mem_cons, List.not_mem_nil, or_false] at h
  rcases h with rfl | rfl | rfl | rfl | rfl | rfl | rfl | rfl | rfl | rfl | rfl | rfl | rfl | rfl |
    rfl | rfl | rfl | rfl | rfl | rfl | rfl | rfl | rfl | rfl | rfl
  case inr.inl => exact halts_branch input slot
  case inr.inr.inl => exact absurd rfl unlike
  case inr.inr.inr.inl => exact halts_forEach input fire slot
  case inr.inr.inr.inr.inl => exact halts_sequence fire slot
  case inr.inr.inr.inr.inr.inl => exact halts_log input slot
  case inr.inr.inr.inr.inr.inr.inl => exact halts_message input slot
  case inr.inr.inr.inr.inr.inr.inr.inr.inr.inl => exact halts_setVariable input slot
  all_goals exact .fail _

end

end Catalog

theorem Registry.builtin_halts {id : String} {behavior : Behavior}
    (found : builtin.behavior? id = some behavior) (unlike : id ≠ Catalog.repeatWhile.id)
    {graph : Graph} {stack : List (Option NodeId)} {scope : Scope}
    (input : ∀ slot, Halts graph stack (fun _ => True) (scope.input slot))
    (fire : ∀ slot, Halts graph stack (fun _ => True) (scope.fire slot)) (slot : Nat) :
    Halts graph stack (fun _ => True) (behavior.execute scope slot) := by
  obtain ⟨type, registered, rfl⟩ := Option.map_eq_some_iff.1 found
  obtain ⟨mem, rfl⟩ := mem_of_find? registered
  exact Catalog.all_halt input fire mem unlike slot

namespace Machine

section

variable {graph : Graph} {limit fuel : Nat} {parts : Parts} {stack : List (Option NodeId)}
  {target : InputRef} {port : Port} {f : FunctionId}

theorem halts_step : Halts graph stack (fun _ => True) step := by
  refine .changing fun ctx typed => ?_
  exact typed.change rfl rfl (typed.frames ctx.top List.mem_cons_self)

theorem halts_liftExcept {α : Type} {result : Except Stop α} (ended : result ≠ .error .outOfFuel) :
    Halts graph stack (fun _ => True) (liftExcept result) := by
  cases result with
  | ok a => exact .pure trivial
  | error stop =>
    intro ctx typed
    refine ⟨typed, ?_⟩
    intro same
    exact ended (congrArg _ same)

theorem halts_openCall {α β : Type} {post : α → Prop} {post' : β → Prop} {call : NodeId}
    {run : Run α} {next : Except Stop α × Frame → Run β}
    (halts : stack.length ≤ limit → Halts graph (some call :: stack) post run)
    (rest : ∀ result frame, result ≠ .error .outOfFuel → frame.call = some call →
      frame.Typed graph.control → Halts graph stack post' (next (result, frame))) :
    Halts graph stack post' ((graph.machine .builtin limit).openCall call >>= fun _ =>
      leaving run >>= next) := by
  rw [openCall_bind]
  refine .looking fun ctx typed => ?_
  have depth : ctx.depth = stack.length := by
    rw [← typed.calls, List.length_map]
    rfl
  split
  · exact .fail _
  · rename_i shallow
    have room : ctx.depth ≤ limit := Nat.le_of_not_lt shallow
    rw [depth] at room
    exact .leaving (halts room) rest

theorem halts_currentCall (boundary : NodeId) (f : FunctionId) :
    Halts graph stack (fun call => graph.HasKind call (.call f) ∧ ∃ rest, stack = some call :: rest)
      ((graph.machine .builtin limit).currentCall boundary f) := by
  intro ctx typed
  obtain ⟨call, opened, calls, done⟩ | ⟨-, stopped⟩ :=
    (graph.machine .builtin limit).currentCall_cases boundary f ctx
  · rw [done]
    refine ⟨typed, calls, ctx.callers.map (·.call), ?_⟩
    rw [← typed.calls, Context.frames, List.map_cons, opened]
  · rw [stopped]
    exact ⟨typed, by simp⟩

theorem halts_pulls (formed : graph.WellFormed Registry.builtin.Declares)
    (ground : stack.getLast? = some none) (limit : Nat) (id : NodeId) :
    ∀ᶠ fuel in atTop, ∀ slot, Halts graph stack (fun _ => True)
      ((graph.machine .builtin limit).pull fuel ⟨id, slot⟩) := by
  have made : ∀ id behavior, (graph.machine .builtin limit).program.behavior? id = some behavior →
      behavior.Made := fun _ _ => Graph.made_machine
  filter_upwards [pullsEnd made formed.wired formed.acyclic ground id] with fuel ends slot ctx typed
  obtain ⟨ended, -⟩ := ends slot ctx typed.calls
  obtain ⟨room, deep, within⟩ := Context.exists_within typed.outermost limit
  have agree : Parts.Agree .none room ((graph.machine .builtin limit).parts fuel)
      ((graph.machine .builtin limit).parts fuel) := parts_agree deep (fun _ => rfl) made fuel
  have kept := (agree.pull ⟨id, slot⟩ ctx within).2
  have top : (((graph.machine .builtin limit).pull fuel ⟨id, slot⟩).runAt ctx).2.top = ctx.top :=
    (kept.quiet not_false).1
  refine ⟨typed.change kept.callers kept.call ?_, ?_⟩
  · rw [top]
    exact typed.frames ctx.top List.mem_cons_self
  · split
    · trivial
    · rename_i stop stopped
      intro same
      exact ended (stopped.trans (congrArg _ same))

/-- Where control goes on from a node, it leaves the node through a signal. -/
def Leaves (graph : Graph) (id : NodeId) (flow : Flow) : Prop :=
  ∀ slot, flow = .next slot → graph.control.exit id slot

/-- A node of a registered type, other than one that repeats its body for as long as a condition
holds. -/
theorem halts_builtin (formed : graph.WellFormed Registry.builtin.Declares) {node : Node}
    {type : String} (here : graph.node? target.node = some node) (kind : node.kind = .builtin type)
    (unlike : type ≠ Catalog.repeatWhile.id)
    (reads : ∀ slot, Halts graph stack (fun _ => True) (parts.pull ⟨target.node, slot⟩))
    (own : ∀ slot, graph.control.exit target.node slot →
      Halts graph stack (fun _ => True) (parts.fire ⟨target.node, slot⟩)) :
    Halts graph stack (Leaves graph target.node)
      ((graph.machine .builtin limit).behavior target.node >>= fun behavior =>
        behavior.execute ((graph.machine .builtin limit).scope fuel parts target.node node.config)
          target.slot) := by
  have form : graph.form? target.node = some node.form := Graph.form?_eq_of_node? here
  obtain ⟨behavior, known, registered, declared⟩ := formed.admitted form kind
  have builtin : graph.builtin? target.node = some (type, node.config) :=
    Graph.builtin?_eq_some form kind
  rw [Graph.behavior_machine builtin registered limit, pure_bind]
  have leads := Registry.builtin_leads type behavior registered
  generalize seen : (graph.machine .builtin limit).scope fuel parts target.node node.config = scope
  have declared : behavior.ports scope.config known = .ok node.form.ports := by
    rw [← seen]
    exact declared
  -- The chains behind outputs that are no signals do not matter.
  let chains (slot : Nat) : Run Unit :=
    if (graph.outputPort? ⟨target.node, slot⟩).any (·.isSignal) then scope.fire slot else pure ()
  have same : behavior.execute scope target.slot =
      behavior.execute { scope with fire := chains } target.slot := by
    refine (leads.chains declared chains (fun slot port found signal => ?_) target.slot).symm
    have out : graph.outputPort? ⟨target.node, slot⟩ = some port := by
      rw [Graph.outputPort?, form]
      exact found
    exact if_pos (by rw [out]; exact signal)
  have halts : Halts graph stack (fun _ => True)
      (behavior.execute { scope with fire := chains } target.slot) := by
    refine Registry.builtin_halts registered unlike (fun slot => ?_) (fun slot => ?_) target.slot
    · rw [← seen]
      exact reads slot
    · show Halts graph stack _ (ite _ _ _)
      split
      · rename_i signal
        rw [← seen]
        exact own slot ((Option.any_eq_true _ _).1 signal)
      · exact .pure trivial
  rw [same]
  refine halts.yields fun ctx flow done slot goes => ?_
  rw [← same] at done
  obtain ⟨port, found, signal⟩ := leads.next declared target.slot ctx flow done slot goes
  exact ⟨port, by rw [Graph.outputPort?, form]; exact found, signal⟩

theorem halts_call {entry exit : NodeId}
    (nodes : (graph.machine .builtin limit).boundaryNodes target.node f = pure (entry, exit))
    (body : stack.length ≤ limit → Halts graph (some target.node :: stack) (fun _ => True)
      (parts.fire ⟨entry, target.slot⟩)) :
    Halts graph stack (Leaves graph target.node)
      ((graph.machine .builtin limit).call parts target f) := by
  rw [call_eq, nodes, pure_bind]
  refine halts_openCall body fun result frame ended opened top => ?_
  refine (halts_liftExcept ended).bind fun _ _ => ?_
  dsimp only
  cases returned : frame.returned with
  | none => exact .pure fun _ same => by simp at same
  | some exit =>
    refine (Halts.changing fun ctx typed => ?_).bind fun _ _ => .pure fun slot same => ?_
    · exact typed.change rfl rfl
        (Graph.typed_control (typed.frames ctx.top List.mem_cons_self).returned)
    · obtain rfl := Flow.next.inj same
      exact top.returned opened returned

theorem halts_collect (formed : graph.WellFormed Registry.builtin.Declares) {node : Node}
    (here : graph.node? target.node = some node) (kind : node.kind = .functionOutput f)
    (found : graph.inputPort? target = some port) (signal : port.isSignal = true)
    (reads : ∀ slot, Halts graph stack (fun _ => True) (parts.pull ⟨target.node, slot⟩)) :
    Halts graph stack (Leaves graph target.node)
      ((graph.machine .builtin limit).collect parts target node f) := by
  have ends : graph.HasKind target.node (.functionOutput f) :=
    Graph.hasKind_iff.2 ⟨node, here, kind⟩
  refine (halts_currentCall target.node f).bind fun call called => ?_
  obtain ⟨calls, rest, rfl⟩ := called
  have each : ∀ item ∈ node.inputs.zipIdx, Halts graph (some call :: rest) (fun _ => True)
      (if item.1.port.isSignal then pure none
        else (parts.pull ⟨target.node, item.2⟩).orMissing) := by
    intro item _
    split
    · exact .pure trivial
    · exact (reads item.2).orMissing
  refine (Halts.mapM each).bind fun results _ => ?_
  refine (Halts.changing fun ctx typed => ?_).bind fun _ _ => .pure fun _ same => by simp at same
  have opened : ctx.top.call = some call := (List.cons.inj typed.calls).1
  refine typed.change rfl rfl (Graph.typed_control fun opened' returned => ?_)
  obtain rfl := Option.some.inj (opened.symm.trans opened')
  obtain rfl := Option.some.inj returned
  exact ⟨port, (formed.result_ports calls ends target.slot).symm.trans found, signal⟩

def ChainsHalt (graph : Graph) (limit : Nat) (stack : List (Option NodeId)) (id : NodeId) : Prop :=
  ∀ᶠ fuel in atTop, ∀ slot, graph.control.exit id slot →
    Halts graph stack (fun _ => True) ((graph.machine .builtin limit).fire fuel ⟨id, slot⟩)

/-- A node that control reaches comes to its end where the chains behind it do, and the bodies of
functions if there may be one more frame. -/
theorem halts_execute (formed : graph.WellFormed Registry.builtin.Declares)
    (unrepeated : ∀ id, ¬graph.HasKind id (.builtin Catalog.repeatWhile.id))
    (ground : stack.getLast? = some none) (found : graph.inputPort? target = some port)
    (signal : port.isSignal = true) (own : ChainsHalt graph limit stack target.node)
    (callee : stack.length ≤ limit →
      ∀ call entry, ChainsHalt graph limit (some call :: stack) entry) :
    ∀ᶠ fuel in atTop, Halts graph stack (Leaves graph target.node)
      ((graph.machine .builtin limit).execute fuel target) := by
  refine eventually_succ ?_
  obtain ⟨form, here, -⟩ := Option.bind_eq_some_iff.1 found
  obtain ⟨node, there, rfl⟩ := Graph.node?_of_form? here
  have has {kind : NodeKind} (same : node.kind = kind) : graph.HasKind target.node kind :=
    Graph.hasKind_iff.2 ⟨node, there, same⟩
  have opened (fuel : Nat) : (graph.machine .builtin limit).execute (fuel + 1) target =
      (graph.machine .builtin limit).executeWith fuel ((graph.machine .builtin limit).parts fuel)
        target := rfl
  simp only [opened, executeWith,
    show (graph.machine .builtin limit).graph.node? target.node = some node from there]
  have reads := halts_pulls formed ground limit target.node
  cases kind : node.kind with
  | builtin type =>
    have unlike : type ≠ Catalog.repeatWhile.id := by
      rintro rfl
      exact unrepeated _ (has kind)
    filter_upwards [reads, own] with fuel reads own
    exact halts_step.bind fun _ _ => halts_builtin formed there kind unlike reads own
  | call f =>
    obtain ⟨entry, exit, nodes, begins, -⟩ := formed.boundaryNodes .builtin limit (has kind)
    have starts : graph.control.exit entry target.slot :=
      ⟨port, (formed.argument_ports (has kind) begins target.slot).trans found, signal⟩
    have body := Filter.eventually_imp_distrib_left.2 fun room => callee room target.node entry
    filter_upwards [body] with fuel body
    exact halts_step.bind fun _ _ => halts_call nodes fun room => body room target.slot starts
  | functionOutput f =>
    filter_upwards [reads] with fuel reads
    exact halts_step.bind fun _ _ => halts_collect formed there kind found signal reads
  | functionInput f => exact .of_forall fun _ => halts_step.bind fun _ _ => .fail _
  | construct s => exact .of_forall fun _ => halts_step.bind fun _ _ => .fail _

/-- The chains behind a node come to their end where those do behind the nodes that it leads to. -/
theorem chainsHalt_of_steers (formed : graph.WellFormed Registry.builtin.Declares)
    (unrepeated : ∀ id, ¬graph.HasKind id (.builtin Catalog.repeatWhile.id))
    (ground : stack.getLast? = some none) {id : NodeId}
    (below : ∀ other, graph.Steers id other → ChainsHalt graph limit stack other)
    (callee : stack.length ≤ limit →
      ∀ call entry, ChainsHalt graph limit (some call :: stack) entry) :
    ChainsHalt graph limit stack id := by
  obtain ⟨count, beyond⟩ : ∃ count, ∀ slot, count ≤ slot → ¬graph.control.exit id slot := by
    cases here : graph.node? id with
    | none =>
      refine ⟨0, fun slot _ ⟨port, found, _⟩ => ?_⟩
      simp [Graph.outputPort?_eq, Graph.output?, here] at found
    | some node =>
      refine ⟨node.outputs.length, fun slot long ⟨port, found, _⟩ => ?_⟩
      simp [Graph.outputPort?_eq, Graph.output?, here, List.getElem?_eq_none long] at found
  refine eventually_slots count (fun slot _ => ?_) (.of_forall fun _ slot far leaves =>
    absurd leaves (beyond slot far))
  rw [Filter.eventually_imp_distrib_left]
  rintro ⟨port, found, signal⟩
  refine eventually_succ ?_
  show ∀ᶠ fuel in atTop, Halts graph stack _ ((graph.machine .builtin limit).fireWith
    ((graph.machine .builtin limit).parts fuel) ⟨id, slot⟩)
  simp only [fireWith_eq]
  cases leads : (graph.machine .builtin limit).graph.signalTarget? ⟨id, slot⟩ with
  | none => exact .of_forall fun _ => .pure trivial
  | some target =>
    obtain ⟨port', found', same⟩ := formed.wired.target_port found leads
    have steers : graph.Steers id target.node := by
      rw [Graph.outputPort?_eq, Option.map_eq_some_iff] at found
      obtain ⟨output, out, rfl⟩ := found
      have first := leads
      rw [Graph.signalTarget?_eq, Option.bind_eq_some_iff] at first
      obtain ⟨output', out', first⟩ := first
      obtain rfl := Option.some.inj (out.symm.trans out')
      exact ⟨slot, output, target, out, signal, List.mem_of_head? first, rfl⟩
    have next := below _ steers
    filter_upwards [halts_execute formed unrepeated ground found' (same.trans signal) next callee,
      next] with fuel runs next
    refine runs.bind fun flow leaves => ?_
    cases flow with
    | done => exact .pure trivial
    | next slot => exact next slot (leaves slot rfl)

theorem chainsHalt_of_callees (formed : graph.WellFormed Registry.builtin.Declares)
    (unrepeated : ∀ id, ¬graph.HasKind id (.builtin Catalog.repeatWhile.id))
    (straight : graph.Straight) (ground : stack.getLast? = some none)
    (callee : stack.length ≤ limit →
      ∀ call entry, ChainsHalt graph limit (some call :: stack) entry)
    (id : NodeId) : ChainsHalt graph limit stack id := by
  induction id using (straight.wellFounded formed.wired).induction with
  | h id below => exact chainsHalt_of_steers formed unrepeated ground below callee

theorem chainsHalt (formed : graph.WellFormed Registry.builtin.Declares)
    (unrepeated : ∀ id, ¬graph.HasKind id (.builtin Catalog.repeatWhile.id))
    (straight : graph.Straight) (room : Nat) (bound : limit + 1 ≤ room + stack.length)
    (ground : stack.getLast? = some none) (id : NodeId) : ChainsHalt graph limit stack id := by
  induction room generalizing stack id with
  | zero =>
    exact chainsHalt_of_callees formed unrepeated straight ground (fun _ => by omega) id
  | succ room ih =>
    refine chainsHalt_of_callees formed unrepeated straight ground (fun _ call entry => ?_) id
    refine ih (by rw [List.length_cons]; omega) ?_ entry
    cases stack with
    | nil => simp at ground
    | cons _ _ => rwa [List.getLast?_cons_cons]

end

end Machine

/-- In a script whose nodes do not repeat their bodies for as long as a condition holds, and in
which no wires of signals lead from a node back to it, every run comes to its end, however functions
call each other or themselves: with enough fuel it comes to one outcome, whatever the limit on open
calls, the entry and the context that it begins in, provided no call is open there. If it neither
succeeds nor fails, it panics, at a node that asked for a random number between bounds that are no
range. -/
theorem Graph.IsScript.emit_ends {graph : Graph} (script : graph.IsScript .builtin)
    (unrepeated : ∀ id, ¬graph.HasKind id (.builtin Catalog.repeatWhile.id))
    (straight : graph.Straight) (maxCallDepth : Nat) (entry : EntryPoint) {start : Context}
    (alone : start.calls = [none]) (documented : start.draws.Documented) :
    ∃ fuel outcome, outcome.1 ≠ .error .outOfFuel ∧
      (∀ node low high, outcome.1 = .error (.panicked node low high) →
        graph.PanicsAt node low high) ∧
      ∀ more, fuel ≤ more →
        ((graph.machine .builtin maxCallDepth).emit more entry).runAt start = outcome := by
  have formed := script.wellFormed
  let machine := graph.machine .builtin maxCallDepth
  cases begins : (Program.compile graph .builtin).entries.root? entry with
  | none =>
    refine ⟨0, (.error (.fault (.unknownEntryPoint entry)), start), by simp, by simp,
      fun more _ => ?_⟩
    have unknown : machine.emit more entry = .fail (.unknownEntryPoint entry) := by
      unfold Machine.emit
      rw [show machine.program.entries.root? entry = none from begins]
    rw [unknown]
    rfl
  | some root =>
    have runs (fuel : Nat) : machine.emit fuel entry = machine.fire fuel root := by
      unfold Machine.emit
      rw [show machine.program.entries.root? entry = some root from begins]
    have typed : start.Typed graph.control [none] := Context.typed_alone alone
    have chains : Machine.ChainsHalt graph maxCallDepth [none] root.node :=
      Machine.chainsHalt formed unrepeated straight maxCallDepth (Nat.le_refl _) rfl root.node
    obtain ⟨fuel, halts⟩ := Filter.eventually_atTop.1 chains
    have ended := (halts fuel (Nat.le_refl fuel) root.slot ⟨_, formed.root_port begins, rfl⟩).ends
      typed rfl
    obtain ⟨-, allowed⟩ := (parts_panicOnly graph maxCallDepth fuel).fire root start documented
    refine ⟨fuel, _, ended.2, allowed, fun more enough => ?_⟩
    rw [runs]
    exact ((graph.parts_follow_more enough).fire root trivial).of_ended ended.2

def Edit.respawning : List Edit := [
  .defineFunction
    { name := "f", inputs := [("in", .signal)], outputs := [("out", .signal)] } .zero,
  .addCall ⟨0⟩ .zero,
  .addBuiltin "event/On" .null .zero,
  .addBuiltin "flow/Sequence" .null .zero,
  .addCall ⟨0⟩ .zero,
  .addCall ⟨0⟩ .zero,
  .connect ⟨⟨0⟩, 0⟩ ⟨⟨2⟩, 0⟩ [],
  .connect ⟨⟨2⟩, 0⟩ ⟨⟨1⟩, 0⟩ [],
  .connect ⟨⟨3⟩, 0⟩ ⟨⟨4⟩, 0⟩ [],
  .connect ⟨⟨4⟩, 0⟩ ⟨⟨5⟩, 0⟩ [],
  .connect ⟨⟨4⟩, 1⟩ ⟨⟨6⟩, 0⟩ []]

theorem respawning_ends : ∃ graph,
    Edit.respawning.foldlM (Edit.apply Registry.builtin) .empty = .ok graph ∧
      graph.IsScript .builtin ∧ (∀ id, ¬graph.HasKind id (.builtin Catalog.repeatWhile.id)) ∧
      graph.Straight ∧ (Context.ofTrigger {}).calls = [none] ∧
      (Context.ofTrigger {}).draws.Documented ∧
      (((graph.machine .builtin 4).emit 20 ⟨0⟩).runAt (.ofTrigger {})).1 =
        .error (.fault (.callDepthExceeded 4)) ∧
      ∃ fuel outcome, outcome.1 ≠ .error .outOfFuel ∧
        (∀ node low high, outcome.1 = .error (.panicked node low high) →
          graph.PanicsAt node low high) ∧
        ∀ more, fuel ≤ more →
          ((graph.machine .builtin 4).emit more ⟨0⟩).runAt (.ofTrigger {}) = outcome := by
  let rank (id : NodeId) : Nat := [0, 2, 1, 0, 1, 2, 2].getD id.index 0
  have facts : ∃ graph ∈ (Edit.respawning.foldlM (Edit.apply Registry.builtin) .empty).toOption,
      (∀ entry ∈ graph.live, entry.2.kind ≠ .builtin Catalog.repeatWhile.id) ∧
      (∀ entry ∈ graph.live, ∀ output ∈ entry.2.outputs, output.port.isSignal = true →
        ∀ target ∈ output.targets, rank entry.1 < rank target.node) ∧
      (((graph.machine .builtin 4).emit 20 ⟨0⟩).runAt (.ofTrigger {})).1 =
        .error (.fault (.callDepthExceeded 4)) := by decide +kernel
  obtain ⟨graph, built, others, rises, stopped⟩ := facts
  have built := Accepted.toOption_eq_some_iff.1 built
  have script : graph.IsScript .builtin :=
    Reached.foldlM rfl (.first (.inl rfl)) (fun _ _ _ => trivial) built
  have unrepeated (id : NodeId) : ¬graph.HasKind id (.builtin Catalog.repeatWhile.id) := by
    intro has
    obtain ⟨node, here, kind⟩ := Graph.hasKind_iff.1 has
    exact others (id, node) (Graph.mem_live.2 here) kind
  have straight := Graph.straight_of_rank rises
  have documented : (Context.ofTrigger {}).draws.Documented := Draws.spread_documented 0
  exact ⟨graph, built, script, unrepeated, straight, rfl, documented, stopped,
    script.emit_ends unrepeated straight 4 ⟨0⟩ rfl documented⟩

/-- An event that sets a variable to a random number that is to be no number or more. -/
def Edit.betting : List Edit := [
  .addBuiltin "event/On" (.obj [("event", .str "go")]) .zero,
  .addBuiltin "math/Random" .null .zero,
  .addBuiltin "var/Set" .null .zero,
  .setInset ⟨⟨1⟩, 0⟩ (some (.number .nan)),
  .connect ⟨⟨1⟩, 0⟩ ⟨⟨2⟩, 1⟩ [],
  .connect ⟨⟨0⟩, 0⟩ ⟨⟨2⟩, 0⟩ []]

/-- With whatever fuel, the event neither succeeds nor fails. -/
theorem betting_panics : ∃ graph,
    Edit.betting.foldlM (Edit.apply Registry.builtin) .empty = .ok graph ∧
      graph.IsScript .builtin ∧ (∀ id, ¬graph.HasKind id (.builtin Catalog.repeatWhile.id)) ∧
      graph.Straight ∧ (Context.ofTrigger {}).calls = [none] ∧
      (Context.ofTrigger {}).draws.Documented ∧ graph.PanicsAt ⟨1⟩ .nan 1 ∧
      ∀ fuel, 6 ≤ fuel → (((graph.machine .builtin 4).emit fuel ⟨0⟩).runAt (.ofTrigger {})).1 =
        .error (.panicked ⟨1⟩ .nan 1) := by
  let rank (id : NodeId) : Nat := id.index
  have facts : ∃ graph ∈ (Edit.betting.foldlM (Edit.apply Registry.builtin) .empty).toOption,
      (∀ entry ∈ graph.live, entry.2.kind ≠ .builtin Catalog.repeatWhile.id) ∧
      (∀ entry ∈ graph.live, ∀ output ∈ entry.2.outputs, output.port.isSignal = true →
        ∀ target ∈ output.targets, rank entry.1 < rank target.node) ∧
      (Program.compile graph .builtin).entries.root? ⟨0⟩ = some ⟨⟨0⟩, 0⟩ ∧
      (((graph.machine .builtin 4).emit 6 ⟨0⟩).runAt (.ofTrigger {})).1 =
        .error (.panicked ⟨1⟩ .nan 1) := by decide +kernel
  obtain ⟨graph, built, others, rises, begins, panicked⟩ := facts
  have built := Accepted.toOption_eq_some_iff.1 built
  have script : graph.IsScript .builtin :=
    Reached.foldlM rfl (.first (.inl rfl)) (fun _ _ _ => trivial) built
  have unrepeated (id : NodeId) : ¬graph.HasKind id (.builtin Catalog.repeatWhile.id) := by
    intro has
    obtain ⟨node, here, kind⟩ := Graph.hasKind_iff.1 has
    exact others (id, node) (Graph.mem_live.2 here) kind
  have documented : (Context.ofTrigger {}).draws.Documented := Draws.spread_documented 0
  have runs (fuel : Nat) : (graph.machine .builtin 4).emit fuel ⟨0⟩ =
      (graph.machine .builtin 4).fire fuel ⟨⟨0⟩, 0⟩ := by
    unfold Machine.emit
    rw [show (graph.machine .builtin 4).program.entries.root? ⟨0⟩ = some ⟨⟨0⟩, 0⟩ from begins]
  rw [runs] at panicked
  obtain ⟨-, allowed⟩ := (Graph.parts_panicOnly graph 4 6).fire ⟨⟨0⟩, 0⟩ _ documented
  refine ⟨graph, built, script, unrepeated, Graph.straight_of_rank rises, rfl, documented,
    allowed _ _ _ panicked, fun fuel enough => ?_⟩
  rw [runs]
  have follows : Run.Follows (· = .outOfFuel) ((graph.machine .builtin 4).fire 6 ⟨⟨0⟩, 0⟩)
      ((graph.machine .builtin 4).fire fuel ⟨⟨0⟩, 0⟩) :=
    (graph.parts_follow_more enough).fire _ trivial
  exact (congrArg Prod.fst (follows.of_ended (by simp [panicked]))).trans panicked

end NodeScript
