import NodeScript.Proofs.Run.Isolated
import NodeScript.Proofs.Run.Respected

/-!
What a value is computed from. A basin is a set of nodes with all nodes that they read. Two contexts
that are the same for the nodes of a basin in each of their frames cannot be told apart by what is
computed there. Main statement: `Machine.parts_local`.
-/

set_option autoImplicit false
set_option relaxedAutoImplicit false

namespace NodeScript

open Run Relation

namespace Graph

variable {graph : Graph}

def FedBy (graph : Graph) (target : InputRef) (other : NodeId) : Prop :=
  ∃ input wire, graph.input? target = some input ∧ input.port.isSignal = false ∧
    wire ∈ input.wires ∧ wire.source.node = other

theorem reads_iff_fedBy {id other : NodeId} :
    graph.Reads id other ↔ ∃ slot, graph.FedBy ⟨id, slot⟩ other := reads_iff

def HoldsVariable (graph : Graph) (id : NodeId) : Prop :=
  ∃ type ∈ Catalog.variableTypes, graph.HasKind id (.builtin type)

/-- Nodes, with all nodes that they read. -/
structure Basin (graph : Graph) where
  nodes : Set NodeId
  closed : ∀ {id other}, id ∈ nodes → graph.Reads id other → other ∈ nodes

namespace Basin

/-- All nodes. -/
def all (graph : Graph) : graph.Basin := ⟨Set.univ, fun _ _ => trivial⟩

/-- The nodes that a node reads, and those that these read. -/
def below (graph : Graph) (id : NodeId) : graph.Basin :=
  ⟨{other | TransGen graph.Reads id other}, fun path reads => path.tail reads⟩

/-- The nodes that an input is computed from. -/
def above (graph : Graph) (target : InputRef) : graph.Basin :=
  ⟨{id | ∃ first, graph.FedBy target first ∧ ReflTransGen graph.Reads first id},
    fun ⟨first, fed, path⟩ reads => ⟨first, fed, path.tail reads⟩⟩

end Basin

end Graph

/-- Two frames are the same for the nodes of a basin. -/
structure Frame.SameIn {graph : Graph} (basin : graph.Basin) (frame frame' : Frame) : Prop where
  call : frame'.call = frame.call
  results : ∀ id ∈ basin.nodes, ∀ f, graph.HasKind id (.call f) →
    frame'.callResults.lookup id = frame.callResults.lookup id
  vars : ∀ id ∈ basin.nodes, graph.HoldsVariable id → frame'.vars = frame.vars

namespace Graph

/-- Frames are the same, each in a basin of its own, in which there is what the call of the frame
above it reads. The outermost one is that of no call. -/
inductive SameFrames (graph : Graph) : List graph.Basin → List Frame → List Frame → Prop where
  | outermost {basin : graph.Basin} {frame frame' : Frame} (same : frame.SameIn basin frame')
      (ground : frame.call = none) : SameFrames graph [basin] [frame] [frame']
  | inner {basin below : graph.Basin} {basins : List graph.Basin} {frame frame' : Frame}
      {callers callers' : List Frame} (same : frame.SameIn basin frame')
      (arguments : ∀ call ∈ frame.call, ∀ other, graph.Reads call other → other ∈ below.nodes)
      (rest : SameFrames graph (below :: basins) callers callers') :
      SameFrames graph (basin :: below :: basins) (frame :: callers) (frame' :: callers')

end Graph

/-- Two contexts are the same in basins, one for each frame. -/
structure Context.SameIn {graph : Graph} (basins : List graph.Basin) (ctx ctx' : Context) :
    Prop where
  trigger : ctx'.trigger = ctx.trigger
  frames : graph.SameFrames basins ctx.frames ctx'.frames

variable {graph : Graph} {basin below : graph.Basin} {basins : List graph.Basin}

theorem Frame.SameIn.refl (basin : graph.Basin) (frame : Frame) : frame.SameIn basin frame := by
  refine ⟨rfl, ?_, ?_⟩
  · intro _ _ _ _
    rfl
  · intro _ _ _
    rfl

namespace Graph.SameFrames

variable {frames frames' : List Frame}

theorem length (same : graph.SameFrames basins frames frames') :
    frames'.length = frames.length := by
  induction same with
  | outermost => rfl
  | inner _ _ _ ih => simp [ih]

theorem of_top {frame frame' : Frame} (same : frame.SameIn basin frame') (callers : List Frame)
    (ground : ((frame :: callers).map (·.call)).getLast? = some none) :
    graph.SameFrames (basin :: callers.map fun _ => .all graph) (frame :: callers)
      (frame' :: callers) := by
  induction callers generalizing basin frame frame' with
  | nil => exact .outermost same (by simpa using ground)
  | cons caller callers ih =>
    rw [List.map_cons, List.map_cons, List.getLast?_cons_cons] at ground
    exact .inner same (fun _ _ _ _ => trivial) (ih (.refl _ caller) ground)

end Graph.SameFrames

namespace Context.SameIn

variable {ctx ctx' : Context}

theorem top (same : ctx.SameIn (basin :: basins) ctx') : ctx.top.SameIn basin ctx'.top := by
  obtain ⟨trigger, top, callers, messages, steps, draws⟩ := ctx
  obtain ⟨trigger', top', callers', messages', steps', draws'⟩ := ctx'
  cases same.frames with
  | outermost same _ => exact same
  | inner same _ _ => exact same

theorem depth (same : ctx.SameIn basins ctx') : ctx'.depth = ctx.depth := same.frames.length

/-- What is no part of the frames does not matter. -/
theorem change {steps steps' : Nat} (same : ctx.SameIn basins ctx') :
    SameIn basins { ctx with steps } { ctx' with steps := steps' } := by
  exact ⟨same.trigger, same.frames⟩

/-- A call of one of the nodes opens a frame in which every node sees the same. -/
theorem push (same : ctx.SameIn (basin :: basins) ctx') {call : NodeId}
    (mem : call ∈ basin.nodes) :
    SameIn (.all graph :: basin :: basins) (ctx.push { call := some call })
      (ctx'.push { call := some call }) := by
  refine ⟨same.trigger, .inner (.refl _ _) (fun call' here other reads => ?_) same.frames⟩
  obtain rfl := Option.some.inj here
  exact basin.closed mem reads

theorem arguments (same : ctx.SameIn (basin :: basins) ctx') {call : NodeId}
    (opened : ctx.top.call = some call) :
    ∃ below rest, basins = below :: rest ∧
      ∀ other, graph.Reads call other → other ∈ below.nodes := by
  obtain ⟨trigger, top, callers, messages, steps, draws⟩ := ctx
  obtain ⟨trigger', top', callers', messages', steps', draws'⟩ := ctx'
  cases same.frames with
  | outermost _ ground => exact absurd (opened.symm.trans ground) (by simp)
  | inner _ arguments _ => exact ⟨_, _, rfl, arguments call opened⟩

theorem pop (same : ctx.SameIn (basin :: below :: basins) ctx') :
    SameIn (below :: basins) ctx.pop.2 ctx'.pop.2 := by
  obtain ⟨trigger, top, callers, messages, steps, draws⟩ := ctx
  obtain ⟨trigger', top', callers', messages', steps', draws'⟩ := ctx'
  obtain ⟨triggers, frames⟩ := same
  cases frames with
  | inner _ _ rest =>
    cases rest with
    | outermost same ground => exact ⟨triggers, .outermost same ground⟩
    | inner same arguments rest => exact ⟨triggers, .inner same arguments rest⟩

theorem reopen (same : ctx.SameIn (basin :: below :: basins) ctx') {after after' : Context}
    (left : after.SameIn (below :: basins) after') :
    SameIn (basin :: below :: basins) (after.push ctx.pop.1) (after'.push ctx'.pop.1) := by
  obtain ⟨trigger, top, callers, messages, steps, draws⟩ := ctx
  obtain ⟨trigger', top', callers', messages', steps', draws'⟩ := ctx'
  obtain ⟨triggers, frames⟩ := same
  cases frames with
  | inner same arguments rest =>
    cases rest with
    | outermost => exact ⟨left.trigger, .inner same arguments left.frames⟩
    | inner => exact ⟨left.trigger, .inner same arguments left.frames⟩

end Context.SameIn

namespace Machine

/-- Computes a value in a frame of its own for a call. -/
def inCall (machine : Machine) (call : NodeId) (run : Run Value) : Run Value :=
  machine.openCall call >>= fun _ => leaving run >>= fun outcome => liftExcept outcome.1

theorem runAt_inCall (machine : Machine) (call : NodeId) (run : Run Value) (ctx : Context) :
    (machine.inCall call run).runAt ctx =
      if machine.maxCallDepth < ctx.depth then
        (.error (.fault (.callDepthExceeded machine.maxCallDepth)), ctx)
      else
        let after := run.runAt (ctx.push { call := some call })
        (after.1, after.2.pop.2) := by
  rw [inCall, openCall_bind, runAt_bind, runAt_get]
  dsimp only
  split
  · rfl
  · rw [runAt_bind, runAt_modify]
    dsimp only
    rw [runAt_bind, runAt_leaving]
    exact runAt_liftExcept _ _

theorem callOutput_eq (machine : Machine) (parts : Parts) (source : OutputRef) (f : FunctionId) :
    machine.callOutput parts source f = (get : Run Context) >>= fun ctx =>
      match (ctx.top.callResults.lookup source.node).bind (·[source.slot]?.join) with
      | some value => return value
      | none => machine.boundaryNodes source.node f >>= fun nodes =>
          machine.inCall source.node (parts.pull ⟨nodes.2, source.slot⟩) := rfl

/-- The parts of a run that read cannot tell contexts apart that are the same where they read. -/
structure Parts.Local (graph : Graph) (parts : Parts) : Prop where
  pull : ∀ (basin : graph.Basin) (basins : List graph.Basin) (target : InputRef),
    (∀ other, graph.FedBy target other → other ∈ basin.nodes) →
    Respects (Context.SameIn (basin :: basins)) (parts.pull target)
  evaluate : ∀ (basin : graph.Basin) (basins : List graph.Basin) (source : OutputRef),
    source.node ∈ basin.nodes → Respects (Context.SameIn (basin :: basins)) (parts.evaluate source)
  /-- No value is given at an output of signals. -/
  signal : ∀ (related : Context → Context → Prop) (source : OutputRef) (output : Output),
    graph.output? source = some output → output.port.isSignal = true →
    Respects related (parts.evaluate source)

variable {machine : Machine} {parts : Parts} {limit fuel : Nat}

theorem respects_inCall {call : NodeId} (mem : call ∈ basin.nodes) {run : Run Value}
    (inner : Respects (Context.SameIn (.all graph :: basin :: basins)) run) :
    Respects (Context.SameIn (basin :: basins)) (machine.inCall call run) := by
  intro ctx ctx' same
  obtain ⟨result, left⟩ := inner _ _ (same.push mem)
  rw [runAt_inCall, runAt_inCall, same.depth]
  split
  · exact ⟨rfl, same⟩
  · exact ⟨result, left.pop⟩

theorem respects_argument {source : OutputRef} {f : FunctionId}
    (caller : ∀ below rest call, basins = below :: rest →
      (∀ other, graph.Reads call other → other ∈ below.nodes) →
      Respects (Context.SameIn (below :: rest)) (parts.pull ⟨call, source.slot⟩)) :
    Respects (Context.SameIn (basin :: basins)) (machine.currentCall source.node f >>= fun call =>
      inCaller (parts.pull ⟨call, source.slot⟩)) := by
  intro ctx ctx' same
  rw [runAt_bind, runAt_bind, runAt_currentCall, runAt_currentCall, same.top.call]
  cases opened : ctx.top.call with
  | none => exact ⟨rfl, same⟩
  | some call =>
    dsimp only
    by_cases kind : (machine.graph.node? call).any (·.kind == .call f) = true
    · obtain ⟨below, rest, rfl, arguments⟩ := same.arguments opened
      obtain ⟨result, left⟩ := caller below rest call rfl arguments _ _ same.pop
      simp only [kind, if_true, runAt_inCaller]
      exact ⟨result, same.reopen left⟩
    · simp only [kind]
      exact ⟨rfl, same⟩

section

variable (wired : graph.Wired) (undrawn : ∀ id, ¬graph.HasKind id (.builtin Catalog.random.id))
  (localTo : parts.Local graph)
include localTo

theorem respects_callOutput {source : OutputRef} (mem : source.node ∈ basin.nodes) {f : FunctionId}
    (calls : graph.HasKind source.node (.call f)) :
    Respects (Context.SameIn (basin :: basins))
      ((graph.machine .builtin limit).callOutput parts source f) := by
  rw [callOutput_eq]
  refine .looking (fun ctx ctx' same => ?_) fun ctx => ?_
  · rw [same.top.results source.node mem f calls]
  · split
    · exact .pure _
    · refine .bind (fun ctx ctx' same => ?_) fun nodes => ?_
      · unfold boundaryNodes
        split <;> exact ⟨rfl, same⟩
      · exact respects_inCall mem (localTo.pull _ _ _ fun _ _ => trivial)

theorem respects_construct {source : OutputRef} (mem : source.node ∈ basin.nodes) (s : StructId) :
    Respects (Context.SameIn (basin :: basins))
      ((graph.machine .builtin limit).construct parts source s) := by
  rw [construct_eq]
  split
  · exact .fail _
  · refine (Respects.mapM fun item => ?_).bind fun _ => .pure _
    exact (localTo.pull _ _ _ fun other fed =>
      basin.closed mem (Graph.reads_iff_fedBy.2 ⟨item.2, fed⟩)).bind fun _ => .pure _

include undrawn

theorem respects_builtin {id : NodeId} (mem : id ∈ basin.nodes) (config : Json) (slot : Nat) :
    Respects (Context.SameIn (basin :: basins))
      ((graph.machine .builtin limit).behavior id >>= fun behavior =>
        behavior.evaluate ((graph.machine .builtin limit).scope fuel parts id config) slot) := by
  unfold Machine.behavior
  split
  · rename_i behavior found
    obtain ⟨name, kind, registered⟩ := Graph.hasKind_machine found
    obtain ⟨type, listed, rfl⟩ := Option.map_eq_some_iff.1 registered
    obtain ⟨member, rfl⟩ := Registry.mem_of_find? listed
    refine Catalog.respects_evaluate (fun slot => ?_) member (fun random => undrawn id ?_)
      (fun ctx ctx' same => same.trigger) (fun holds => ?_) slot
    · exact localTo.pull _ _ _ fun other fed =>
        basin.closed mem (Graph.reads_iff_fedBy.2 ⟨slot, fed⟩)
    · rw [← random]
      exact kind
    · exact Respects.fetch? fun ctx ctx' same => same.top.vars id mem ⟨type.id, holds, kind⟩
  · exact .stopped _ _

theorem respects_evaluateWith {source : OutputRef} (mem : source.node ∈ basin.nodes) :
    Respects (Context.SameIn (basin :: basins))
      ((graph.machine .builtin limit).evaluateWith fuel parts source) := by
  rw [evaluateWith_eq]
  split
  · exact .fail _
  · rename_i node here
    split
    · exact .fail _
    · refine (Respects.changing fun ctx ctx' same => same.change).bind fun _ => ?_
      split
      · exact respects_builtin undrawn localTo mem _ _
      · rename_i f kind
        exact respects_callOutput localTo mem (Graph.hasKind_iff.2 ⟨node, here, kind⟩)
      · refine respects_argument fun below rest call split reads => ?_
        exact localTo.pull _ _ _ fun other fed =>
          reads other (Graph.reads_iff_fedBy.2 ⟨source.slot, fed⟩)
      · exact respects_construct localTo mem _
      · exact .fail _

include wired
omit undrawn

theorem respects_pullWith {target : InputRef}
    (fed : ∀ other, graph.FedBy target other → other ∈ basin.nodes) :
    Respects (Context.SameIn (basin :: basins))
      ((graph.machine .builtin limit).pullWith parts target) := by
  rw [pullWith_eq]
  split
  · exact .fail _
  · rename_i input found
    have found : graph.input? target = some input := found
    split
    · rename_i source origin
      obtain ⟨wire, first, rfl⟩ := Option.map_eq_some_iff.1 origin
      have member : wire ∈ input.wires := List.mem_of_head? first
      obtain ⟨output, out, -, same⟩ := wired.source found member
      cases control : input.port.isSignal with
      | true =>
        exact localTo.signal _ _ output out ((DataType.isSignal_of_same same).trans control)
      | false =>
        exact localTo.evaluate _ _ _ (fed _ ⟨input, wire, found, control, member, rfl⟩)
    · split
      · exact .pure _
      · exact .fail _

end

/-- What is computed of the nodes of a basin is the same in contexts that are the same there. -/
theorem parts_local (wired : graph.Wired)
    (undrawn : ∀ id, ¬graph.HasKind id (.builtin Catalog.random.id)) (fuel : Nat) :
    ((graph.machine .builtin limit).parts fuel).Local graph := by
  induction fuel with
  | zero => exact ⟨fun _ _ _ _ => .throw _, fun _ _ _ _ => .throw _, fun _ _ _ _ _ => .throw _⟩
  | succ fuel ih =>
    refine ⟨fun _ _ _ fed => respects_pullWith wired ih fed,
      fun _ _ _ mem => respects_evaluateWith undrawn ih mem,
      fun related source output out signal => ?_⟩
    show Respects related ((graph.machine .builtin limit).evaluateWith fuel _ source)
    obtain ⟨node, here, place⟩ := Option.bind_eq_some_iff.1 out
    rw [evaluateWith_eq, show (graph.machine .builtin limit).graph.node? source.node = some node
      from here]
    simp only [place, Option.all_some, signal, if_true]
    exact .fail _

end Machine

end NodeScript
