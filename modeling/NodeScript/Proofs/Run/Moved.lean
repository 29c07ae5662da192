import Mathlib.Data.List.Forall2
import NodeScript.Proofs.Catalog.Made
import NodeScript.Proofs.Run.Follows

/-!
Runs that do the same with nodes at other addresses. `Run.Moved` says of two runs that they lead
from contexts that are the same but for the addresses in them to such contexts, and come to related
ends; a fault may name only nodes that have another address. Main statements: what is made of such
runs is such a run, and so nodes of the catalog do the same wherever they are
(`Scope.Made.moved`).
-/

set_option autoImplicit false
set_option relaxedAutoImplicit false

namespace NodeScript

/-- Other addresses for nodes, no two of which get the same one, and the outputs through which
control may leave the nodes. -/
structure Moving where
  address? : NodeId → Option NodeId
  injective : ∀ {a b c}, address? a = some c → address? b = some c → a = b
  leaves : NodeId → Nat → Prop

/-- The same output of a node that has another address. -/
def Moving.Output (moving : Moving) (source source' : OutputRef) : Prop :=
  moving.address? source.node = some source'.node ∧ source.slot = source'.slot

/-- The same input of a node that has another address. -/
def Moving.Input (moving : Moving) (target target' : InputRef) : Prop :=
  moving.address? target.node = some target'.node ∧ target.slot = target'.slot

theorem Moving.Output.unique {moving : Moving} {source source' other : OutputRef}
    (same : moving.Output source source') (same' : moving.Output source other) :
    source' = other := by
  obtain ⟨node, slot⟩ := source'
  obtain ⟨node', slot'⟩ := other
  obtain rfl : node = node' := Option.some.inj (same.1.symm.trans same'.1)
  obtain rfl : slot = slot' := same.2.symm.trans same'.2
  rfl

theorem Moving.Output.injective {moving : Moving} {source source' other : OutputRef}
    (same : moving.Output source source') (same' : moving.Output other source') :
    source = other := by
  obtain ⟨node, slot⟩ := source
  obtain ⟨node', slot'⟩ := other
  obtain rfl : node = node' := moving.injective same.1 same'.1
  obtain rfl : slot = slot' := same.2.trans same'.2.symm
  rfl

def RunError.moved? (address? : NodeId → Option NodeId) : RunError → Option RunError
  | missingValue node input => (address? node).map (missingValue · input)
  | unsetVariable name => some (unsetVariable name)
  | missingTriggerData what => some (missingTriggerData what)
  | typeMismatch node expected found => (address? node).map (typeMismatch · expected found)
  | outsideFunction boundary => (address? boundary).map outsideFunction
  | callDepthExceeded limit => some (callDepthExceeded limit)
  | unknownEntryPoint entry => some (unknownEntryPoint entry)
  | unknownNode node => (address? node).map unknownNode
  | notAValueOutput node slot => (address? node).map (notAValueOutput · slot)
  | notASignalInput node slot => (address? node).map (notASignalInput · slot)
  | nodeFault node what => (address? node).map (nodeFault · what)
  | invalidConfig node why => (address? node).map (invalidConfig · why)

/-- Two runs stop for the same reason. -/
inductive Stop.Moved (address? : NodeId → Option NodeId) : Stop → Stop → Prop where
  | fault {error error' : RunError} (same : error.moved? address? = some error') :
      Moved address? (.fault error) (.fault error')
  | outOfFuel : Moved address? .outOfFuel .outOfFuel
  | panicked {node node' : NodeId} (address : address? node = some node') (low high : Double) :
      Moved address? (.panicked node low high) (.panicked node' low high)

/-- Entries of the same nodes, in the same order. -/
def Moving.Entries {α : Type} (moving : Moving) : List (NodeId × α) → List (NodeId × α) → Prop :=
  List.Forall₂ fun entry entry' => moving.address? entry.1 = some entry'.1 ∧ entry.2 = entry'.2

structure Frame.Moved (moving : Moving) (frame frame' : Frame) : Prop where
  call : Option.Rel (fun id id' => moving.address? id = some id') frame.call frame'.call
  vars : frame.vars = frame'.vars
  returned : frame.returned = frame'.returned
  results : frame.results = frame'.results
  callResults : moving.Entries frame.callResults frame'.callResults
  leaves : ∀ {call exit}, frame.call = some call → frame.returned = some exit →
    moving.leaves call exit

/-- Two contexts are the same but for the addresses, and the open calls are those of the stack, the
outermost frame being that of no call. -/
structure Context.Moved (moving : Moving) (stack : List (Option NodeId))
    (ctx ctx' : Context) : Prop where
  calls : ctx.frames.map (·.call) = stack
  ground : stack.getLast? = some none
  frames : List.Forall₂ (Frame.Moved moving) ctx.frames ctx'.frames
  trigger : ctx.trigger = ctx'.trigger
  messages : ctx.messages = ctx'.messages
  steps : ctx.steps = ctx'.steps
  draws : ctx.draws = ctx'.draws

variable {moving : Moving} {stack : List (Option NodeId)}

namespace Moving.Entries

variable {α : Type} {entries entries' : List (NodeId × α)} {id id' : NodeId}

theorem same_iff {other other' : NodeId} (address : moving.address? id = some id')
    (address' : moving.address? other = some other') : id = other ↔ id' = other' := by
  constructor
  · rintro rfl
    exact Option.some.inj (address.symm.trans address')
  · rintro rfl
    exact moving.injective address address'

theorem lookup_eq (moved : moving.Entries entries entries')
    (address : moving.address? id = some id') : entries.lookup id = entries'.lookup id' := by
  induction moved with
  | nil => rfl
  | @cons entry entry' entries entries' here _ ih =>
    obtain ⟨other, a⟩ := entry
    obtain ⟨other', a'⟩ := entry'
    obtain rfl : a = a' := here.2
    have same := same_iff address here.1
    by_cases found : id = other
    · rw [List.lookup_cons, List.lookup_cons, beq_iff_eq.2 found, beq_iff_eq.2 (same.1 found)]
    · rw [List.lookup_cons, List.lookup_cons, beq_eq_false_iff_ne.2 found,
        beq_eq_false_iff_ne.2 (found ∘ same.2), ih]

theorem put (moved : moving.Entries entries entries')
    (address : moving.address? id = some id') (value : α) :
    moving.Entries (Assoc.put id value entries) (Assoc.put id' value entries') := by
  induction moved with
  | nil => exact .cons ⟨address, rfl⟩ .nil
  | @cons entry entry' entries entries' here rest ih =>
    obtain ⟨other, a⟩ := entry
    obtain ⟨other', a'⟩ := entry'
    have same := same_iff here.1 address
    unfold Assoc.put
    by_cases found : other = id
    · rw [if_pos found, if_pos (same.1 found)]
      exact .cons ⟨address, rfl⟩ rest
    · rw [if_neg found, if_neg (found ∘ same.2)]
      exact .cons here ih

end Moving.Entries

theorem Frame.moved_open {call call' : Option NodeId}
    (address : Option.Rel (fun id id' => moving.address? id = some id') call call') :
    ({ call } : Frame).Moved moving { call := call' } where
  call := address
  vars := rfl
  returned := rfl
  results := rfl
  callResults := .nil
  leaves _ returned := by simp at returned

namespace Context.Moved

variable {ctx ctx' after after' : Context}

/-- Contexts from which runs begin. -/
theorem start (moving : Moving) (trigger : Trigger) (draws : Draws) :
    (ofTrigger trigger draws).Moved moving [none] (ofTrigger trigger draws) where
  calls := rfl
  ground := rfl
  frames := .cons (Frame.moved_open .none) .nil
  trigger := rfl
  messages := rfl
  steps := rfl
  draws := rfl

theorem top (moved : ctx.Moved moving stack ctx') : ctx.top.Moved moving ctx'.top :=
  (List.forall₂_cons.1 moved.frames).1

theorem callers (moved : ctx.Moved moving stack ctx') :
    List.Forall₂ (Frame.Moved moving) ctx.callers ctx'.callers :=
  (List.forall₂_cons.1 moved.frames).2

theorem depth (moved : ctx.Moved moving stack ctx') : ctx.depth = ctx'.depth := by
  rw [Context.depth, Context.depth, moved.callers.length_eq]

/-- What the innermost frames give way to. -/
theorem change (moved : ctx.Moved moving stack ctx') {frame frame' : Frame}
    (call : frame.call = ctx.top.call) (same : frame.Moved moving frame') :
    ({ ctx with top := frame } : Context).Moved moving stack { ctx' with top := frame' } where
  calls := by
    rw [← moved.calls, Context.frames, Context.frames, List.map_cons, List.map_cons, call]
  ground := moved.ground
  frames := .cons same moved.callers
  trigger := moved.trigger
  messages := moved.messages
  steps := moved.steps
  draws := moved.draws

theorem push (moved : ctx.Moved moving stack ctx') {frame frame' : Frame}
    (same : frame.Moved moving frame') :
    (ctx.push frame).Moved moving (frame.call :: stack) (ctx'.push frame') where
  calls := by
    rw [← moved.calls]
    rfl
  ground := by
    have ground := moved.ground
    cases stack with
    | nil => simp at ground
    | cons call rest => rw [List.getLast?_cons_cons, ground]
  frames := .cons same moved.frames
  trigger := moved.trigger
  messages := moved.messages
  steps := moved.steps
  draws := moved.draws

/-- The frames of a call are closed. -/
theorem pop {call : NodeId} (moved : ctx.Moved moving (some call :: stack) ctx') :
    ctx.pop.1.call = some call ∧ ctx.pop.1.Moved moving ctx'.pop.1 ∧
      ctx.pop.2.Moved moving stack ctx'.pop.2 := by
  obtain ⟨calls, ground, frames, trigger, messages, steps, draws⟩ := moved
  obtain ⟨given, frame, callers, sent, made, random⟩ := ctx
  obtain ⟨given', frame', callers', sent', made', random'⟩ := ctx'
  obtain ⟨top, frames⟩ := List.forall₂_cons.1 frames
  obtain ⟨called, below⟩ := List.cons.inj calls
  cases frames with
  | nil =>
    obtain rfl : stack = [] := below.symm
    simp at ground
  | @cons caller caller' callers callers' here rest =>
    refine ⟨called, top, below, ?_, .cons here rest, trigger, messages, steps, draws⟩
    obtain rfl := below
    rwa [List.map_cons, List.getLast?_cons_cons] at ground

private theorem vars_getLastD {frame frame' : Frame} {callers callers' : List Frame}
    (top : frame.Moved moving frame')
    (below : List.Forall₂ (Frame.Moved moving) callers callers') :
    (callers.getLastD frame).vars = (callers'.getLastD frame').vars := by
  induction below generalizing frame frame' with
  | nil => exact top.vars
  | cons here _ ih =>
    rw [List.getLastD_cons, List.getLastD_cons]
    exact ih here

theorem report (moved : ctx.Moved moving stack ctx') : ctx.report = ctx'.report := by
  have outermost : ctx.outermost.vars = ctx'.outermost.vars := vars_getLastD moved.top moved.callers
  rw [Context.report, Context.report, moved.trigger, moved.messages, moved.steps,
    Frame.named, Frame.named, outermost]

end Context.Moved

namespace Run

variable {α α' β β' : Type}

/-- Two runs come to related ends. -/
inductive EndsAlike (address? : NodeId → Option NodeId) (rel : α → α' → Prop) :
    Except Stop α → Except Stop α' → Prop where
  | ok {a : α} {a' : α'} (same : rel a a') : EndsAlike address? rel (.ok a) (.ok a')
  | error {stop stop' : Stop} (same : stop.Moved address? stop') :
      EndsAlike address? rel (.error stop) (.error stop')

/-- Two runs lead from contexts that are the same but for the addresses to such contexts with the
same open calls, and come to related ends. -/
def Moved (moving : Moving) (stack : List (Option NodeId)) (rel : α → α' → Prop)
    (run : Run α) (run' : Run α') : Prop :=
  ∀ ctx ctx', ctx.Moved moving stack ctx' →
    EndsAlike moving.address? rel (run.runAt ctx).1 (run'.runAt ctx').1 ∧
      (run.runAt ctx).2.Moved moving stack (run'.runAt ctx').2

namespace Moved

variable {rel : α → α' → Prop} {rel' : β → β' → Prop} {run : Run α} {run' : Run α'}

theorem pure {a : α} {a' : α'} (same : rel a a') :
    Moved moving stack rel (Pure.pure a) (Pure.pure a') := by
  intro _ _ moved
  exact ⟨.ok same, moved⟩

theorem throw {stop stop' : Stop} (same : stop.Moved moving.address? stop') :
    Moved moving stack rel (throw stop) (throw stop') := by
  intro _ _ moved
  exact ⟨.error same, moved⟩

theorem fail {error error' : RunError} (same : error.moved? moving.address? = some error') :
    Moved moving stack rel (fail error) (fail error') := throw (.fault same)

theorem bind {next : α → Run β} {next' : α' → Run β'} (first : Moved moving stack rel run run')
    (rest : ∀ a a', rel a a' → Moved moving stack rel' (next a) (next' a')) :
    Moved moving stack rel' (run >>= next) (run' >>= next') := by
  intro ctx ctx' moved
  have here := first ctx ctx' moved
  rw [runAt_bind, runAt_bind]
  generalize run.runAt ctx = outcome at here ⊢
  generalize run'.runAt ctx' = outcome' at here ⊢
  obtain ⟨result, after⟩ := outcome
  obtain ⟨result', after'⟩ := outcome'
  obtain ⟨ends, moved⟩ := here
  cases ends with
  | ok same => exact rest _ _ same _ _ moved
  | error same => exact ⟨.error same, moved⟩

/-- A part that looks at the context before it goes on. -/
theorem looking {next : Context → Run β} {next' : Context → Run β'}
    (rest : ∀ ctx ctx', ctx.Moved moving stack ctx' →
      Moved moving stack rel' (next ctx) (next' ctx')) :
    Moved moving stack rel' ((get : Run Context) >>= next) ((get : Run Context) >>= next') := by
  have first : Moved moving stack (fun ctx ctx' => ctx.Moved moving stack ctx') (get : Run Context)
    (get : Run Context) := fun _ _ moved => ⟨.ok moved, moved⟩
  exact first.bind rest

theorem changing {change change' : Context → Context}
    (keeps : ∀ ctx ctx', ctx.Moved moving stack ctx' →
      (change ctx).Moved moving stack (change' ctx')) :
    Moved moving stack Eq (modify change : Run Unit) (modify change' : Run Unit) := by
  intro ctx ctx' moved
  exact ⟨.ok rfl, keeps ctx ctx' moved⟩

theorem and {post : α → Prop} (moved : Moved moving stack rel run run')
    (gives : ∀ ctx a, (run.runAt ctx).1 = .ok a → post a) :
    Moved moving stack (fun a a' => rel a a' ∧ post a) run run' := by
  intro ctx ctx' same
  have here := moved ctx ctx' same
  refine ⟨?_, here.2⟩
  generalize done : (run.runAt ctx).1 = result at here
  generalize (run'.runAt ctx').1 = result' at here ⊢
  cases here.1 with
  | ok same => exact .ok ⟨same, gives ctx _ done⟩
  | error same => exact .error same

/-- The outcome of a part as a part of a run. -/
theorem liftExcept {result : Except Stop α} {result' : Except Stop α'}
    (same : EndsAlike moving.address? rel result result') :
    Moved moving stack rel (liftExcept result) (liftExcept result') := by
  cases same with
  | ok same => exact pure same
  | error same => exact throw same

theorem orMissing {run run' : Run α} (moved : Moved moving stack Eq run run') :
    Moved moving stack Eq run.orMissing run'.orMissing := by
  intro ctx ctx' same
  have here := moved ctx ctx' same
  rw [runAt_orMissing, runAt_orMissing]
  generalize run.runAt ctx = outcome at here ⊢
  generalize run'.runAt ctx' = outcome' at here ⊢
  obtain ⟨result, left⟩ := outcome
  obtain ⟨result', left'⟩ := outcome'
  obtain ⟨ends, after⟩ := here
  dsimp only at ends ⊢
  cases ends with
  | ok same => exact ⟨.ok (congrArg some same), after⟩
  | error same =>
    cases same with
    | outOfFuel => exact ⟨.error .outOfFuel, after⟩
    | panicked address low high => exact ⟨.error (.panicked address low high), after⟩
    | @fault error error' same =>
      cases error with
      | missingValue node input =>
        obtain ⟨node', -, rfl⟩ := Option.map_eq_some_iff.1 same
        exact ⟨.ok rfl, after⟩
      | unsetVariable | missingTriggerData | callDepthExceeded | unknownEntryPoint =>
        obtain rfl := Option.some.inj same
        exact ⟨.error (.fault same), after⟩
      | _ =>
        obtain ⟨node', -, rfl⟩ := Option.map_eq_some_iff.1 same
        exact ⟨.error (.fault same), after⟩

theorem repeatWhile {condition condition' : Run Bool} {body body' : Run Unit}
    (check : Moved moving stack Eq condition condition')
    (each : Moved moving stack Eq body body') (fuel : Nat) :
    Moved moving stack Eq (repeatWhile condition body fuel)
      (repeatWhile condition' body' fuel) := by
  induction fuel with
  | zero => exact throw .outOfFuel
  | succ fuel ih =>
    rw [repeatWhile_succ, repeatWhile_succ]
    refine check.bind fun holds holds' same => ?_
    subst same
    cases holds with
    | false => exact pure rfl
    | true => exact each.bind fun _ _ _ => ih

theorem forM {ι : Type} {items : List ι} {body body' : ι → Run Unit}
    (each : ∀ a, Moved moving stack Eq (body a) (body' a)) :
    Moved moving stack Eq (items.forM body) (items.forM body') := by
  induction items with
  | nil => exact pure rfl
  | cons a items ih => exact (each a).bind fun _ _ _ => ih

theorem mapM {ι ι' : Type} {items : List ι} {items' : List ι'} {make : ι → Run α}
    {make' : ι' → Run α}
    (each : List.Forall₂ (fun a a' => Moved moving stack Eq (make a) (make' a')) items items') :
    Moved moving stack Eq (items.mapM make) (items'.mapM make') := by
  induction each with
  | nil => exact pure rfl
  | cons here _ ih =>
    rw [List.mapM_cons, List.mapM_cons]
    refine here.bind fun b b' same => ih.bind fun bs bs' rest => pure ?_
    rw [same, rest]

/-- A part that runs in the frame of the caller. -/
theorem inCaller {call : NodeId} (moved : Moved moving stack rel run run') :
    Moved moving (some call :: stack) rel (Machine.inCaller run) (Machine.inCaller run') := by
  intro ctx ctx' same
  obtain ⟨opened, top, below⟩ := same.pop
  obtain ⟨ends, after⟩ := moved _ _ below
  rw [runAt_inCaller, runAt_inCaller]
  refine ⟨ends, ?_⟩
  rw [← opened]
  exact after.push top

/-- What is done in a call and after it. -/
theorem leaving {call call' : NodeId} {next : Except Stop α × Frame → Run β}
    {next' : Except Stop α' × Frame → Run β'} (address : moving.address? call = some call')
    (body : Moved moving (some call :: stack) rel run run')
    (rest : ∀ result result' frame frame', EndsAlike moving.address? rel result result' →
      frame.call = some call → frame.Moved moving frame' →
        Moved moving stack rel' (next (result, frame)) (next' (result', frame'))) :
    Moved moving stack rel'
      (modify (Context.push { call := some call }) >>= fun _ => Machine.leaving run >>= next)
      (modify (Context.push { call := some call' }) >>= fun _ =>
        Machine.leaving run' >>= next') := by
  intro ctx ctx' same
  have opened := same.push (Frame.moved_open (.some address))
  rw [runAt_bind, runAt_bind, runAt_modify, runAt_modify]
  dsimp only
  rw [runAt_bind, runAt_bind, runAt_leaving, runAt_leaving]
  obtain ⟨ends, left⟩ := body _ _ opened
  obtain ⟨called, top, below⟩ := left.pop
  exact rest _ _ _ _ ends called top _ _ below

end Moved

end Run

open Run

/-- A node sees the same, wherever it is; chains matter only to a node that acts. -/
structure Scope.Moved (moving : Moving) (stack : List (Option NodeId)) (acts : Prop)
    (scope scope' : Scope) : Prop where
  node : moving.address? scope.node = some scope'.node
  config : scope.config = scope'.config
  slots : scope.slots = scope'.slots
  fuel : scope.fuel = scope'.fuel
  input : ∀ slot, Run.Moved moving stack Eq (scope.input slot) (scope'.input slot)
  fire : acts → ∀ slot, Run.Moved moving stack Eq (scope.fire slot) (scope'.fire slot)

theorem Refusal.moved?_error (why : Refusal) {address? : NodeId → Option NodeId}
    {node node' : NodeId} (address : address? node = some node') :
    (why.error node).moved? address? = some (why.error node') := by
  cases why <;> simp [error, RunError.moved?, address]

theorem Scope.Made.moved {acts draws : Prop} {α : Type} {run : Scope → Run α}
    (made : Scope.Made acts draws run) {scope scope' : Scope}
    (moved : scope.Moved moving stack acts scope') :
    Run.Moved moving stack Eq (run scope) (run scope') := by
  induction made with
  | pure a => exact .pure rfl
  | refuse why => exact .fail (why.moved?_error moved.node)
  | config run each ih =>
    beta_reduce
    rw [← moved.config]
    exact ih _
  | bind first rest ihFirst ihRest =>
    refine ihFirst.bind fun a a' same => ?_
    subst same
    exact ihRest a
  | input slot => exact moved.input slot
  | slotKey index =>
    beta_reduce
    rw [Scope.slotKey, Scope.slotKey, moved.slots]
    cases scope'.slots[index]? with
    | some slot => exact .pure rfl
    | none => exact .fail (Refusal.moved?_error (.fault _) moved.node)
  | fetch? key =>
    intro ctx ctx' same
    refine ⟨.ok ?_, same⟩
    rw [same.top.vars]
  | trigger =>
    intro ctx ctx' same
    exact ⟨.ok same.trigger, same⟩
  | random drawing low high above =>
    intro ctx ctx' same
    rw [runAt_random, runAt_random, same.draws]
    refine ⟨?_, { same with draws := rfl }⟩
    cases (ctx'.draws.next low high).1 with
    | none => exact .error (.panicked moved.node low high)
    | some n => exact .ok rfl
  | orMissing acting tried ih => exact ih.orMissing
  | store acting key value =>
    refine .changing fun ctx ctx' same => same.change rfl ?_
    have top := same.top
    exact { top with vars := congrArg (Assoc.put key value) top.vars }
  | send acting recipient text =>
    refine .changing fun ctx ctx' same => ?_
    exact { same with messages := congrArg (· ++ [{ recipient, text }]) same.messages }
  | fire acting slot => exact moved.fire acting slot
  | repeatWhile acting check each ihCheck ihEach =>
    beta_reduce
    rw [moved.fuel]
    exact ihCheck.repeatWhile ihEach _
  | forM acting items each ih => exact .forM ih

end NodeScript
