import Mathlib.Data.List.Forall2
import NodeScript.DataType.Sharing
import NodeScript.Proofs.Run.Follows

/-!
Runs that keep to types. A `Typing` says which types the variables and the results of calls have;
`Run.Sound` says that a run leaves a context typed that it finds typed, whether it comes to its end
or not, that it leaves the open calls open, and that it ends with a result of a kind or with a fault
that is allowed. Main statements: what is made of sound runs is sound.
-/

set_option autoImplicit false
set_option relaxedAutoImplicit false

namespace NodeScript

namespace DataType

mutual

theorem accepts_of_same : ∀ {a b : DataType} (v : Value), a.same b = true →
    a.accepts v = b.accepts v
  | signal, b, v, h => by cases b <;> first | rfl | simp [same] at h
  | number, b, v, h => by cases b <;> first | rfl | simp [same] at h
  | text, b, v, h => by cases b <;> first | rfl | simp [same] at h
  | boolean, b, v, h => by cases b <;> first | rfl | simp [same] at h
  | player, b, v, h => by cases b <;> first | rfl | simp [same] at h
  | list a, b, v, h => by
    cases b with
    | list b =>
      cases v with
      | list items =>
        have each (item : Value) : a.accepts item = b.accepts item :=
          accepts_of_same item (by simpa [same] using h)
        rw [accepts, accepts, funext each]
      | _ => simp [accepts]
    | _ => simp [same] at h
  | struct m fs, b, v, h => by
    cases b with
    | struct n gs =>
      cases v with
      | struct name values =>
        rw [accepts, accepts]
        exact acceptsFields_of_same values (by simpa [same] using h)
      | _ => simp [accepts]
    | _ => simp [same] at h

theorem acceptsFields_of_same : ∀ {fs gs : List (String × DataType)}
    (values : List (String × Value)), sameFields fs gs = true →
    acceptsFields fs values = acceptsFields gs values
  | [], [], _, _ => rfl
  | (m, a) :: fs, (n, b) :: gs, values, h => by
    simp only [sameFields, Bool.and_eq_true, beq_iff_eq] at h
    obtain ⟨⟨rfl, types⟩, rest⟩ := h
    cases values with
    | nil => rfl
    | cons value values =>
      obtain ⟨name, v⟩ := value
      rw [acceptsFields, acceptsFields, accepts_of_same v types, acceptsFields_of_same values rest]
  | [], _ :: _, _, h => by simp [sameFields] at h
  | _ :: _, [], _, h => by simp [sameFields] at h

end

end DataType

/-- What the variables and the results of calls are used as, and which faults are allowed. -/
structure Typing where
  /-- The types that a variable is used with. -/
  var : VarKey → DataType → Prop
  /-- The types of the outputs of calls. -/
  result : NodeId → Nat → DataType → Prop
  /-- The signal outputs of calls. -/
  exit : NodeId → Nat → Prop
  fault : RunError → Prop
  agree : ∀ {key a b}, var key a → var key b → a.same b = true

variable {typing : Typing} {stack : List (Option NodeId)}

def Typing.Results (typing : Typing) (call : NodeId) (results : Results) : Prop :=
  ∀ {slot v type}, results[slot]? = some (some v) → typing.result call slot type →
    type.accepts v = true

/-- A run may stop so: for an allowed fault, or at the bound on its length. -/
def Typing.Stops (typing : Typing) (stop : Stop) : Prop :=
  ∀ error, stop = .fault error → typing.fault error

structure Frame.Typed (typing : Typing) (frame : Frame) : Prop where
  vars : ∀ {key v type}, frame.vars.lookup key = some v → typing.var key type →
    type.accepts v = true
  results : ∀ {call}, frame.call = some call → typing.Results call frame.results
  returned : ∀ {call exit}, frame.call = some call → frame.returned = some exit →
    typing.exit call exit
  callResults : ∀ {call results}, frame.callResults.lookup call = some results →
    typing.Results call results

/-- All frames are typed, and the open calls are those of the stack, the outermost frame being that
of no call. -/
structure Context.Typed (typing : Typing) (stack : List (Option NodeId)) (ctx : Context) :
    Prop where
  calls : ctx.frames.map (·.call) = stack
  ground : stack.getLast? = some none
  frames : ∀ frame ∈ ctx.frames, frame.Typed typing

theorem Frame.typed_open (typing : Typing) (call : Option NodeId) :
    ({ call } : Frame).Typed typing where
  vars found := by simp at found
  results _ := fun found => by simp at found
  returned _ found := by simp at found
  callResults found := by simp at found

theorem Context.typed_start (typing : Typing) (trigger : Trigger) (draws : Draws) :
    (ofTrigger trigger draws).Typed typing [none] where
  calls := rfl
  ground := rfl
  frames frame mem := by
    obtain rfl := List.mem_singleton.1 mem
    exact Frame.typed_open typing none

/-- What the innermost frame gives way to. -/
theorem Context.Typed.change {ctx ctx' : Context} (typed : ctx.Typed typing stack)
    (callers : ctx'.callers = ctx.callers) (call : ctx'.top.call = ctx.top.call)
    (top : ctx'.top.Typed typing) : ctx'.Typed typing stack where
  calls := by
    rw [← typed.calls, Context.frames, Context.frames, callers, List.map_cons, List.map_cons, call]
  ground := typed.ground
  frames frame mem := by
    rw [Context.frames, callers] at mem
    rcases List.mem_cons.1 mem with rfl | mem
    · exact top
    · exact typed.frames frame (List.mem_cons_of_mem _ mem)

theorem Context.Typed.push {ctx : Context} (typed : ctx.Typed typing stack) {frame : Frame}
    (top : frame.Typed typing) : (ctx.push frame).Typed typing (frame.call :: stack) where
  calls := by
    rw [← typed.calls]
    rfl
  ground := by
    have ground := typed.ground
    cases stack with
    | nil => simp at ground
    | cons call rest => rw [List.getLast?_cons_cons, ground]
  frames other mem := by
    rcases List.mem_cons.1 mem with rfl | mem
    · exact top
    · exact typed.frames other mem

/-- The frame of a call is closed. -/
theorem Context.Typed.pop {ctx : Context} {call : NodeId}
    (typed : ctx.Typed typing (some call :: stack)) :
    ctx.pop.1.call = some call ∧ ctx.pop.1.Typed typing ∧ ctx.pop.2.Typed typing stack := by
  obtain ⟨calls, ground, frames⟩ := typed
  obtain ⟨trigger, top, callers, messages, steps, draws⟩ := ctx
  simp only [Context.frames, List.map_cons, List.cons.injEq] at calls frames
  cases callers with
  | nil =>
    obtain rfl : stack = [] := calls.2.symm
    simp at ground
  | cons caller callers =>
    refine ⟨calls.1, frames top (by simp), calls.2, ?_, fun frame mem => ?_⟩
    · obtain rfl := calls.2
      rwa [List.map_cons, List.getLast?_cons_cons] at ground
    · exact frames frame (List.mem_cons_of_mem _ mem)

namespace Run

variable {α β : Type}

/-- A run leaves a typed context typed, and ends as it may. -/
def Sound (typing : Typing) (stack : List (Option NodeId)) (post : α → Prop) (run : Run α) : Prop :=
  ∀ ctx, ctx.Typed typing stack → (run.runAt ctx).2.Typed typing stack ∧
    match (run.runAt ctx).1 with
    | .ok a => post a
    | .error stop => typing.Stops stop

namespace Sound

variable {post : α → Prop} {run : Run α}

/-- What a sound run comes to. -/
theorem ends (sound : Sound typing stack post run) {ctx ctx' : Context} {result : Except Stop α}
    (typed : ctx.Typed typing stack) (done : run.runAt ctx = (result, ctx')) :
    ctx'.Typed typing stack ∧ (∀ a, result = .ok a → post a) ∧
      ∀ stop, result = .error stop → typing.Stops stop := by
  have here := sound ctx typed
  rw [done] at here
  cases result with
  | ok a =>
    refine ⟨here.1, ?_, ?_⟩
    · intro _ same
      obtain rfl := Except.ok.inj same
      exact here.2
    · simp
  | error stop =>
    refine ⟨here.1, ?_, ?_⟩
    · simp
    · intro _ same
      obtain rfl := Except.error.inj same
      exact here.2

theorem pure {a : α} (holds : post a) : Sound typing stack post (Pure.pure a) := by
  intro _ typed
  exact ⟨typed, holds⟩

theorem fail {error : RunError} (allowed : typing.fault error) :
    Sound typing stack post (fail error) := by
  refine fun ctx typed => ⟨typed, fun other same => ?_⟩
  rwa [← Stop.fault.inj same]

theorem outOfFuel : Sound typing stack post (throw .outOfFuel) := by
  intro ctx typed
  refine ⟨typed, ?_⟩
  intro _ same
  simp at same

theorem mono {post' : α → Prop} (sound : Sound typing stack post run)
    (weaker : ∀ a, post a → post' a) : Sound typing stack post' run := by
  intro ctx typed
  have here := sound ctx typed
  rcases done : run.runAt ctx with ⟨result, ctx'⟩
  rw [done] at here
  cases result with
  | ok a => exact ⟨here.1, weaker a here.2⟩
  | error stop => exact here

theorem bind {post' : β → Prop} {next : α → Run β} (first : Sound typing stack post run)
    (rest : ∀ a, post a → Sound typing stack post' (next a)) :
    Sound typing stack post' (run >>= next) := by
  intro ctx typed
  have here := first ctx typed
  rw [runAt_bind]
  rcases done : run.runAt ctx with ⟨result, ctx'⟩
  rw [done] at here
  cases result with
  | ok a => exact rest a here.2 ctx' here.1
  | error stop => exact here

/-- A change of the context, which may be made where all frames stay typed. -/
theorem changing {change : Context → Context}
    (keeps : ∀ ctx, ctx.Typed typing stack → (change ctx).Typed typing stack) :
    Sound typing stack (fun _ => True) (modify change) := by
  intro ctx typed
  exact ⟨keeps ctx typed, trivial⟩

/-- A part that only looks at the context. -/
theorem looking : Sound typing stack (fun ctx => ctx.Typed typing stack) (get : Run Context) := by
  intro _ typed
  exact ⟨typed, typed⟩

theorem orMissing (sound : Sound typing stack post run) :
    Sound typing stack (fun a? => ∀ a, a? = some a → post a) run.orMissing := by
  intro ctx typed
  obtain ⟨left, ok, stopped⟩ := sound.ends typed rfl
  rw [runAt_orMissing]
  refine ⟨left, ?_⟩
  rcases caught_cases (run.runAt ctx).1 with
    ⟨a, ended, given⟩ | ⟨node, input, -, given⟩ | ⟨stop, ended, -, given⟩
  · rw [given]
    intro b same
    rw [← Option.some.inj same]
    exact ok a ended
  · rw [given]
    simp
  · rw [given]
    exact stopped stop ended

theorem repeatWhile {condition : Run Bool} {body : Run Unit}
    (check : Sound typing stack (fun _ => True) condition)
    (each : Sound typing stack (fun _ => True) body) (fuel : Nat) :
    Sound typing stack (fun _ => True) (repeatWhile condition body fuel) := by
  induction fuel with
  | zero => exact outOfFuel
  | succ fuel ih =>
    rw [repeatWhile_succ]
    refine check.bind fun holds _ => ?_
    cases holds with
    | false => exact pure trivial
    | true => exact each.bind fun _ _ => ih

theorem forM {ι : Type} {items : List ι} {body : ι → Run Unit}
    (each : ∀ a ∈ items, Sound typing stack (fun _ => True) (body a)) :
    Sound typing stack (fun _ => True) (items.forM body) := by
  induction items with
  | nil => exact pure trivial
  | cons a items ih =>
    rw [List.forall_mem_cons] at each
    exact each.1.bind fun _ _ => ih each.2

theorem mapM {ι : Type} {items : List ι} {made : ι → α → Prop} {make : ι → Run α}
    (each : ∀ a ∈ items, Sound typing stack (made a) (make a)) :
    Sound typing stack (fun results => List.Forall₂ made items results) (items.mapM make) := by
  induction items with
  | nil => exact pure .nil
  | cons a items ih =>
    rw [List.forall_mem_cons] at each
    rw [List.mapM_cons]
    exact each.1.bind fun b here => (ih each.2).bind fun _ rest => pure (.cons here rest)

/-- A part that runs in the frame of the caller. -/
theorem inCaller {call : NodeId} (sound : Sound typing stack post run) :
    Sound typing (some call :: stack) post (Machine.inCaller run) := by
  intro ctx typed
  obtain ⟨opened, top, below⟩ := typed.pop
  have here := sound ctx.pop.2 below
  rw [runAt_inCaller]
  refine ⟨?_, here.2⟩
  have typed' := here.1.push top
  rwa [opened] at typed'

/-- What is done in a call and after it. -/
theorem leaving {call : NodeId} {post' : β → Prop} {next : Except Stop α × Frame → Run β}
    (sound : Sound typing (some call :: stack) post run)
    (rest : ∀ result frame, (∀ a, result = .ok a → post a) →
      (∀ stop, result = .error stop → typing.Stops stop) → frame.call = some call →
      frame.Typed typing → Sound typing stack post' (next (result, frame))) :
    Sound typing stack post'
      (modify (Context.push { call := some call }) >>= fun _ => Machine.leaving run >>= next) := by
  intro ctx typed
  have opened := typed.push (Frame.typed_open typing (some call))
  rw [runAt_bind, runAt_modify]
  dsimp only
  rw [runAt_bind, runAt_leaving]
  obtain ⟨left, ok, stopped⟩ := sound.ends opened rfl
  obtain ⟨called, top, below⟩ := left.pop
  exact rest _ _ ok stopped called top _ below

end Sound

end Run

end NodeScript
