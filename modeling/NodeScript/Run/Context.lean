import NodeScript.Run.Draws
import NodeScript.Run.Error
import NodeScript.Value.Basic

/-!
The state of a run: what triggered it, the frames of the calls that are open, the messages sent,
and the number of steps made.
-/

set_option autoImplicit false
set_option relaxedAutoImplicit false

namespace NodeScript

/-- An event from outside, with what it carries. -/
structure Trigger where
  event : String := ""
  player : Option String := none
  text : Option String := none
  number : Option Double := none
deriving Inhabited, Repr

/-- A text for a player, or for nobody in particular. -/
structure Message where
  recipient : Option String
  text : String
deriving DecidableEq, Repr

/-- What names a variable of a frame: a slot of a node, or a name chosen by the script. -/
inductive VarKey where
  | slot (slot : Slot)
  | named (name : String)
deriving DecidableEq, Repr

/-- The values that a call left behind, by output; signals and outputs that had no value have
none. -/
abbrev Results := List (Option Value)

/-- The state of one open call. -/
structure Frame where
  /-- The call node; the outermost frame has none. -/
  call : Option NodeId := none
  vars : List (VarKey × Value) := []
  /-- The signal output through which control left the function. -/
  returned : Option Nat := none
  /-- The values collected when control left the function. -/
  results : Results := []
  /-- The results of the calls made from this frame. -/
  callResults : List (NodeId × Results) := []
deriving Inhabited, Repr

/-- The state of a run. -/
structure Context where
  trigger : Trigger
  /-- The frame of the innermost open call. -/
  top : Frame := {}
  /-- The frames of its callers, innermost first. -/
  callers : List Frame := []
  messages : List Message := []
  steps : Nat := 0
  draws : Draws := default
deriving Inhabited

namespace Context

/-- The context from which a run begins. -/
def ofTrigger (trigger : Trigger) (draws : Draws := default) : Context := { trigger, draws }

/-- The number of open frames. -/
def depth (ctx : Context) : Nat := ctx.callers.length + 1

/-- All frames, innermost first. -/
def frames (ctx : Context) : List Frame := ctx.top :: ctx.callers

/-- The frame in which the run began. -/
def outermost (ctx : Context) : Frame := ctx.callers.getLastD ctx.top

/-- A named variable of the outermost frame. -/
def named? (ctx : Context) (name : String) : Option Value :=
  ctx.outermost.vars.lookup (.named name)

/-- Opens a frame. -/
def push (frame : Frame) (ctx : Context) : Context :=
  { ctx with top := frame, callers := ctx.top :: ctx.callers }

/-- Closes the innermost frame; the outermost frame stays open, and an empty one is given in its
place. -/
def pop (ctx : Context) : Frame × Context :=
  match ctx.callers with
  | [] => ({}, ctx)
  | caller :: callers => (ctx.top, { ctx with top := caller, callers })

end Context

/-- What a run leaves behind. -/
structure Report where
  event : String
  messages : List Message
  /-- The named variables of the outermost frame. -/
  vars : Dict Value
  steps : Nat
deriving Inhabited, Repr

/-- The named ones among the variables of a frame. -/
def Frame.named (frame : Frame) : Dict Value :=
  Dict.ofList <| frame.vars.filterMap fun
    | (.named name, value) => some (name, value)
    | (.slot _, _) => none

def Context.report (ctx : Context) : Report where
  event := ctx.trigger.event
  messages := ctx.messages
  vars := ctx.outermost.named
  steps := ctx.steps

/-- Why a run has not come to its end: a fault of the script, the bound on its length, or a node
that asked for a random number from a bound up to another and got none, which no run survives. -/
inductive Stop where
  | fault (error : RunError)
  | outOfFuel
  | panicked (node : NodeId) (low high : Double)
deriving DecidableEq, Repr

/-- A part of a run. The context survives a fault. -/
abbrev Run (α : Type) := ExceptT Stop (StateM Context) α

namespace Run

/-- Runs a part from a context. -/
def runAt {α : Type} (run : Run α) (ctx : Context) : Except Stop α × Context :=
  (ExceptT.run run).run ctx

def fail {α : Type} (error : RunError) : Run α := throw (.fault error)

/-- The result, or nothing where a value is missing. -/
def orMissing {α : Type} (run : Run α) : Run (Option α) := fun ctx =>
  match run.runAt ctx with
  | (.ok a, ctx) => (.ok (some a), ctx)
  | (.error (.fault (.missingValue _ _)), ctx) => (.ok none, ctx)
  | (.error stop, ctx) => (.error stop, ctx)

/-- Repeats the body for as long as the condition holds, at most as often as the fuel lasts. -/
def repeatWhile (condition : Run Bool) (body : Run Unit) : Nat → Run Unit
  | 0 => throw .outOfFuel
  | fuel + 1 => fun ctx =>
    match condition.runAt ctx with
    | (.ok true, ctx) =>
      match body.runAt ctx with
      | (.ok (), ctx) => repeatWhile condition body fuel ctx
      | (.error stop, ctx) => (.error stop, ctx)
    | (.ok false, ctx) => (.ok (), ctx)
    | (.error stop, ctx) => (.error stop, ctx)

end Run

end NodeScript
