import NodeScript.Json.Basic
import NodeScript.Run.Context

/-!
What a node sees while it runs: its configuration, its inputs, the chains behind its signal
outputs, the variables of the innermost frame, and the trigger.
-/

set_option autoImplicit false
set_option relaxedAutoImplicit false

namespace NodeScript

/-- How control leaves a node: through a signal output, or not at all. -/
inductive Flow where
  | next (slot : Nat)
  | done
deriving DecidableEq, Repr

/-- The view of a node on the run that reached it. -/
structure Scope where
  node : NodeId
  config : Json
  /-- Reads an input of the node. -/
  input : Nat → Run Value
  /-- Runs the chain behind a signal output of the node. -/
  fire : Nat → Run Unit
  /-- The slots of the node. -/
  slots : List Slot
  /-- The bound on what the node may repeat. -/
  fuel : Nat

namespace Scope

/-- A fault of this node. -/
def fault {α : Type} (scope : Scope) (what : String) : Run α :=
  .fail (.nodeFault scope.node what)

def mismatch {α : Type} (scope : Scope) (expected : String) (found : Value) : Run α :=
  .fail (.typeMismatch scope.node expected found.kindName)

def number (scope : Scope) (slot : Nat) : Run Double := do
  match ← scope.input slot with
  | .number n => return n
  | other => scope.mismatch "number" other

def boolean (scope : Scope) (slot : Nat) : Run Bool := do
  match ← scope.input slot with
  | .boolean b => return b
  | other => scope.mismatch "boolean" other

def text (scope : Scope) (slot : Nat) : Run String := do
  match ← scope.input slot with
  | .text s => return s
  | other => scope.mismatch "text" other

def list (scope : Scope) (slot : Nat) : Run (List Value) := do
  match ← scope.input slot with
  | .list items => return items
  | other => scope.mismatch "list" other

/-- The variable in the slot of the node with the given number. -/
def slotKey (scope : Scope) (index : Nat) : Run VarKey :=
  match scope.slots[index]? with
  | some slot => return .slot slot
  | none => scope.fault s!"variable slot {index} was not allocated"

/-- A variable of the innermost frame. -/
def fetch? (key : VarKey) : Run (Option Value) := do
  return (← get).top.vars.lookup key

def store (key : VarKey) (value : Value) : Run Unit :=
  modify fun ctx => { ctx with top := { ctx.top with vars := Assoc.put key value ctx.top.vars } }

def trigger : Run Trigger := do return (← get).trigger

def send (recipient : Option String) (text : String) : Run Unit :=
  modify fun ctx => { ctx with messages := ctx.messages ++ [{ recipient, text }] }

/-- A random number from the first bound up to the second, which it does not reach. -/
def random (scope : Scope) (low high : Double) : Run Double := do
  let ctx ← get
  let (answer, draws) := ctx.draws.next low high
  set { ctx with draws }
  match answer with
  | some n => return n
  | none => throw (.panicked scope.node low high)

end Scope

end NodeScript
