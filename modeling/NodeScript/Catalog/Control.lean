import NodeScript.Catalog.Setting

/-!
The nodes that start runs and steer them: events, branches, loops and sequences.
-/

set_option autoImplicit false
set_option relaxedAutoImplicit false

namespace NodeScript.Catalog

def eventName : Setting := ⟨"event", "start"⟩

/-- Starts a run when its event fires, and gives out what the trigger carries. -/
def onEvent : NodeType where
  id := "event/On"
  category := "Events"
  description := some "Runs when the configured event fires"
  behavior := {
    ports := fun _ _ => .ok {
      inputs := []
      outputs := [.signal "then", valuePort "player" .player, valuePort "text" .text,
        valuePort "number" .number] }
    write := Setting.write [eventName]
    read := Setting.read [eventName]
    announce := fun node config => do
      let entry ← Entries.entryAt ⟨node, 0⟩
      Entries.subscribe (eventName.value config) entry
    evaluate := fun scope output => do
      let trigger ← Scope.trigger
      let carried {α : Type} (value : Option α) (make : α → Value) (what : String) : Run Value :=
        match value with
        | some value => return make value
        | none => .fail (.missingTriggerData what)
      match output with
      | 1 => carried trigger.player .player "player"
      | 2 => carried trigger.text .text "text"
      | 3 => carried trigger.number .number "number"
      | _ => .fail (.notAValueOutput scope.node output) }

def conditionPorts (outputs : List Port) : Ports where
  inputs := [.signal "exec", defaultPort "condition" .boolean (.boolean false)]
  outputs

/-- Continues through one of two outputs. -/
def branch : NodeType where
  id := "flow/Branch"
  category := "Flow Control"
  description := some "Branch execution based on a boolean condition"
  behavior := {
    ports := fun _ _ => .ok (conditionPorts [.signal "true", .signal "false"])
    execute := fun scope _ => do
      if ← scope.boolean 1 then return .next 0 else return .next 1 }

/-- Repeats its body for as long as its condition holds. -/
def repeatWhile : NodeType where
  id := "flow/While"
  category := "Flow Control"
  description := some "Repeat the body while the condition is true"
  behavior := {
    ports := fun _ _ => .ok (conditionPorts [.signal "body", .signal "completed"])
    execute := fun scope _ => do
      Run.repeatWhile (scope.boolean 1) (scope.fire 0) scope.fuel
      return .next 1 }

def elementType : Setting := ⟨"element", "number"⟩

/-- Runs its body once for each element, which the body reads together with its index. -/
def forEach : NodeType where
  id := "flow/ForEach"
  category := "Flow Control"
  description := some "Run the body for every element of a list"
  behavior := {
    ports := fun config known => do
      let element ← elementType.type config known
      return {
        inputs := [.signal "exec", valuePort "list" (.list element)]
        outputs := [.signal "body", valuePort "element" element, valuePort "index" .number,
          .signal "completed"] }
    write := Setting.write [elementType]
    read := Setting.read [elementType]
    announce := fun node _ => do
      let _ ← Entries.allocate node
      let _ ← Entries.allocate node
    execute := fun scope _ => do
      let items ← scope.list 1
      let element ← scope.slotKey 0
      let index ← scope.slotKey 1
      items.zipIdx.forM fun (item, i) => do
        Scope.store element item
        Scope.store index (.number (Double.ofInt i))
        scope.fire 0
      return .next 3
    evaluate := fun scope output => do
      let key ← match output with
        | 1 => scope.slotKey 0
        | 2 => scope.slotKey 1
        | _ => .fail (.notAValueOutput scope.node output)
      match ← Scope.fetch? key with
      | some value => return value
      | none => scope.fault "loop value read outside of the loop body" }

/-- The number of outputs of a sequence: between 1 and 16, and 2 where none is configured. -/
def sequenceLength (config : Json) : Nat :=
  match config.get? "outputs" >>= Json.asNat? with
  | some n => min (max n 1) 16
  | none => 2

/-- Runs the chains behind its outputs one after the other. -/
def sequence : NodeType where
  id := "flow/Sequence"
  category := "Flow Control"
  description := some "Execute multiple branches in sequence"
  behavior := {
    ports := fun config _ => .ok {
      inputs := [.signal "exec"]
      outputs := (List.range (sequenceLength config)).map fun i => .signal s!"then_{i}" }
    write := fun config => Encode.count (sequenceLength config)
    read := do return Json.object [("outputs", .int (← Decode.count))]
    execute := fun scope _ => do
      (List.range (sequenceLength scope.config)).forM scope.fire
      return .done }

end NodeScript.Catalog
