import NodeScript.Catalog.Setting
import NodeScript.Value.Binary

/-!
The nodes for messages, constants, variables, lists and structs.
-/

set_option autoImplicit false
set_option relaxedAutoImplicit false

namespace NodeScript.Catalog

def logLevel : Setting := ⟨"level", "info"⟩

/-- Reads a text for the log. -/
def log : NodeType where
  id := "util/Log"
  category := "Utilities"
  description := some "Log a message to the console"
  behavior := {
    ports := fun _ _ => .ok {
      inputs := [.signal "exec", defaultPort "message" .text (.text "")]
      outputs := [.signal "then"] }
    write := Setting.write [logLevel]
    read := Setting.read [logLevel]
    execute := fun scope _ => do
      let _ ← scope.text 1
      return .next 0 }

/-- Sends a text to a player; to the one of the trigger if the input for the player gives none. -/
def message : NodeType where
  id := "util/Message"
  category := "Utilities"
  description := some "Send a chat message to a player"
  behavior := {
    ports := fun _ _ => .ok {
      inputs := [.signal "exec", valuePort "text" .text, valuePort "player" .player]
      outputs := [.signal "then"] }
    execute := fun scope _ => do
      let text ← scope.text 1
      match ← (scope.input 2).orMissing with
      | some (.player player) => Scope.send (some player) text
      | some other => scope.mismatch "player" other
      | none => Scope.send (← Scope.trigger).player text
      return .next 0 }

/-- The literal of a constant; zero where none is configured. -/
def literal (config : Json) : Except GraphError Value :=
  match config.get? "value" with
  | none | some .null => .ok (.number .zero)
  | some raw =>
    match Value.ofJson? raw with
    | some value => .ok value
    | none => .error (.invalidValue raw)

/-- The type of a literal that a constant may have. -/
def literalType (value : Value) : Except GraphError DataType :=
  match value with
  | .number _ => .ok .number
  | .text _ => .ok .text
  | .boolean _ => .ok .boolean
  | .player _ => .ok .player
  | .list _ | .struct _ _ =>
    .error (.invalidConfig s!"constants must be primitive, got {value.kindName}")

/-- Gives out its literal. -/
def constant : NodeType where
  id := "value/Constant"
  category := "Values"
  description := some "A literal number, text, boolean or player"
  pure := true
  behavior := {
    ports := fun config _ => do
      let type ← literalType (← literal config)
      return { inputs := [], outputs := [valuePort "value" type] }
    write := fun config =>
      match literal config with
      | .ok value => value.encode
      | .error _ => (Value.number .zero).encode
    read := do return Json.object [("value", (← Value.decode).toJson)]
    evaluate := fun scope _ =>
      match literal scope.config with
      | .ok value => return value
      | .error why => .fail (.invalidConfig scope.node why) }

def variableName : Setting := ⟨"variable", "value"⟩

def typeName : Setting := ⟨"type", "number"⟩

/-- Reads the variable of a node in the innermost frame. -/
def readVariable (scope : Scope) : Run Value := do
  let name := variableName.value scope.config
  match ← Scope.fetch? (.named name) with
  | some value => return value
  | none => .fail (.unsetVariable name)

/-- Gives out a variable. -/
def getVariable : NodeType where
  id := "var/Get"
  category := "Variables"
  description := some "Get the value of a variable"
  pure := true
  behavior := {
    ports := fun config known => do
      let type ← typeName.type config known
      return { inputs := [], outputs := [valuePort "value" type] }
    write := Setting.write [variableName, typeName]
    read := Setting.read [variableName, typeName]
    evaluate := fun scope _ => readVariable scope }

/-- Sets a variable, and gives it out. -/
def setVariable : NodeType where
  id := "var/Set"
  category := "Variables"
  description := some "Set the value of a variable"
  behavior := {
    ports := fun config known => do
      let type ← typeName.type config known
      return {
        inputs := [.signal "exec", valuePort "value" type]
        outputs := [.signal "then", valuePort "value" type] }
    write := Setting.write [variableName, typeName]
    read := Setting.read [variableName, typeName]
    execute := fun scope _ => do
      let value ← scope.input 1
      Scope.store (.named (variableName.value scope.config)) value
      return .next 0
    evaluate := fun scope _ => readVariable scope }

def listElement : Setting := ⟨"element", "number"⟩

/-- A type of nodes over lists of a configured element. -/
def listType (name description : String) (ports : DataType → Ports)
    (compute : Scope → List Value → Run Value) : NodeType where
  id := "list/" ++ name
  category := "Lists"
  description := some description
  pure := true
  behavior := {
    ports := fun config known => do return ports (← listElement.type config known)
    write := Setting.write [listElement]
    read := Setting.read [listElement]
    evaluate := fun scope _ => do compute scope (← scope.list 0) }

def listLength : NodeType :=
  listType "Length" "Number of elements in a list"
    (fun element => {
      inputs := [valuePort "list" (.list element)]
      outputs := [valuePort "length" .number] })
    fun _ items => return .number (Double.ofInt items.length)

/-- The element at an index, which has to be an integer within the list. -/
def listGet : NodeType :=
  listType "Get" "Element at an index"
    (fun element => {
      inputs := [valuePort "list" (.list element), defaultPort "index" .number (.number .zero)]
      outputs := [valuePort "element" element] })
    fun scope items => do
      let index ← scope.number 1
      match index.toNat? >>= (items[·]?) with
      | some item => return item
      | none =>
        scope.fault s!"index {index.text} out of range for list of {items.length}"

def listAppend : NodeType :=
  listType "Append" "A copy of the list with one more element"
    (fun element => {
      inputs := [valuePort "list" (.list element), valuePort "item" element]
      outputs := [valuePort "list" (.list element)] })
    fun scope items => do return .list (items ++ [← scope.input 1])

def structName : Setting := ⟨"struct", ""⟩

def fieldName : Setting := ⟨"field", ""⟩

/-- Reads a field of an instance. -/
def getField : NodeType where
  id := "struct/Get"
  category := "Structs"
  description := some "Read a field of a struct"
  pure := true
  behavior := {
    ports := fun config known =>
      let name := structName.value config
      let field := fieldName.value config
      match Schema.find? known name with
      | none => .error (.unresolvedReference name)
      | some schema =>
        match schema.fields.lookup field with
        | none => .error (.invalidConfig s!"struct {name} has no field '{field}'")
        | some type => .ok {
            inputs := [valuePort "value" schema.type]
            outputs := [valuePort field type] }
    write := Setting.write [structName, fieldName]
    read := Setting.read [structName, fieldName]
    evaluate := fun scope _ => do
      let field := fieldName.value scope.config
      match (← scope.input 0).field? field with
      | some value => return value
      | none => scope.fault s!"value has no field '{field}'" }

end NodeScript.Catalog
