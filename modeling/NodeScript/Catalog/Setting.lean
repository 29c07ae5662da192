import NodeScript.Catalog.NodeType
import NodeScript.DataType.Name

/-!
Settings of nodes: texts of a configuration, each with what stands for it where it is absent. The
bytes of a configuration are its settings in order.
-/

set_option autoImplicit false
set_option relaxedAutoImplicit false

namespace NodeScript.Catalog

/-- A text of a configuration. -/
structure Setting where
  key : String
  default : String

namespace Setting

def value (setting : Setting) (config : Json) : String :=
  (config.text? setting.key).getD setting.default

/-- The type that a setting names. -/
def type (setting : Setting) (config : Json) (known : List Schema) : Except GraphError DataType :=
  let name := setting.value config
  match DataType.ofName? known name with
  | some type => .ok type
  | none => .error (.unresolvedReference name)

def write (settings : List Setting) (config : Json) : Bytes :=
  settings.flatMap fun setting => Encode.text (setting.value config)

def read (settings : List Setting) : Decode Json := do
  let fields ← settings.mapM fun setting => do return (setting.key, Json.str (← Decode.text))
  return Json.object fields

end Setting

/-- A port that carries values. -/
def valuePort (name : String) (type : DataType) : Port := { name, type }

/-- An input that reads a literal while nothing else gives it a value. -/
def defaultPort (name : String) (type : DataType) (default : Value) : Port :=
  { name, type, default := some default }

/-- An output that is computed from the inputs. -/
def pureType (id category description : String) (ports : Ports) (compute : Scope → Run Value) :
    NodeType where
  id
  category
  description := some description
  pure := true
  behavior := .pure ports compute

end NodeScript.Catalog
