import NodeScript.Json.Basic
import NodeScript.Settings.Basic

/-!
Settings as JSON: an object of them, or a list of them in their order.
-/

set_option autoImplicit false
set_option relaxedAutoImplicit false

namespace NodeScript.Settings

/-- The value that a JSON value gives for a setting. -/
def Given.ofJson : Json → Given
  | .null => .absent
  | .str s => .text s
  | .int i => .integer i
  | .bool b => .truth b
  | .obj [(name, .null)] => .choice name
  | _ => .other

/-- Settings from a JSON value; null gives none of them. -/
def ofJson? : Json → Option Settings
  | .null => some {}
  | .obj fields => ofGiven? (fields.map fun (key, value) => (key, Given.ofJson value))
  | .arr items =>
    if items.length ≤ keys.length then ofGiven? (keys.zip (items.map Given.ofJson)) else none
  | _ => none

end NodeScript.Settings
