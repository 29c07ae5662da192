import NodeScript.Bytes.Decode

/-!
The versions of the file format. Each adds one thing to the layout of the one before.
-/

set_option autoImplicit false
set_option relaxedAutoImplicit false

namespace NodeScript.Format

/-- The first version with a table of functions and a kind at every node. -/
def withFunctions : Int32 := 1

/-- The first version with a table of structs. -/
def withStructs : Int32 := 2

/-- The first version with relays on wires. -/
def withRelays : Int32 := 3

/-- The first version with literals of inputs. -/
def withInsets : Int32 := 4

/-- The version that is written and read. -/
def current : Int32 := withInsets

/-- Whether there is such a version. -/
def isKnown (version : Int32) : Bool := 0 ≤ version && version ≤ current

end NodeScript.Format

namespace NodeScript

/-- Why a graph is not saved or loaded. -/
inductive FileError where
  | decode (error : DecodeError)
  | io (what : String)
  /-- The layout of the version cannot hold the graph. -/
  | unrepresentable (version : Int32) (reason : String)
deriving DecidableEq, Repr

def FileError.message : FileError → String
  | decode error => s!"Failed to decode graph: " ++ error.message
  | io what => s!"I/O error: {what}"
  | unrepresentable version reason =>
    s!"Graph cannot be written as version {version}: {reason}"

end NodeScript
