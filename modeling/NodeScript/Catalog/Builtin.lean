import NodeScript.Catalog.Control
import NodeScript.Catalog.Data
import NodeScript.Catalog.Operators

/-!
The catalog that every script can use.
-/

set_option autoImplicit false
set_option relaxedAutoImplicit false

namespace NodeScript

/-- The types of the catalog. -/
def Catalog.all : List NodeType :=
  [onEvent, branch, repeatWhile, forEach, sequence, log, message, constant, getVariable,
    setVariable, add, subtract, multiply, divide, random, compare, and, or, not, concat, toText,
    listLength, listGet, listAppend, getField]

def Registry.builtin : Registry := ofList Catalog.all

end NodeScript
