import NodeScript.Double

/-!
The values of TOML documents.
-/

set_option autoImplicit false
set_option relaxedAutoImplicit false

namespace NodeScript.Toml

/-- A value. Of dates and times only the kind is kept. -/
inductive Value where
  | text (s : String)
  | integer (i : Int)
  | number (d : Double)
  | truth (b : Bool)
  | time
  | array (items : List Value)
  | table (entries : List (String × Value))
deriving Inhabited, Repr

end NodeScript.Toml
