import NodeScript.Catalog.Setting

/-!
The nodes that compute: arithmetic, logic and text.
-/

set_option autoImplicit false
set_option relaxedAutoImplicit false

namespace NodeScript.Catalog

def result (type : DataType) : List Port := [valuePort "result" type]

def numberPorts (a b : Double) (type : DataType) : Ports where
  inputs := [defaultPort "a" .number (.number a), defaultPort "b" .number (.number b)]
  outputs := result type

/-- A type of nodes that compute a number from two. -/
def arithmetic (name description : String) (a b : Double)
    (compute : Scope → Double → Double → Run Double) : NodeType :=
  pureType ("math/" ++ name) "Math" description (numberPorts a b .number) fun scope => do
    let a ← scope.number 0
    let b ← scope.number 1
    return .number (← compute scope a b)

def add : NodeType := arithmetic "Add" "Add two numbers" 0 0 fun _ a b => return a.add b

def subtract : NodeType := arithmetic "Subtract" "Subtract B from A" 0 0 fun _ a b => return a.sub b

def multiply : NodeType :=
  arithmetic "Multiply" "Multiply two numbers" 1 1 fun _ a b => return a.mul b

def divide : NodeType :=
  arithmetic "Divide" "Divide A by B" 0 1 fun scope a b =>
    if b.isZero then scope.fault "division by zero" else return a.div b

/-- A random number from the first bound up to the second, which it does not reach. Where the second
is not above the first, the first is given. -/
def random : NodeType :=
  pureType "math/Random" "Math" "Random number between min (inclusive) and max (exclusive)"
    { inputs := [defaultPort "min" .number (.number 0), defaultPort "max" .number (.number 1)]
      outputs := result .number }
    fun scope => do
      let low ← scope.number 0
      let high ← scope.number 1
      if high.le low then return .number low
      else return .number (← scope.random low high)

def operator : Setting := ⟨"operator", "=="⟩

/-- The comparisons by their signs. Numbers are equal when they differ by less than the distance
from 1 to the next double. -/
def comparison? (sign : String) : Option (Double → Double → Bool) :=
  match sign with
  | "==" => some fun a b => (a.sub b).abs.lt .epsilon
  | "!=" => some fun a b => Double.epsilon.le (a.sub b).abs
  | "<" => some fun a b => a.lt b
  | "<=" => some fun a b => a.le b
  | ">" => some fun a b => b.lt a
  | ">=" => some fun a b => b.le a
  | _ => none

def compare : NodeType where
  id := "logic/Compare"
  category := "Logic"
  description := some "Compare two numbers"
  pure := true
  behavior := {
    ports := fun config _ =>
      let sign := operator.value config
      if (comparison? sign).isSome then .ok (numberPorts 0 0 .boolean)
      else .error (.invalidConfig s!"unknown operator '{sign}'")
    write := Setting.write [operator]
    read := Setting.read [operator]
    evaluate := fun scope _ => do
      let a ← scope.number 0
      let b ← scope.number 1
      let sign := operator.value scope.config
      match comparison? sign with
      | some holds => return .boolean (holds a b)
      | none => scope.fault s!"unknown operator '{sign}'" }

def gatePorts : Ports where
  inputs := [defaultPort "a" .boolean (.boolean false), defaultPort "b" .boolean (.boolean false)]
  outputs := result .boolean

/-- The second input is read only if the first is true. -/
def and : NodeType :=
  pureType "logic/And" "Logic" "Logical AND of two boolean values" gatePorts fun scope => do
    if ← scope.boolean 0 then return .boolean (← scope.boolean 1) else return .boolean false

/-- The second input is read only if the first is false. -/
def or : NodeType :=
  pureType "logic/Or" "Logic" "Logical OR of two boolean values" gatePorts fun scope => do
    if ← scope.boolean 0 then return .boolean true else return .boolean (← scope.boolean 1)

def not : NodeType :=
  pureType "logic/Not" "Logic" "Logical NOT of a boolean value"
    { inputs := [defaultPort "value" .boolean (.boolean false)], outputs := result .boolean }
    fun scope => do return .boolean (!(← scope.boolean 0))

def concat : NodeType :=
  pureType "text/Concat" "Text" "Join two pieces of text"
    { inputs := [defaultPort "a" .text (.text ""), defaultPort "b" .text (.text "")]
      outputs := result .text }
    fun scope => do
      let a ← scope.text 0
      let b ← scope.text 1
      return .text (a ++ b)

def shownType : Setting := ⟨"type", "number"⟩

def toText : NodeType where
  id := "text/ToText"
  category := "Text"
  description := some "Format a value as text"
  pure := true
  behavior := {
    ports := fun config known => do
      let type ← shownType.type config known
      return { inputs := [valuePort "value" type], outputs := [valuePort "text" .text] }
    write := Setting.write [shownType]
    read := Setting.read [shownType]
    evaluate := fun scope _ => do return .text (← scope.input 0).display }

end NodeScript.Catalog
