import NodeScript.Json.Basic

/-!
JSON values as text: on one line, or with each member on a line of its own.
-/

set_option autoImplicit false
set_option relaxedAutoImplicit false

namespace NodeScript.Json

private def hexDigit (n : Nat) : Char := (Nat.digitChar (n % 16))

/-- A character inside quotes. Quotes, backslashes and control characters are escaped. -/
def escape (c : Char) : List Char :=
  match c with
  | '"' => ['\\', '"']
  | '\\' => ['\\', '\\']
  | '\n' => ['\\', 'n']
  | '\t' => ['\\', 't']
  | '\r' => ['\\', 'r']
  | '\x08' => ['\\', 'b']
  | '\x0c' => ['\\', 'f']
  | c =>
    if c.toNat < 32 then ['\\', 'u', '0', '0', hexDigit (c.toNat / 16), hexDigit c.toNat] else [c]

def quote (s : String) : String :=
  String.ofList ('"' :: s.toList.flatMap escape ++ ['"'])

mutual

/-- The text on one line. -/
def compact : Json → String
  | null => "null"
  | bool b => if b then "true" else "false"
  | int i => toString i
  | float d => if d.isFinite then Decimal.Layout.scientific.render d else "null"
  | str s => quote s
  | arr items => "[" ++ ",".intercalate (compactItems items) ++ "]"
  | obj fields => "\x7b" ++ ",".intercalate (compactFields fields) ++ "\x7d"

def compactItems : List Json → List String
  | [] => []
  | item :: items => item.compact :: compactItems items

def compactFields : List (String × Json) → List String
  | [] => []
  | (key, value) :: fields => (quote key ++ ":" ++ value.compact) :: compactFields fields

end

/-- Members in brackets, each on a line of its own, two blanks further in than the brackets. -/
def block (indent : Nat) (opening : String) (members : List String) (closing : String) : String :=
  if members.isEmpty then opening ++ closing
  else
    let inner := "\n" ++ String.ofList (List.replicate (2 * indent + 2) ' ')
    let outer := "\n" ++ String.ofList (List.replicate (2 * indent) ' ')
    opening ++ inner ++ ("," ++ inner).intercalate members ++ outer ++ closing

mutual

/-- The text with each member on a line of its own. -/
def pretty (indent : Nat) : Json → String
  | arr items => block indent "[" (prettyItems (indent + 1) items) "]"
  | obj fields => block indent "\x7b" (prettyFields (indent + 1) fields) "\x7d"
  | value => value.compact

def prettyItems (indent : Nat) : List Json → List String
  | [] => []
  | item :: items => item.pretty indent :: prettyItems indent items

def prettyFields (indent : Nat) : List (String × Json) → List String
  | [] => []
  | (key, value) :: fields =>
    (quote key ++ ": " ++ value.pretty indent) :: prettyFields indent fields

end

end NodeScript.Json
