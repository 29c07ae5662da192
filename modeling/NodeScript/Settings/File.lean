import NodeScript.Settings.Environment
import NodeScript.Toml.Document

/-!
Settings in a file: a TOML document, to which the variables of the environment are added.
-/

set_option autoImplicit false
set_option relaxedAutoImplicit false

namespace NodeScript.Settings

/-- The settings file that is read where none is named. -/
def standardFile : String := "wiregraph.toml"

/-- A table with this key stands for the value under it. -/
def meaningKey : String := "___figment_value_value"

/-- Under this key a table would have to hold a kind of number that no document has. -/
def originKey : String := "___figment_value_id"

mutual

/-- Whether any table in a value has a key that no table can have. -/
def isRefused : Toml.Value → Bool
  | .array items => anyRefused items
  | .table entries => isRefusedTable entries
  | _ => false

def anyRefused : List Toml.Value → Bool
  | [] => false
  | v :: rest => isRefused v || anyRefused rest

def isRefusedTable : List (String × Toml.Value) → Bool
  | [] => false
  | (key, v) :: rest => key == originKey || isRefused v || isRefusedTable rest

end

mutual

/-- The value that a file gives for a setting. -/
def Given.ofToml : Toml.Value → Given
  | .text s => .text s
  | .integer i => .integer i
  | .truth b => .truth b
  | .table entries => ofTable entries
  | .number _ | .time | .array _ => .other

def Given.ofTable : List (String × Toml.Value) → Given
  | [] => .other
  | (key, v) :: rest => if key == meaningKey then ofToml v else ofTable rest

end

/-- The settings from the text of a file, if there is one, and the environment, which counts
more. -/
def load? (file : Option String) (environment : List (String × String)) : Option Settings := do
  let entries ← Toml.read? (file.getD "")
  if entries.any (isRefused ·.2) then none
  else ofGiven? (ofEnvironment environment ++ entries.map fun (key, v) => (key, Given.ofToml v))

/-- A number of a setting; the format holds those that fit into 64 bits with a sign. -/
def number (n : Nat) : Except String String :=
  if Toml.fits n then .ok (toString n) else .error "out-of-range value for u64 type"

/-- The settings as TOML. -/
def toToml (settings : Settings) : Except String String := do
  let graph := match settings.graph with
    | some path => "graph = " ++ Toml.quote path ++ "\n"
    | none => ""
  return "log_filter = " ++ Toml.quote settings.logFilter ++ "\n" ++
    "log_format = " ++ Toml.quote settings.logFormat.word ++ "\n" ++ graph ++
    "workers = " ++ (← number settings.workers) ++ "\n" ++
    "backup_on_upgrade = " ++ (if settings.backupOnUpgrade then "true" else "false") ++ "\n" ++
    "max_call_depth = " ++ (← number settings.maxCallDepth) ++ "\n"

end NodeScript.Settings
