import NodeScript.Command.Arguments

/-!
The program: files of the machine, its standard output and its random numbers, behind the commands.
-/

set_option autoImplicit false
set_option relaxedAutoImplicit false

namespace NodeScript

/-- The outcome of an action on files. -/
def tried {α : Type} (action : IO α) : IO (Except FileError α) := do
  try
    return .ok (← action)
  catch error =>
    return .error (.io (toString error))

instance : Workspace IO where
  read path := tried do return (← IO.FS.readBinFile path).toList
  write path bytes := tried do
    let beside := path ++ ".tmp"
    IO.FS.writeBinFile beside ⟨bytes.toArray⟩
    IO.FS.rename beside path
  print text := IO.println text
  draws := do
    let seed ← IO.rand 0 0xffffffffffffffff
    return fun round event place => .spread (hash (seed, round, event, place))
  lost round := return s!"task {round} panicked"
  explain := return fun _ => "not a value"

/-- The text of a settings file, where there is one. -/
def settingsText (file : Option String) : IO (Option String) := do
  match ← tried (IO.FS.readFile (file.getD Settings.standardFile)) with
  | .ok text => return some text
  | .error _ => return none

/-- The variables of the environment that give settings. -/
def settingsVariables : IO (List (String × String)) :=
  Settings.keys.filterMapM fun key => do
    let name := Settings.environmentMark ++ key.toUpper
    return (← IO.getEnv name).map (name, ·)

/-- More than any run can use. -/
def ample : Nat := 0x4000000000000000

/-- Does what the arguments ask for, and answers with the code of the program's exit. -/
def start (arguments : List String) : IO UInt32 := do
  match Command.Invocation.ofArguments arguments with
  | .error reason =>
    IO.eprintln s!"error: {reason}"
    return 2
  | .ok invocation =>
    let text ← settingsText invocation.settingsFile
    let some settings := Settings.load? text (← settingsVariables) |
      IO.eprintln "Error: Failed to load settings"
      return 1
    let command : Command IO Unit := invocation.request.perform ample settings
    match ← ExceptT.run command with
    | .ok () => return 0
    | .error reasons =>
      IO.eprintln ("Error: " ++ ": ".intercalate reasons)
      return 1

end NodeScript

def main (arguments : List String) : IO UInt32 := NodeScript.start arguments
