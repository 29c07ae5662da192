import NodeScript.Dict
import NodeScript.Format.Version
import NodeScript.Json.Basic
import NodeScript.Run.Draws
import NodeScript.Text.Line

/-!
Where commands do their work: files by their paths, lines that are printed, and random numbers.
-/

set_option autoImplicit false
set_option relaxedAutoImplicit false

namespace NodeScript

/-- The effects of commands. -/
class Workspace (m : Type → Type) where
  read : String → m (Except FileError Bytes)
  /-- Writes a file, or leaves it as it was where that fails. -/
  write : String → Bytes → m (Except FileError Unit)
  /-- Prints a text and ends its last line. -/
  print : String → m Unit
  /-- Where the runs of a command get their random numbers, by their round, event and place. -/
  draws : m (Nat → String → Nat → Draws)
  /-- The reason that is given for a round that did not survive. -/
  lost : Nat → m String
  /-- What is wrong with a JSON value that is none of a script. -/
  explain : m (Json → String)

/-- The reasons of a failure, the outermost first. -/
def FileError.chain : FileError → List String
  | decode error => [(FileError.decode error).message, error.message]
  | io what => [(FileError.io what).message, what]
  | unrepresentable version reason => [(FileError.unrepresentable version reason).message]

/-- A command: it ends, or it fails for the given reasons. -/
abbrev Command (m : Type → Type) (α : Type) := ExceptT (List String) m α

namespace Command

variable {m : Type → Type} [Monad m]

/-- The result of a step, or its reasons behind what was tried. -/
def orFail {α : Type} (tried : String) : Except FileError α → Command m α
  | .ok a => pure a
  | .error error => throw (tried :: error.chain)

/-- The result of a step that works on files alone, or the reason of the system behind what was
tried. -/
def orRefuse {α : Type} (tried : String) : Except FileError α → Command m α
  | .error (.io what) => throw [tried, what]
  | outcome => orFail tried outcome

variable [Workspace m]

def printLines (lines : List String) : Command m Unit :=
  lines.forM fun line => ExceptT.lift (Workspace.print line)

def writeFile (tried path : String) (bytes : Bytes) : Command m Unit := do
  orFail tried (← ExceptT.lift (Workspace.write path bytes))

end Command

/-- The parts of a path. Slashes next to each other are one, and a dot between slashes is nothing,
save one at the start. -/
def pathParts (path : String) : List String :=
  match path.splitOn "/" with
  | first :: rest => first :: rest.filter fun part => part != "" && part != "."
  | [] => []

/-- A directory without others in it. -/
abbrev Directory := Dict Bytes

namespace Directory

/-- The reason that is given where no file can be read or written. -/
def refusal : String := "The path leads to no file"

/-- Whether a file can have the name. -/
def isFileName (name : String) : Bool :=
  name != "" && name != "." && name != ".." && !name.contains '\x00' && name.utf8ByteSize ≤ 255

/-- The name of the file that a path leads to, where the path leads to no other directory: the last
part of the path, if the others stay in the directory. -/
def fileName? (path : String) : Option String :=
  let parts := path.splitOn "/"
  let stays := parts.dropLast.all fun part => part = "." || part = ""
  if path.startsWith "/" || !stays || 4096 ≤ path.utf8ByteSize then none
  else parts.getLast?.filter isFileName

def read (directory : Directory) (path : String) : Except FileError Bytes :=
  match fileName? path >>= (List.lookup · directory) with
  | some bytes => .ok bytes
  | none => .error (.io refusal)

def write (directory : Directory) (path : String) (bytes : Bytes) : Except FileError Directory :=
  match fileName? path with
  | some name => .ok (Dict.insert name bytes directory)
  | none => .error (.io refusal)

end Directory

/-- A workspace in memory. -/
structure Desk where
  files : Directory
  /-- The printed lines. -/
  lines : List String := []

instance : Workspace (StateM Desk) where
  read path := do return (← get).files.read path
  write path bytes := modifyGet fun desk =>
    match desk.files.write path bytes with
    | .ok files => (.ok (), { desk with files })
    | .error error => (.error error, desk)
  print text := modify fun desk => { desk with lines := desk.lines ++ Text.lines (text ++ "\n") }
  draws := return fun _ _ _ => default
  lost round := return s!"task {round} panicked"
  explain := return fun _ => "not a value"

end NodeScript
