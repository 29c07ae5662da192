import NodeScript.Command.Workspace
import NodeScript.Format.Save
import NodeScript.Host.Basic
import NodeScript.Sample
import NodeScript.Settings.File
import NodeScript.Summary.Listing

/-!
The commands: run events, list a graph, bring it into the current format, list the node types,
write the sample, and print the settings.
-/

set_option autoImplicit false
set_option relaxedAutoImplicit false

namespace NodeScript.Command

variable {m : Type → Type} [Monad m] [Workspace m]

/-- The path that is given, or else the one of the settings. -/
def graphPath (settings : Settings) (path : Option String) : Command m String :=
  match path.or settings.graph with
  | some path => return path
  | none => throw ["No graph given and no `graph` configured"]

/-- The graph in a file. -/
def load (path : String) : Command m Format.Loaded := do
  let tried := s!"Failed to load graph {path}"
  let file ← orFail tried (← ExceptT.lift (Workspace.read path))
  orFail tried ((Format.decode .builtin file).mapError .decode)

/-- Writes a graph in the current format. -/
def save (tried path : String) (graph : Graph) : Command m Unit := do
  writeFile tried path (← orFail tried (graph.encode .builtin Format.current))

/-- What to run. -/
structure RunOptions where
  path : Option String
  /-- Its event is a pattern of event names. -/
  trigger : Trigger
  repetitions : Nat
deriving Repr

/-- The lines of the messages of a run, or of its fault. -/
def runLines (explain : Json → String) : Except Stop Report → List String
  | .ok report => report.messages.map fun message =>
    match message.recipient with
    | some player => s!"[{report.event}] -> {player}: {message.text}"
    | none => s!"[{report.event}] {message.text}"
  | .error (.fault error) => ["error: " ++ error.message explain]
  | .error .outOfFuel => ["error: out of fuel"]
  | .error (.panicked _ _ _) => []

/-- Whether no run of a round panicked. -/
def survived (results : List (Except Stop Report)) : Bool :=
  results.all fun
    | .error (.panicked _ _ _) => false
    | _ => true

def statsLine (event : String) (stats : EventStats) : String :=
  s!"{event}: {stats.invocations} invocations, {stats.failures} failed, {stats.steps} steps"

/-- Fires the events whose names have the form of the pattern, as often as it is asked for. The
first round that does not survive ends the command. -/
def run (fuel : Nat) (settings : Settings) (options : RunOptions) : Command m Unit := do
  let loaded ← load (← graphPath settings options.path)
  let host := { Host.ofGraph .builtin loaded.graph with maxCallDepth := settings.maxCallDepth }
  let pattern := options.trigger.event
  let draws ← ExceptT.lift Workspace.draws
  let explain ← ExceptT.lift Workspace.explain
  let (rounds, host) := (List.range options.repetitions).foldl (fun (rounds, host) round =>
    let (results, host) := host.fireMatching fuel pattern options.trigger (draws round)
    (results :: rounds, host)) ([], host)
  let whole := rounds.reverse.takeWhile survived
  printLines (whole.flatten.flatMap (runLines explain))
  if whole.length < rounds.length then throw [← ExceptT.lift (Workspace.lost whole.length)]
  if host.stats.isEmpty then printLines [s!"No event matched '{pattern}'"]
  printLines (host.stats.map fun (event, stats) => statsLine event stats)

def inspectLines (path : String) (loaded : Format.Loaded) : List String :=
  let summary := loaded.graph.summary
  let nodes := summary.nodes.length
  let wires := summary.wireCount
  let dropped :=
    if 0 < loaded.droppedNodes || 0 < loaded.droppedWires then
      [s!"  dropped {loaded.droppedNodes} unresolved nodes and {loaded.droppedWires} wires"]
    else []
  s!"{path} (format v{loaded.version}, {nodes} nodes, {wires} wires)" :: dropped ++ summary.lines

/-- Lists the definitions, nodes and wires of a graph. -/
def inspect (settings : Settings) (path : Option String) (json : Bool) : Command m Unit := do
  let path ← graphPath settings path
  let loaded ← load path
  if json then printLines [loaded.graph.summary.toJson.pretty 0]
  else printLines (inspectLines path loaded)

def catalogLine (type : NodeType) : String :=
  let mark := if type.pure then " (pure)" else ""
  match type.description with
  | some description => s!"  {type.id}{mark} - {description}"
  | none => s!"  {type.id}{mark}"

/-- The types of a registry under their categories. -/
def catalogLines (registry : Registry) : List String :=
  registry.categories.flatMap fun category =>
    s!"{category}:" :: (registry.inCategory category).map catalogLine

/-- Lists the types of nodes. -/
def nodes : Command m Unit := printLines (catalogLines .builtin)

/-- The path under which a file of an older version is kept. -/
def backupPath (path : String) (version : Int32) : String :=
  "/".intercalate (pathParts path) ++ s!".v{version}.bak"

/-- Brings a file into the current format, in its own place unless another is given. -/
def upgrade (settings : Settings) (path output : Option String) : Command m Unit := do
  let path ← graphPath settings path
  let loaded ← load path
  let target := output.getD path
  if pathParts target = pathParts path && settings.backupOnUpgrade then
    let backup := backupPath path loaded.version
    let tried := s!"Failed to back up {path} to {backup}"
    let bytes ← orRefuse tried (← ExceptT.lift (Workspace.read path))
    orRefuse tried (← ExceptT.lift (Workspace.write backup bytes))
  save s!"Failed to save graph {target}" target loaded.graph
  printLines [s!"Upgraded {target} from v{loaded.version} to v{Format.current}"]

/-- Writes the sample script. -/
def demo (output : String) : Command m Unit := do
  match Sample.graph with
  | .error error => throw [error.message (← ExceptT.lift Workspace.explain)]
  | .ok graph =>
    save s!"Failed to write demo graph {output}" output graph
    printLines [s!"Wrote demo graph to {output}",
      s!"Try: wiregraph run {output} --event 'square' --number 12"]

/-- Prints the settings. -/
def config (settings : Settings) : Command m Unit := do
  match settings.toToml with
  | .error reason => throw [reason]
  | .ok text => printLines (Text.lines text)

end NodeScript.Command
