import NodeScript.Command.Basic
import NodeScript.Decimal.Parse

/-!
The words of a command line: a command, the paths it is given, and options, of which those with a
value have it behind them or behind an equals sign.
-/

set_option autoImplicit false
set_option relaxedAutoImplicit false

namespace NodeScript.Command

/-- What is to be done. -/
inductive Request where
  | run (options : RunOptions)
  | inspect (path : Option String) (json : Bool)
  | upgrade (path output : Option String)
  | nodes
  | demo (output : String)
  | config
deriving Repr

/-- A request and the settings file that it names. -/
structure Invocation where
  settingsFile : Option String
  request : Request
deriving Repr

/-- The words of a command line by their role. -/
structure Words where
  plain : List String := []
  options : List (String × String) := []
  flags : List String := []
deriving DecidableEq, Repr

namespace Words

/-- The options with a value, by the words that stand for them. -/
def valued : List (String × String) :=
  [("--config", "config"), ("-c", "config"), ("--event", "event"), ("-e", "event"),
    ("--player", "player"), ("--text", "text"), ("--number", "number"), ("--repeat", "repeat"),
    ("--output", "output"), ("-o", "output")]

/-- A word in two, where it has an equals sign. -/
def assignment? (word : String) : Option (String × String) :=
  match word.toList.span (· != '=') with
  | (key, '=' :: value) => some (String.ofList key, String.ofList value)
  | _ => none

/-- The roles of words. -/
def scan : List String → Except String Words
  | [] => .ok {}
  | word :: rest =>
    if !word.startsWith "-" then do
      let words ← scan rest
      return { words with plain := word :: words.plain }
    else if word = "--json" then do
      let words ← scan rest
      return { words with flags := word :: words.flags }
    else
      match valued.lookup word, rest with
      | some key, value :: rest => do
        let words ← scan rest
        return { words with options := (key, value) :: words.options }
      | some _, [] => .error s!"{word} needs a value"
      | none, rest =>
        match assignment? word with
        | some (name, value) =>
          match valued.lookup name with
          | some key => do
            let words ← scan rest
            return { words with options := (key, value) :: words.options }
          | none => .error s!"unknown option {word}"
        | none => .error s!"unknown option {word}"

def option? (words : Words) (key : String) : Option String := words.options.lookup key

/-- The words have no options but these, and those that every command has. -/
def only (words : Words) (keys flags : List String) : Except String Unit :=
  match words.options.find? fun (key, _) => !("config" :: keys).contains key,
      words.flags.find? fun flag => !flags.contains flag with
  | some (key, _), _ => .error s!"the command has no option --{key}"
  | none, some flag => .error s!"the command has no option {flag}"
  | none, none => .ok ()

end Words

/-- At most one word. -/
def optional : List String → Except String (Option String)
  | [] => .ok none
  | [word] => .ok (some word)
  | _ :: word :: _ => .error s!"unexpected word {word}"

/-- The number that is given for an option, if there is one. -/
def numeric {α : Type} (words : Words) (key : String) (read : String → Option α) :
    Except String (Option α) :=
  match words.option? key with
  | none => .ok none
  | some text =>
    match read text with
    | some number => .ok (some number)
    | none => .error s!"--{key} needs a number"

def count? (text : String) : Option Nat :=
  match Decimal.int? text.toList with
  | some i => if 0 ≤ i then some i.toNat else none
  | none => none

/-- The request that words make. -/
def Request.ofWords (words : Words) : Except String Request :=
  match words.plain with
  | "run" :: rest => do
    words.only ["event", "player", "text", "number", "repeat"] []
    let some event := words.option? "event" | throw "run needs --event"
    let number ← numeric words "number" Decimal.parse?
    let repetitions ← numeric words "repeat" count?
    return .run {
      path := ← optional rest
      trigger :=
        { event, player := words.option? "player", text := words.option? "text", number }
      repetitions := repetitions.getD 1 }
  | "inspect" :: rest => do
    words.only [] ["--json"]
    return .inspect (← optional rest) (words.flags.contains "--json")
  | "upgrade" :: rest => do
    words.only ["output"] []
    return .upgrade (← optional rest) (words.option? "output")
  | ["nodes"] => do
    words.only [] []
    return .nodes
  | ["demo", output] => do
    words.only [] []
    return .demo output
  | ["config"] => do
    words.only [] []
    return .config
  | _ => .error "expected a command: run, inspect, upgrade, nodes, demo or config"

def Invocation.ofArguments (arguments : List String) : Except String Invocation := do
  let words ← Words.scan arguments
  return { settingsFile := words.option? "config", request := ← Request.ofWords words }

variable {m : Type → Type} [Monad m] [Workspace m]

/-- Does what is requested. -/
def Request.perform (fuel : Nat) (settings : Settings) : Request → Command m Unit
  | .run options => Command.run fuel settings options
  | .inspect path json => Command.inspect settings path json
  | .upgrade path output => Command.upgrade settings path output
  | .nodes => Command.nodes
  | .demo output => Command.demo output
  | .config => Command.config settings

end NodeScript.Command
