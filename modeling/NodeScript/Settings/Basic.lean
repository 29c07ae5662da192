import NodeScript.Dict

/-!
The settings of the program: what each is where nothing is given, and how they are made from named
values, of which those with unknown names do not count.
-/

set_option autoImplicit false
set_option relaxedAutoImplicit false

namespace NodeScript

/-- The form of log lines. -/
inductive LogFormat where
  | pretty
  | json
deriving DecidableEq, Inhabited, Repr

def LogFormat.word : LogFormat → String
  | pretty => "pretty"
  | json => "json"

def LogFormat.ofWord? : String → Option LogFormat
  | "pretty" => some pretty
  | "json" => some json
  | _ => none

structure Settings where
  logFilter : String := "wiregraph=info,blueprint=info"
  logFormat : LogFormat := .pretty
  /-- The graph of commands that are given none. -/
  graph : Option String := none
  /-- The number of runs at one time. -/
  workers : Nat := 4
  /-- Whether a file that is changed in place is kept under another name. -/
  backupOnUpgrade : Bool := true
  maxCallDepth : Nat := 256
deriving DecidableEq, Inhabited, Repr

namespace Settings

/-- The names of the settings. -/
def keys : List String :=
  ["log_filter", "log_format", "graph", "workers", "backup_on_upgrade", "max_call_depth"]

/-- A named value that is given for a setting. -/
inductive Given where
  | absent
  | text (s : String)
  | integer (i : Int)
  | truth (b : Bool)
  /-- The name of one of some choices, and nothing with it. -/
  | choice (name : String)
  /-- A value that no setting takes. -/
  | other
deriving DecidableEq, Repr

namespace Given

def text? : Given → Option String
  | text s => some s
  | _ => none

/-- A form of log lines, as a text or as a choice. -/
def logFormat? : Given → Option LogFormat
  | text word | choice word => LogFormat.ofWord? word
  | _ => none

/-- A number that fits into 64 bits without sign. -/
def count? : Given → Option Nat
  | integer i => if 0 ≤ i ∧ i < 0x10000000000000000 then some i.toNat else none
  | _ => none

def truth? : Given → Option Bool
  | truth b => some b
  | _ => none

end Given

/-- The value of a setting: the default where none is given, nothing where a wrong one is. -/
def choose {α : Type} (given : List (String × Given)) (key : String) (default : α)
    (read : Given → Option α) : Option α :=
  match given.lookup key with
  | none => some default
  | some value => read value

/-- Settings from named values, or nothing where one of them is of the wrong form. -/
def ofGiven? (given : List (String × Given)) : Option Settings := do
  let standard : Settings := {}
  return {
    logFilter := ← choose given "log_filter" standard.logFilter Given.text?
    logFormat := ← choose given "log_format" standard.logFormat Given.logFormat?
    graph := ← choose given "graph" standard.graph fun
      | .absent => some none
      | value => value.text?.map some
    workers := ← choose given "workers" standard.workers Given.count?
    backupOnUpgrade := ← choose given "backup_on_upgrade" standard.backupOnUpgrade Given.truth?
    maxCallDepth := ← choose given "max_call_depth" standard.maxCallDepth Given.count? }

end Settings

end NodeScript
