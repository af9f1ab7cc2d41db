import Interlock.Command.Scan
import Interlock.Finding.Severity
import Interlock.Report.Basic

/-!
# Commands

`Command` lists what the program can be asked to do, and `Invocation.parse` reads a command line.
-/

namespace Interlock

/-- What the program is asked to do. -/
inductive Command where
  /-- Write an example of the settings. -/
  | init (path : String)
  /-- Look for races. -/
  | check (path : String) (severity : Option Severity) (format : Option OutputFormat)
      (output : Option String)
  /-- Look for deadlocks. -/
  | deadlock (path : String) (format : Option OutputFormat) (output : Option String)
  /-- Call a target a fixed number of times on each thread. -/
  | race (target : String) (threads iterations : Option Nat) (timeout : Option Float)
      (format : Option OutputFormat)
  /-- Call a target for a while. -/
  | stress (target : String) (threads : Option Nat) (duration : Float)
      (format : Option OutputFormat)
  deriving Repr, Inhabited

namespace Command

namespace Level

def text? (l : Level) (a : ArgSpec) : Option String :=
  match l.value? a with
  | some (.text s) => some s
  | _ => none

def count? (l : Level) (a : ArgSpec) : Option Nat :=
  match l.value? a with
  | some (.count n) => some n
  | _ => none

def seconds? (l : Level) (a : ArgSpec) : Option Float :=
  match l.value? a with
  | some (.seconds x) => some x
  | _ => none

/-- The text of an argument that has to be given. -/
def required (l : Level) (a : ArgSpec) : Except UsageError String :=
  match l.text? a with
  | some s => .ok s
  | none => .error .missingArgument

def format? (l : Level) : Option OutputFormat := (l.text? formatOption).bind OutputFormat.parse?

/-- The command that an action with its arguments stands for. -/
def command (l : Level) : Action → Except UsageError Command
  | .init => .ok (.init ((l.text? pathOperand).getD "."))
  | .check => do
    let path ← l.required pathOperand
    return .check path ((l.text? severityOption).bind Severity.ofName?) l.format?
      (l.text? outputOption)
  | .deadlock => do
    let path ← l.required pathOperand
    return .deadlock path l.format? (l.text? outputOption)
  | .race => do
    let target ← l.required targetOption
    return .race target (l.count? threadsOption) (l.count? iterationsOption)
      (l.seconds? timeoutOption) l.format?
  | .stress => do
    let target ← l.required targetOption
    return .stress target (l.count? threadsOption) ((l.seconds? durationOption).getD 5) l.format?

end Level

/-- A command line that has been read. -/
structure Invocation where
  logLevel : String
  command : Command
  deriving Repr, Inhabited

/-- Reads a command line. The levels are settled from the innermost to the outermost. How much is
logged is said by the innermost command that says it. -/
def Invocation.parse (words : List String) : Except UsageError Invocation := do
  let s ← Scan.run words
  match s.level.spec with
  | .group _ _ _ =>
    let inner ← s.level.settle
    throw inner.unfinished
  | .action _ action _ _ =>
    let inner ← s.level.settle
    let command ← inner.command action
    let outer ← s.outer.mapM Level.settle
    let level := (inner :: outer).findSome? fun l => l.text? logLevelOption
    return ⟨level.getD "warn", command⟩

end Command

end Interlock
