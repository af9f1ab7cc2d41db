import Interlock.Command.Value

/-!
# The grammar of command lines

A command line is a path through groups of commands down to an action, with options on the way.
`program` lists all of them.
-/

namespace Interlock.Command

/-- An option or an operand. -/
structure ArgSpec where
  name : String
  short : Option Char
  kind : ArgKind
  deriving DecidableEq, Repr, Inhabited

/-- What a command does. -/
inductive Action where
  | init
  | check
  | deadlock
  | race
  | stress
  deriving DecidableEq, Repr, Inhabited

/-- A command: an action, or a group of commands. -/
inductive CommandSpec where
  | action (name : String) (action : Action) (options : List ArgSpec) (operand : Option ArgSpec)
  | group (name : String) (hasVersion : Bool) (members : List CommandSpec)
  deriving Inhabited

/-- How much is logged. -/
def logLevelOption : ArgSpec :=
  ⟨"log-level", none, .oneOf ["error", "warn", "info", "debug", "trace"]⟩

namespace CommandSpec

def name : CommandSpec → String
  | action name _ _ _ => name
  | group name _ _ => name

def members : CommandSpec → List CommandSpec
  | action _ _ _ _ => []
  | group _ _ members => members

/-- The options of a command. How much is logged can be said everywhere. -/
def options : CommandSpec → List ArgSpec
  | action _ _ options _ => logLevelOption :: options
  | group _ _ _ => [logLevelOption]

def operand? : CommandSpec → Option ArgSpec
  | action _ _ _ operand => operand
  | group _ _ _ => none

/-- Whether the command can be asked for its version. -/
def hasVersion : CommandSpec → Bool
  | action _ _ _ _ => false
  | group _ hasVersion _ => hasVersion

/-- The command that shows help on the other members of a group. -/
def helpMember : CommandSpec := group "help" false []

/-- The member of a group with a given name. -/
def member? (c : CommandSpec) (name : String) : Option CommandSpec :=
  match c.members with
  | [] => none
  | members => (members ++ [helpMember]).find? fun m => m.name = name

end CommandSpec

def formatOption : ArgSpec := ⟨"format", some 'f', .oneOf ["text", "json"]⟩

def outputOption : ArgSpec := ⟨"output", some 'o', .path⟩

def severityOption : ArgSpec := ⟨"severity", none, .oneOf ["critical", "high", "medium", "low"]⟩

def targetOption : ArgSpec := ⟨"target", none, .text⟩

def threadsOption : ArgSpec := ⟨"threads", none, .count⟩

def iterationsOption : ArgSpec := ⟨"iterations", none, .count⟩

def timeoutOption : ArgSpec := ⟨"timeout", none, .seconds⟩

def durationOption : ArgSpec := ⟨"duration", none, .seconds⟩

def pathOperand : ArgSpec := ⟨"path", none, .path⟩

/-- All commands. -/
def program : CommandSpec :=
  .group "" true [
    .action "init" .init [] pathOperand,
    .group "concurrency" false [
      .action "check" .check [severityOption, formatOption, outputOption] pathOperand,
      .action "deadlock" .deadlock [formatOption, outputOption] pathOperand],
    .group "test" false [
      .action "race" .race
        [targetOption, threadsOption, iterationsOption, timeoutOption, formatOption] none,
      .action "stress" .stress [targetOption, threadsOption, durationOption, formatOption] none]]

end Interlock.Command
