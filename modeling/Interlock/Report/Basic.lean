import Interlock.Duration
import Interlock.Finding.Run
import Interlock.Finding.Summary
import Interlock.LockOrder.Analysis
import Interlock.Race.State

/-!
# Reports

What the commands report: the races of some files (`RaceReport`), their deadlocks
(`DeadlockReport`), the outcome of a stress test of fixed length (`TestResult`) and of one that runs
for a while (`StressReport`). `OutputFormat` says how a report is written.
-/

namespace Interlock

/-- How a report is written. -/
inductive OutputFormat where
  | text
  | json
  deriving DecidableEq, Repr, Inhabited

namespace OutputFormat

def name : OutputFormat → String
  | text => "text"
  | json => "json"

/-- The format with this name or one of its other names, in any case. -/
def parse? (s : String) : Option OutputFormat :=
  let s := Text.lowercase s
  if s = "text" ∨ s = "txt" ∨ s = "terminal" then some text
  else if s = "json" then some json
  else none

/-- What is said about a name that is no format. -/
def unknownMessage (s : String) : String := s!"Unknown format '{s}'. Valid formats: text, json"

end OutputFormat

/-- The races found in some files. -/
structure RaceReport where
  races : List Race
  summary : Summary
  diagnostics : List Diagnostic
  filesAnalyzed : Nat
  sharedStates : Nat
  deriving DecidableEq, Repr, Inhabited

/-- The deadlocks found in some files. -/
structure DeadlockReport where
  deadlocks : List Deadlock
  diagnostics : List Diagnostic
  filesAnalyzed : Nat
  locks : Nat
  lockPairs : Nat
  deriving DecidableEq, Repr, Inhabited

/-- The outcome of a stress test. -/
structure TestResult where
  totalIterations : Nat
  successful : Nat
  failed : Nat
  raceDetected : Bool
  failureDetails : List String
  duration : Duration
  operationsPerSecond : Float
  threads : Nat
  iterationsPerThread : Nat
  /-- The value of the counter if no update is lost. -/
  expectedValue : Option Nat
  observedValue : Option Nat
  timedOutWorkers : Nat
  deriving Repr, Inhabited

/-- Whether every iteration either succeeded or failed. -/
def TestResult.isConsistent (r : TestResult) : Bool :=
  r.totalIterations = r.successful + r.failed

/-- The outcome of a stress test that ran for a while. -/
structure StressReport where
  result : TestResult
  peakMemoryBytes : Option Nat
  throughput : Float
  deriving Repr, Inhabited

end Interlock
