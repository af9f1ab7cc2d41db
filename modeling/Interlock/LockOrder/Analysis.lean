import Interlock.Finding.Run
import Interlock.Finding.Severity
import Interlock.Flow.Statement
import Interlock.LockOrder.Graph
import Interlock.Settings.Basic

/-!
# The lock-order analysis

All units feed one graph (`LockOrder.scan`): a lock taken while others are held gives an edge from
each of these, and so does a call of an own method for each lock that the method takes. Each cycle
of the graph is a way in which threads can block each other forever (`Deadlock`).
-/

namespace Interlock

open Syntax

/-- A cycle of locks, each taken somewhere while the one before it is held. -/
structure Deadlock where
  id : String
  /-- The locks in order; the last leads back to the first. -/
  locks : List String
  severity : Severity
  description : String
  suggestion : String
  /-- Where each lock is held and the next one taken. -/
  sites : List AcquisitionSite
  deriving DecidableEq, Repr, Inhabited

namespace LockOrder

def analyzer : Analyzer where
  name := "LockOrderAnalyzer"
  description := "Detects locks acquired in conflicting orders that can deadlock"
  category := "concurrency"

/-! ## Observations -/

/-- What an event shows by itself. -/
def direct (path : String) : Event → List Observation
  | .acquire r held lock line =>
    .lock lock :: held.names.map fun outer => .site ⟨outer, lock, path, line, r.name⟩
  | _ => []

/-- The lock that an event takes in a given method. -/
def takenIn? (method : String) : Event → Option String
  | .acquire r _ lock _ => if r.kind = .method ∧ r.name = method then some lock else none
  | _ => none

/-- The locks that a method takes, each once. -/
def locksTakenBy (events : List Event) (method : String) : List String :=
  (events.filterMap (takenIn? method)).eraseDups

/-- What an event shows together with the locks that a called method takes. -/
def byCall (path : String) (events : List Event) : Event → List Observation
  | .ownCall r held method line =>
    match r.owner with
    | none => []
    | some c =>
      let callee := s!"{c}.{method}"
      held.names.flatMap fun outer =>
        (locksTakenBy events callee).map fun lock =>
          .site ⟨outer, lock, path, line, s!"{r.name} -> {callee}"⟩
  | _ => []

/-- What a walk shows: first all that its events show by themselves, then the calls. -/
def observations (settings : LockOrderSettings) (path : String) (events : List Event) :
    List Observation :=
  events.flatMap (direct path) ++
    if settings.followOwnCalls then events.flatMap (byCall path events) else []

/-- Adds what a unit shows, and answers with the number of new edges. A unit that is refused adds
nothing. -/
def scan (settings : LockOrderSettings) (g : LockGraph) (u : SourceUnit) :
    Except Refusal Nat × LockGraph :=
  match u.check with
  | .error refusal => (.error refusal, g)
  | .ok _ =>
    let (added, g) := g.addAll (observations settings u.path (walk .may ⟨settings.lockNames⟩ u))
    (.ok added, g)

/-! ## Deadlocks -/

/-- Each lock of a cycle with the next one. -/
def cyclePairs (locks : List String) : List (String × String) :=
  locks.zip (locks.drop 1 ++ locks.take 1)

/-- A line on a site. -/
def siteLine (s : AcquisitionSite) : String :=
  s!"\n  - `{s.acquired}` taken while holding `{s.held}` in {s.routine} ({s.path}:{s.line})"

/-- The deadlock that a cycle stands for. -/
def deadlock (g : LockGraph) (locks : List String) : Deadlock :=
  let sites := (cyclePairs locks).filterMap fun p => g.site? p.1 p.2
  let first := locks.headD ""
  let round := " -> ".intercalate (locks ++ locks.take 1)
  let (file, line) :=
    match sites.head? with
    | some s => (s.path, s.line)
    | none => ("", 0)
  { id := findingId analyzer.name file line s!"Lock-order cycle {round}"
    locks
    severity := .critical
    description :=
      s!"Locks {round} are acquired in a circular order; threads following " ++
        "different edges of the cycle can block each other forever." ++
        String.join (sites.map siteLine)
    suggestion :=
      s!"Pick one global acquisition order (for example always `{first}` first) and " ++
        s!"follow it everywhere, or replace these {locks.length} locks with a single lock."
    sites }

/-- The deadlocks of a graph. -/
def deadlocks (g : LockGraph) : List Deadlock := g.cycles.map (deadlock g)

/-- Scans a unit. Nothing is found before all units have been scanned. -/
def visit (settings : LockOrderSettings) (g : LockGraph) (u : SourceUnit) :
    Except Refusal (List Deadlock) × LockGraph :=
  let (outcome, g) := scan settings g u
  (outcome.map fun _ => [], g)

/-- The deadlocks of many units, with their graph. -/
def run (settings : LockOrderSettings) (units : List SourceUnit) : Run Deadlock × LockGraph :=
  let (run, g) := Run.across (visit settings) .empty units
  ({ run with findings := deadlocks g }, g)

end LockOrder

end Interlock
