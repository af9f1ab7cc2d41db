import Interlock.Finding.Run
import Interlock.Flow.Statement
import Interlock.Path.Basic
import Interlock.Race.Table
import Interlock.Settings.Basic
import Interlock.Text.Basic

/-!
# The race analysis

`RaceAnalysis.states` lists the shared states of a unit with what protects each access, and
`RaceAnalysis.races` reports each state with a write that nothing protects. If other writes of the
same state are synchronised, the race is described as inconsistent locking.
-/

namespace Interlock.RaceAnalysis

open Syntax

def analyzer : Analyzer where
  name := "SharedStateAnalyzer"
  description := "Detects shared mutable attributes written without synchronization"
  category := "concurrency"

/-! ## Shared states -/

/-- Whether the accesses of a unit are to be judged as if threads were about. -/
def isConcurrent (settings : RaceSettings) (u : SourceUnit) (t : StateTable) : Bool :=
  settings.assumeConcurrent || t.sawLock || importsConcurrency u.tree

/-- The shared states of a unit, whether or not it can be trusted. -/
def statesOf (settings : RaceSettings) (u : SourceUnit) : List TrackedState :=
  let table := StateTable.ofEvents (walk .must ⟨settings.lockNames⟩ u)
  table.states u.path (isConcurrent settings u table)

/-- The shared states of a unit. -/
def states (settings : RaceSettings) (u : SourceUnit) : Except Refusal (List TrackedState) := do
  u.check
  return statesOf settings u

/-! ## Texts -/

/-- Some line numbers in order, each once. -/
def lineList (lines : List Nat) : String :=
  let sorted := (lines.mergeSort fun a b => decide (a ≤ b)).eraseDups
  let joined := ", ".intercalate (sorted.map toString)
  if sorted.length = 1 then s!"line {joined}" else s!"lines {joined}"

/-- What to do about a race, given the lock seen on other writes. -/
def suggestion (name receiver : String) (lock : Option String) (readModifyWrite : Bool) : String :=
  let target := s!"{receiver}.{Text.leaf name}"
  match lock with
  | some lock =>
    if Text.contains lock ".@" then
      s!"Apply `{Text.leaf lock}` to every method that writes `{target}`, or guard those " ++
        "writes with an explicit lock."
    else
      let guard :=
        match Text.splitLast? lock with
        | some (_, attr) => s!"{receiver}.{attr}"
        | none => lock
      s!"Hold `{guard}` around every write to `{target}` (`with {guard}:`), " ++
        "including the paths that currently skip it."
  | none =>
    if readModifyWrite then
      s!"`{target}` is updated with a read-modify-write. Wrap the update in " ++
        s!"`with {receiver}._lock:` using a `threading.Lock`, or switch to an atomic " ++
        "counter such as `itertools.count()`."
    else
      s!"Protect writes to `{target}` with a `threading.Lock` held for the whole " ++
        "update, or hand the data between threads through a `queue.Queue`."

/-- Whether the name of a state marks critical data. -/
def isCritical (settings : RaceSettings) (name : String) : Bool :=
  let attr := Text.lowercase (Text.leaf name)
  settings.criticalData.any fun fragment => Text.contains attr (Text.lowercase fragment)

/-! ## Races -/

/-- The writes of a state that nothing protects. -/
def unprotected (t : TrackedState) : List AccessPoint :=
  (t.writes.filter fun w => w.2.isNone).map Prod.fst

/-- The writes of a state that are synchronised, with how they are. -/
def synchronized (t : TrackedState) : List (AccessPoint × Protection) :=
  t.writes.filterMap fun w =>
    match w.2 with
    | some p => if p.synchronizes then some (w.1, p) else none
    | none => none

/-- The title and the description of a race. -/
def wording (t : TrackedState) : String × String :=
  let name := t.state.name
  let openLines := lineList ((unprotected t).map AccessPoint.line)
  let guarded := synchronized t
  if guarded.isEmpty then
    (s!"Unprotected write to {name}",
      s!"`{name}` is written without synchronization at {openLines} " ++
        s!"({(unprotected t).length} of {t.state.writes.length} writes unprotected).")
  else
    let guards := ", ".intercalate (Text.sortDistinct (guarded.map fun g => g.2.label))
    let guardedLines := lineList (guarded.map fun g => g.1.line)
    (s!"Inconsistent locking on {name}",
      s!"`{name}` is written with synchronization ({guards}) at {guardedLines} " ++
        s!"but without it at {openLines}. " ++
        "The unguarded writes can interleave with the guarded ones.")

/-- The race on a state, if one of its writes is unprotected. -/
def race? (settings : RaceSettings) (t : TrackedState) : Option Race :=
  let writes := unprotected t
  if writes.isEmpty then none
  else
    let s := t.state
    let risk : Risk := {
      writePresent := true
      highFrequency := s.points.length > settings.frequencyThreshold
      criticalData := isCritical settings s.name
      unprotected := true }
    let (title, description) := wording t
    let receiver := (writes.findSome? AccessPoint.receiver).getD "self"
    some {
      id := findingId analyzer.name s.path s.line title
      state := s
      severity := risk.severity
      description
      suggestion := suggestion s.name receiver s.lockName (writes.any AccessPoint.readModifyWrite)
      points := s.points }

/-- The order of the races of one unit. -/
def compareRaces (a b : Race) : Ordering :=
  (compare a.state.line b.state.line).then (compare a.state.name b.state.name)

/-- The order of the races of many units. -/
def compareAcross (a b : Race) : Ordering :=
  (Path.compare a.state.path b.state.path).then (compareRaces a b)

/-- The races among some states, in order of their declaration. -/
def racesAmong (settings : RaceSettings) (states : List TrackedState) : List Race :=
  (states.filterMap (race? settings)).mergeSort fun a b => (compareRaces a b).isLE

/-- The races of a unit. -/
def races (settings : RaceSettings) (u : SourceUnit) : Except Refusal (List Race) :=
  (states settings u).map (racesAmong settings)

/-- The races of a unit, in no order yet, with its shared states added to those counted before. -/
def visit (settings : RaceSettings) (count : Nat) (u : SourceUnit) :
    Except Refusal (List Race) × Nat :=
  match states settings u with
  | .error refusal => (.error refusal, count)
  | .ok states => (.ok (states.filterMap (race? settings)), count + states.length)

/-- The races of many units and the number of shared states in them. -/
def run (settings : RaceSettings) (units : List SourceUnit) : Run Race × Nat :=
  let (run, count) := Run.across (visit settings) 0 units
  ({ run with findings := run.findings.mergeSort fun a b => (compareAcross a b).isLE }, count)

end Interlock.RaceAnalysis
