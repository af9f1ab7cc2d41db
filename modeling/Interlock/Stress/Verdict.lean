import Interlock.Report.Basic
import Interlock.Stress.Timeline

/-!
# Verdicts

What a run says about its target. In a run of fixed length the counter must end at the number of
planned calls (`fixedVerdict`), in a run for a while at the number of successful ones
(`durationVerdict`). Updates that the counter has lost, or has too many of, count as failures
(`reconcile`).
-/

namespace Interlock.Stress

/-- What a run has left behind. -/
structure Outcome where
  attempted : List Nat
  succeeded : List Nat
  /-- The workers that stopped before the deadline. -/
  finished : List Bool
  /-- What kept each worker from starting. -/
  spawnErrors : List (Option String) := finished.map fun _ => none
  failures : List String
  elapsed : Duration
  deriving Repr, Inhabited

namespace Outcome

/-- What a timeline has left behind. -/
def ofTimeline (pace : Pace) (t : Timeline) : Outcome where
  attempted := t.world.workers.map Worker.attempted
  succeeded := t.world.workers.map Worker.succeeded
  finished := t.world.workers.map Worker.finished
  failures := t.world.failures
  elapsed := ⟨t.elapsed pace⟩

/-- The number of workers that could not be started. -/
def unstarted (o : Outcome) : Nat := (o.spawnErrors.filter Option.isSome).length

/-- The number of workers that were started and had not stopped by the deadline. -/
def timedOut (o : Outcome) : Nat :=
  ((o.finished.zip o.spawnErrors).filter fun w => !w.1 && w.2.isNone).length

/-- The successful calls of the workers that stopped. -/
def succeededByFinished (o : Outcome) : Nat :=
  ((o.succeeded.zip o.finished).filterMap fun p => if p.2 then some p.1 else none).foldr (· + ·) 0

end Outcome

/-- The number of successful calls once updates that were lost, or made too often, are taken off. -/
def reconcile (completed expected : Nat) : Option Nat → Nat
  | some observed =>
    if observed ≤ expected then min completed observed else completed - (observed - expected)
  | none => completed

/-- Calls a second. -/
def rate (completed : Nat) (elapsed : Duration) : Float :=
  let seconds := elapsed.seconds
  if seconds > 0 then completed.toUInt64.toFloat / seconds else 0

/-- The plan of a run of fixed length. -/
structure StressConfig where
  threads : Nat
  iterations : Nat
  timeout : Duration
  deriving DecidableEq, Repr, Inhabited

/-- The number of planned calls. -/
def StressConfig.total (c : StressConfig) : Nat := c.threads * c.iterations

/-- What is said about the workers that could not be started or did not stop in time. -/
def unfinishedDetails (c : StressConfig) (o : Outcome) : List String :=
  (o.finished.zip o.spawnErrors).zipIdx.filterMap fun w =>
    match w.1.2 with
    | some error =>
      some <| s!"worker {w.2}: failed to spawn ({error}); " ++
        s!"{c.iterations} planned iterations counted as failed"
    | none =>
      if w.1.1 then none
      else
        some <| s!"worker {w.2}: did not finish within {c.timeout.text}; " ++
          s!"{c.iterations} planned iterations counted as failed"

/-- The verdict on a run of fixed length. -/
def fixedVerdict (c : StressConfig) (o : Outcome) (observed : Option Nat) : TestResult :=
  let completed := o.succeededByFinished
  let successful := reconcile completed c.total observed
  let failed := c.total - successful
  let lost :=
    match observed with
    | some n =>
      if n = c.total then []
      else
        let difference : Int := c.total - n
        [s!"shared state ended at {n} but {c.total} updates were expected ({difference} lost)"]
    | none => []
  { totalIterations := c.total
    successful
    failed
    raceDetected := decide (failed > 0) || !o.failures.isEmpty
    failureDetails := o.failures ++ unfinishedDetails c o ++ lost
    duration := o.elapsed
    operationsPerSecond := rate completed o.elapsed
    threads := c.threads
    iterationsPerThread := c.iterations
    expectedValue := observed.map fun _ => c.total
    observedValue := observed
    timedOutWorkers := o.timedOut }

/-- The verdict on a run for a while. -/
def durationVerdict (threads : Nat) (o : Outcome) (observed : Option Nat) : TestResult :=
  let total := o.attempted.foldr (· + ·) 0
  let completed := o.succeeded.foldr (· + ·) 0
  -- workers that are still running may have been counted between the two sums
  let successful := min (reconcile completed completed observed) total
  let failed := total - successful
  let lost :=
    match observed with
    | some n =>
      if n = completed then []
      else [s!"shared state ended at {n} after {completed} successful calls"]
    | none => []
  let unstarted :=
    if o.unstarted > 0 then [s!"{o.unstarted} workers failed to spawn"] else []
  let late :=
    if o.timedOut > 0 then [s!"{o.timedOut} workers were still running after the grace period"]
    else []
  { totalIterations := total
    successful
    failed
    raceDetected := decide (failed > 0) || !o.failures.isEmpty
    failureDetails := o.failures ++ lost ++ unstarted ++ late
    duration := o.elapsed
    operationsPerSecond := rate completed o.elapsed
    threads
    iterationsPerThread := total / threads
    expectedValue := observed.map fun _ => completed
    observedValue := observed
    timedOutWorkers := o.timedOut }

end Interlock.Stress
