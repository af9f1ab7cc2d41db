import Interlock.Data.Record
import Interlock.Report.Basic

/-!
# Reading reports

`ofValue?` reads each part of a report back from its fields. Lines have 32 bits, counts 64.
-/

namespace Interlock

open Data

def AccessPoint.ofValue? (v : Value) : Option AccessPoint := do
  let [kind, path, line, lockHeld, routine, rmw, receiver, protection] ←
    v.slots? .exact ["kind", "file_path", "line_number", "lock_held", "routine",
      "read_modify_write", "receiver", "protection"] | none
  return {
    kind := ← kind.required (Value.choice? AccessKind.ofName?)
    path := ← path.required Value.text?
    line := ← line.required Value.line?
    lockHeld := ← lockHeld.required Value.bool?
    routine := ← routine.required Value.text?
    readModifyWrite := ← rmw.orDefault false Value.bool?
    receiver := ← receiver.orDefault none (Value.nullable? Value.text?)
    protection := ← protection.orDefault none (Value.nullable? Value.text?) }

def SharedState.ofValue? (v : Value) : Option SharedState := do
  let [name, path, line, accessType, isProtected, lockName, points] ←
    v.slots? .exact ["name", "file_path", "line_number", "access_type", "protected", "lock_name",
      "access_points"] | none
  return {
    name := ← name.required Value.text?
    path := ← path.required Value.text?
    line := ← line.required Value.line?
    accessType := ← accessType.required (Value.choice? AccessType.ofName?)
    isProtected := ← isProtected.required Value.bool?
    lockName := ← lockName.optional Value.text?
    points := ← points.required (Value.list? AccessPoint.ofValue?) }

def Race.ofValue? (v : Value) : Option Race := do
  let [id, state, severity, description, suggestion, points] ←
    v.slots? .exact ["id", "shared_state", "severity", "description", "suggestion",
      "access_points"] | none
  return {
    id := ← id.required Value.text?
    state := ← state.required SharedState.ofValue?
    severity := ← severity.required (Value.choice? Severity.ofName?)
    description := ← description.required Value.text?
    suggestion := ← suggestion.required Value.text?
    points := ← points.required (Value.list? AccessPoint.ofValue?) }

def AcquisitionSite.ofValue? (v : Value) : Option AcquisitionSite := do
  let [held, acquired, path, line, routine] ←
    v.slots? .exact ["held", "acquired", "file_path", "line_number", "routine"] | none
  return {
    held := ← held.required Value.text?
    acquired := ← acquired.required Value.text?
    path := ← path.required Value.text?
    line := ← line.required Value.line?
    routine := ← routine.required Value.text? }

def Deadlock.ofValue? (v : Value) : Option Deadlock := do
  let [id, locks, severity, description, suggestion, sites] ←
    v.slots? .exact ["id", "locks", "severity", "description", "suggestion",
      "acquisition_sites"] | none
  return {
    id := ← id.required Value.text?
    locks := ← locks.required (Value.list? Value.text?)
    severity := ← severity.required (Value.choice? Severity.ofName?)
    description := ← description.required Value.text?
    suggestion := ← suggestion.required Value.text?
    sites := ← sites.required (Value.list? AcquisitionSite.ofValue?) }

def Diagnostic.ofValue? (v : Value) : Option Diagnostic := do
  let [path, line, kind, message] ←
    v.slots? .exact ["file_path", "line_number", "kind", "message"] | none
  return {
    path := ← path.required Value.text?
    line := ← line.optional Value.line?
    kind := ← kind.required (Value.choice? DiagnosticKind.ofName?)
    message := ← message.required Value.text? }

def Summary.ofValue? (v : Value) : Option Summary := do
  let [critical, high, medium, low, total] ←
    v.slots? .exact ["critical", "high", "medium", "low", "total"] | none
  return {
    critical := ← critical.required Value.word?
    high := ← high.required Value.word?
    medium := ← medium.required Value.word?
    low := ← low.required Value.word?
    total := ← total.required Value.word? }

def RaceReport.ofValue? (v : Value) : Option RaceReport := do
  let [races, summary, diagnostics, filesAnalyzed, sharedStates] ←
    v.slots? .exact ["race_conditions", "summary", "diagnostics", "files_analyzed",
      "shared_states"] | none
  return {
    races := ← races.required (Value.list? Race.ofValue?)
    summary := ← summary.required Summary.ofValue?
    diagnostics := ← diagnostics.required (Value.list? Diagnostic.ofValue?)
    filesAnalyzed := ← filesAnalyzed.required Value.word?
    sharedStates := ← sharedStates.required Value.word? }

def DeadlockReport.ofValue? (v : Value) : Option DeadlockReport := do
  let [deadlocks, diagnostics, filesAnalyzed, locks, lockPairs] ←
    v.slots? .exact ["deadlocks", "diagnostics", "files_analyzed", "locks", "lock_pairs"] | none
  return {
    deadlocks := ← deadlocks.required (Value.list? Deadlock.ofValue?)
    diagnostics := ← diagnostics.required (Value.list? Diagnostic.ofValue?)
    filesAnalyzed := ← filesAnalyzed.required Value.word?
    locks := ← locks.required Value.word?
    lockPairs := ← lockPairs.required Value.word? }

/-- Reads seconds. -/
def Duration.ofValue? (v : Value) : Option Duration := do
  (Duration.ofSeconds? (← v.float?)).toOption

def TestResult.ofValue? (v : Value) : Option TestResult := do
  let [total, successful, failed, raceDetected, details, duration, rate, threads, perThread,
      expected, observed, timedOut] ←
    v.slots? .exact ["total_iterations", "successful", "failed", "race_detected",
      "failure_details", "duration", "operations_per_second", "threads", "iterations_per_thread",
      "expected_value", "observed_value", "timed_out_workers"] | none
  return {
    totalIterations := ← total.required Value.word?
    successful := ← successful.required Value.word?
    failed := ← failed.required Value.word?
    raceDetected := ← raceDetected.required Value.bool?
    failureDetails := ← details.required (Value.list? Value.text?)
    duration := ← duration.required Duration.ofValue?
    operationsPerSecond := ← rate.required Value.float?
    threads := ← threads.orDefault 0 Value.word?
    iterationsPerThread := ← perThread.orDefault 0 Value.word?
    expectedValue := ← expected.orDefault none (Value.nullable? Value.word?)
    observedValue := ← observed.orDefault none (Value.nullable? Value.word?)
    timedOutWorkers := ← timedOut.orDefault 0 Value.word? }

def StressReport.ofValue? (v : Value) : Option StressReport := do
  let [result, peak, throughput] ←
    v.slots? .exact ["result", "peak_memory_bytes", "throughput"] | none
  return {
    result := ← result.required TestResult.ofValue?
    peakMemoryBytes := ← peak.optional Value.word?
    throughput := ← throughput.required Value.float? }

end Interlock
