import Interlock.Data.Json.Printer
import Interlock.Report.Basic

/-!
# Reports as JSON

`toValue` gives each part of a report its fields with fixed names in a fixed order. An access point
leaves out its receiver if it has none; everything else that is absent is written as null.
-/

namespace Interlock

open Data

def AccessPoint.toValue (p : AccessPoint) : Value :=
  .table <|
    [("kind", .text p.kind.name), ("file_path", .text p.path), ("line_number", .ofNat p.line),
      ("lock_held", .bool p.lockHeld), ("routine", .text p.routine),
      ("read_modify_write", .bool p.readModifyWrite)] ++
    (p.receiver.map fun r => ("receiver", Value.text r)).toList ++
    [("protection", .ofText? p.protection)]

def SharedState.toValue (s : SharedState) : Value :=
  .table
    [("name", .text s.name), ("file_path", .text s.path), ("line_number", .ofNat s.line),
      ("access_type", .text s.accessType.name), ("protected", .bool s.isProtected),
      ("lock_name", .ofText? s.lockName),
      ("access_points", .list (s.points.map AccessPoint.toValue))]

def Race.toValue (r : Race) : Value :=
  .table
    [("id", .text r.id), ("shared_state", r.state.toValue), ("severity", .text r.severity.name),
      ("description", .text r.description), ("suggestion", .text r.suggestion),
      ("access_points", .list (r.points.map AccessPoint.toValue))]

def AcquisitionSite.toValue (s : AcquisitionSite) : Value :=
  .table
    [("held", .text s.held), ("acquired", .text s.acquired), ("file_path", .text s.path),
      ("line_number", .ofNat s.line), ("routine", .text s.routine)]

def Deadlock.toValue (d : Deadlock) : Value :=
  .table
    [("id", .text d.id), ("locks", .list (d.locks.map .text)), ("severity", .text d.severity.name),
      ("description", .text d.description), ("suggestion", .text d.suggestion),
      ("acquisition_sites", .list (d.sites.map AcquisitionSite.toValue))]

def Diagnostic.toValue (d : Diagnostic) : Value :=
  .table
    [("file_path", .text d.path), ("line_number", .ofNat? d.line), ("kind", .text d.kind.name),
      ("message", .text d.message)]

def Summary.toValue (s : Summary) : Value :=
  .table
    [("critical", .ofNat s.critical), ("high", .ofNat s.high), ("medium", .ofNat s.medium),
      ("low", .ofNat s.low), ("total", .ofNat s.total)]

def RaceReport.toValue (r : RaceReport) : Value :=
  .table
    [("race_conditions", .list (r.races.map Race.toValue)), ("summary", r.summary.toValue),
      ("diagnostics", .list (r.diagnostics.map Diagnostic.toValue)),
      ("files_analyzed", .ofNat r.filesAnalyzed), ("shared_states", .ofNat r.sharedStates)]

def DeadlockReport.toValue (r : DeadlockReport) : Value :=
  .table
    [("deadlocks", .list (r.deadlocks.map Deadlock.toValue)),
      ("diagnostics", .list (r.diagnostics.map Diagnostic.toValue)),
      ("files_analyzed", .ofNat r.filesAnalyzed), ("locks", .ofNat r.locks),
      ("lock_pairs", .ofNat r.lockPairs)]

def TestResult.toValue (r : TestResult) : Value :=
  .table
    [("total_iterations", .ofNat r.totalIterations), ("successful", .ofNat r.successful),
      ("failed", .ofNat r.failed), ("race_detected", .bool r.raceDetected),
      ("failure_details", .list (r.failureDetails.map .text)),
      ("duration", .float r.duration.seconds),
      ("operations_per_second", .float r.operationsPerSecond), ("threads", .ofNat r.threads),
      ("iterations_per_thread", .ofNat r.iterationsPerThread),
      ("expected_value", .ofNat? r.expectedValue), ("observed_value", .ofNat? r.observedValue),
      ("timed_out_workers", .ofNat r.timedOutWorkers)]

def StressReport.toValue (r : StressReport) : Value :=
  .table
    [("result", r.result.toValue), ("peak_memory_bytes", .ofNat? r.peakMemoryBytes),
      ("throughput", .float r.throughput)]

end Interlock
