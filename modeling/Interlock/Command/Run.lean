import Interlock.Command.Basic
import Interlock.Files.Collect
import Interlock.Race.Analysis
import Interlock.Report.Render
import Interlock.Settings.Load
import Interlock.Settings.Sample
import Interlock.Stress.Tester

/-!
# Running commands

`Command.run` carries out a command on a file system. A command ends with what it prints and an exit
code: 0 if nothing was found, 1 if something was, and 2 if it could not be carried out
(`CommandError`), in which case no file changes.
-/

namespace Interlock

open Files Stress

namespace Command

/-- Why a command cannot be carried out. -/
inductive CommandError where
  | missingPath (path : String) (cause : AccessError)
  | notDirectory (path : String)
  | uncollected (cause : CollectError)
  | unknownFormat (name : String)
  | unknownSeverity (name : String)
  | unwritten (path : String) (cause : AccessError)
  | uncreated (path : String) (cause : AccessError)
  | unknownTarget (spec : String)
  | untested (cause : StressError)
  deriving Repr, Inhabited

def CommandError.message : CommandError → String
  | missingPath path cause => s!"Path does not exist: {path}: {cause.message}"
  | notDirectory path => s!"Path is not a directory: {path}"
  | uncollected cause => cause.message
  | unknownFormat name => OutputFormat.unknownMessage name
  | unknownSeverity name => Severity.unknownMessage name
  | unwritten path cause => s!"Failed to write report to {path}: {cause.message}"
  | uncreated path cause => s!"Failed to create {path}: {cause.message}"
  | unknownTarget spec =>
    let known := ", ".intercalate Target.available
    s!"{(StressError.unknownTarget spec).message}. Available targets: {known}"
  | untested cause => cause.message

/-- What a command prints, and its exit code. -/
structure Outcome where
  exitCode : Nat
  stdout : String
  stderr : String
  deriving DecidableEq, Repr, Inhabited

/-- A command that can fail, with the file system that it leaves. -/
abbrev Attempt := Except CommandError (FileSystem × Outcome)

/-! ## What commands share -/

/-- The format of a report: the one asked for, or that of the settings, or text. -/
def formatOf (asked : Option OutputFormat) (display : DisplaySettings) :
    Except CommandError OutputFormat :=
  match asked, display.format with
  | some f, _ => .ok f
  | none, none => .ok .text
  | none, some name =>
    match OutputFormat.parse? name with
    | some f => .ok f
    | none => .error (.unknownFormat name)

/-- The least severity that counts: the one asked for, or that of the settings, or the lowest. -/
def thresholdOf (asked : Option Severity) (display : DisplaySettings) :
    Except CommandError Severity :=
  match asked, display.severity with
  | some s, _ => .ok s
  | none, none => .ok .low
  | none, some name =>
    match Severity.parse? name with
    | some s => .ok s
    | none => .error (.unknownSeverity name)

/-- The absolute path of what is to be looked at. -/
def locate (fs : FileSystem) (path : String) : Except CommandError String :=
  (fs.canonical path).mapError (.missingPath path)

/-- A project with its source files. -/
structure Project where
  settings : Settings
  sources : Sources
  deriving Inhabited

/-- Reads the settings and the source files at a path. -/
def openProject (fs : FileSystem) (path : String) : Except CommandError Project := do
  let path ← locate fs path
  let settings := Settings.load fs path
  let files ← (collect fs path settings.exclude).mapError .uncollected
  return ⟨settings, readSources fs files⟩

/-- Prints a report or writes it to a file. -/
def emit (fs : FileSystem) (report : String) (output : Option String) : Attempt :=
  match output with
  | none => .ok (fs, ⟨0, s!"{report}\n", ""⟩)
  | some path =>
    match fs.write path report with
    | .ok fs => .ok (fs, ⟨0, "", s!"Report written to: {path}\n"⟩)
    | .error cause => .error (.unwritten path cause)

/-- Ends a command that found something. The reader of a text gets a note about it. -/
def Outcome.found (o : Outcome) (format : OutputFormat) (note : String) : Outcome :=
  { o with
    exitCode := 1
    stderr := if format = .text then s!"{o.stderr}✗ {note}\n" else o.stderr }

/-! ## Analyses -/

/-- The report on a run from a severity on, given the diagnostics on files that were not read and
the number of shared states. -/
def reportOn (unread : List Diagnostic) (run : Run Race) (states : Nat) (threshold : Severity) :
    RaceReport :=
  let races := run.findings.filter fun r => threshold ≤ r.severity
  { races
    summary := .ofSeverities (races.map Race.severity)
    diagnostics := unread ++ run.diagnostics
    filesAnalyzed := run.analyzed
    sharedStates := states }

/-- The report on the races of a project from a severity on. -/
def raceReport (p : Project) (threshold : Severity) : RaceReport :=
  let (run, states) := RaceAnalysis.run p.settings.race p.sources.units
  reportOn p.sources.diagnostics run states threshold

/-- The report on the deadlocks of a project. -/
def deadlockReport (p : Project) : DeadlockReport :=
  let (run, g) := LockOrder.run p.settings.lockOrder p.sources.units
  { deadlocks := run.findings
    diagnostics := p.sources.diagnostics ++ run.diagnostics
    filesAnalyzed := run.analyzed
    locks := g.locks.length
    lockPairs := g.edgeCount }

/-- Delivers a report on races, which may have some from a severity on. -/
def deliverRaces (fs : FileSystem) (report : RaceReport) (threshold : Severity)
    (format : OutputFormat) (output : Option String) : Attempt := do
  let (fs, outcome) ← emit fs (report.render format) output
  let count := report.summary.atOrAbove threshold
  if count = 0 then return (fs, outcome)
  return (fs, outcome.found format s!"{count} race condition(s) at or above {threshold.name}")

def runCheck (fs : FileSystem) (path : String) (severity : Option Severity)
    (format : Option OutputFormat) (output : Option String) : Attempt := do
  let project ← openProject fs path
  let format ← formatOf format project.settings.display
  let threshold ← thresholdOf severity project.settings.display
  deliverRaces fs (raceReport project threshold) threshold format output

def runDeadlock (fs : FileSystem) (path : String) (format : Option OutputFormat)
    (output : Option String) : Attempt := do
  let project ← openProject fs path
  let format ← formatOf format project.settings.display
  let report := deadlockReport project
  let (fs, outcome) ← emit fs (report.render format) output
  if report.deadlocks.isEmpty then return (fs, outcome)
  return (fs, outcome.found format s!"{report.deadlocks.length} potential deadlock(s)")

/-! ## Settings -/

def runInit (fs : FileSystem) (path : String) : Attempt := do
  let dir ← locate fs path
  if !fs.isDir dir then throw (.notDirectory dir)
  let file := Path.join dir Settings.tomlFile
  if fs.exists? file then return (fs, ⟨0, s!"✓ Already initialized at {file}\n", ""⟩)
  let fs ← (fs.write file Settings.sample).mapError (.uncreated file)
  let next :=
    "\nNext steps:\n" ++
    "  repotoire-concurrency concurrency check . Find unsynchronized shared state\n" ++
    "  repotoire-concurrency concurrency deadlock . Find lock-order cycles\n"
  return (fs, ⟨0, s!"✓ Created {file}\n{next}", ""⟩)

/-! ## Stress tests -/

def resolve (spec : String) : Except CommandError Target :=
  match Target.resolve? spec with
  | some t => .ok t
  | none => .error (.unknownTarget spec)

/-- Ends a stress test. -/
def testOutcome (fs : FileSystem) (report : String) (raceDetected : Bool) (format : OutputFormat) :
    Attempt := do
  let (fs, outcome) ← emit fs report none
  return (fs, if raceDetected then outcome.found format "race detected" else outcome)

def runRace (fs : FileSystem) (spec : String) (threads iterations : Option Nat)
    (timeout : Option Float) (format : Option OutputFormat) : Attempt := do
  let settings := Settings.load fs "."
  let format ← formatOf format settings.display
  let target ← resolve spec
  let result ← Except.mapError CommandError.untested do
    let config ← StressConfig.ofSeconds (threads.getD settings.stress.threads)
      (iterations.getD settings.stress.iterations) (timeout.getD settings.stress.timeoutSecs)
    match target with
    | .function _ => test target.call config
    | .method name => testMethod counterService name config
  testOutcome fs (result.render format) result.raceDetected format

def runStress (fs : FileSystem) (spec : String) (threads : Option Nat) (duration : Float)
    (format : Option OutputFormat) : Attempt := do
  let settings := Settings.load fs "."
  let format ← formatOf format settings.display
  let target ← resolve spec
  let report ← Except.mapError CommandError.untested do
    let duration ← (Duration.ofSeconds? duration).mapError .badDuration
    let usual := Tester.ofSettings settings.stress
    let tester := { usual with threads := threads.getD settings.stress.threads }
    match target with
    | .function _ => tester.testFor target.call duration
    | .method name => tester.testMethodFor counterService name duration
  testOutcome fs (report.render format) report.result.raceDetected format

/-! ## Commands -/

/-- Carries out a command, or says why that is not possible. -/
def attempt (fs : FileSystem) : Command → Attempt
  | init path => runInit fs path
  | check path severity format output => runCheck fs path severity format output
  | deadlock path format output => runDeadlock fs path format output
  | race target threads iterations timeout format =>
    runRace fs target threads iterations timeout format
  | stress target threads duration format => runStress fs target threads duration format

/-- The files that a command may write. -/
def writes : Command → List String
  | init path => [Path.join path Settings.tomlFile]
  | check _ _ _ output => output.toList
  | deadlock _ _ output => output.toList
  | race _ _ _ _ _ => []
  | stress _ _ _ _ => []

/-- Carries out a command. -/
def run (fs : FileSystem) (c : Command) : FileSystem × Outcome :=
  match c.attempt fs with
  | .ok result => result
  | .error e => (fs, ⟨2, "", s!"Error: {e.message}\n"⟩)

end Command

end Interlock
