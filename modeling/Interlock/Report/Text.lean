import Interlock.Report.Basic

/-!
# Reports for the terminal

Each report is a header, a line of counts, its findings and its diagnostics. Colours are written as
escape sequences.
-/

namespace Interlock

open Number

namespace Terminal

def reset : String := "\x1b[0m"
def bold : String := "\x1b[1m"
def dim : String := "\x1b[2m"
def green : String := "\x1b[32m"
def red : String := "\x1b[31m"

/-- The colour of a severity. -/
def color : Severity → String
  | .critical => "\x1b[31m"
  | .high => "\x1b[91m"
  | .medium => "\x1b[33m"
  | .low => "\x1b[34m"

/-- The mark of a severity. -/
def tag : Severity → String
  | .critical => "[C]"
  | .high => "[H]"
  | .medium => "[M]"
  | .low => "[L]"

/-- A text filled up with blanks on the right. -/
def padRight (width : Nat) (s : String) : String :=
  s ++ String.ofList (List.replicate (width - s.length) ' ')

/-- The title of a report with a rule below it. -/
def header (title : String) : String :=
  s!"\n{bold}{title}{reset}\n{dim}──────────────────────────────────────{reset}\n"

/-- The counts of a summary that are not zero. -/
def counts (s : Summary) : String :=
  let part (n : Nat) (severity : Severity) : List String :=
    if n > 0 then [s!"{color severity}{n} {severity.name}{reset}"] else []
  " | ".intercalate <|
    part s.critical .critical ++ part s.high .high ++ part s.medium .medium ++ part s.low .low

/-- The word for a kind of diagnostic. -/
def diagnosticWord : DiagnosticKind → String
  | .readError => "ReadError"
  | .parseError => "ParseError"
  | .malformedUnit => "MalformedUnit"

/-- A diagnostic on one line. -/
def diagnostic (d : Diagnostic) : String :=
  let location :=
    match d.line with
    | some line => s!"{d.path}:{line}"
    | none => d.path
  s!"  {dim}{diagnosticWord d.kind}{reset}  {location}  {d.message}\n"

/-- The diagnostics of a report, if there are any. -/
def diagnosticList (ds : List Diagnostic) : String :=
  if ds.isEmpty then ""
  else
    s!"{bold}DIAGNOSTICS{reset} ({ds.length} skipped)\n" ++ String.join (ds.map diagnostic) ++ "\n"

/-! ## Races -/

/-- An access on one line. -/
def accessPoint (p : AccessPoint) : String :=
  let kind :=
    match p.kind with
    | .read => "read "
    | .write => "write"
  let guard :=
    match p.protection with
    | some protection => protection
    | none => if p.lockHeld then "locked" else s!"{red}unprotected{reset}"
  let line := padRight 5 (toString p.line)
  let routine := padRight 28 p.routine
  s!"    {dim}{kind} line {line} {routine}{reset} {guard}\n"

/-- A race with its accesses. -/
def race (r : Race) : String :=
  s!"{color r.severity}{tag r.severity}{reset} {bold}{r.state.name}{reset}  " ++
    s!"{dim}{r.state.path}:{r.state.line}  #{r.id}{reset}\n" ++
    s!"    {r.description}\n" ++
    String.join (r.points.map accessPoint) ++
    s!"    {green}Fix:{reset} {r.suggestion}\n\n"

end Terminal

open Terminal

/-- The races of some files for the terminal. -/
def RaceReport.text (r : RaceReport) : String :=
  let summary := counts r.summary
  header "Shared-State Analysis" ++
    s!"Files: {r.filesAnalyzed}  Shared attributes: {r.sharedStates}\n\n" ++
    s!"{bold}RACE CONDITIONS{reset} ({r.summary.total} total)\n" ++
    (if summary.isEmpty then "" else s!"  {summary}\n") ++
    "\n" ++
    String.join (r.races.map race) ++
    diagnosticList r.diagnostics ++
    (if r.races.isEmpty then s!"{dim}No race conditions found.{reset}\n" else "")

/-! ## Deadlocks -/

namespace Terminal

/-- A site on one line. -/
def site (s : AcquisitionSite) : String :=
  s!"    {s.acquired} while holding {s.held}  {dim}{s.routine} ({s.path}:{s.line}){reset}\n"

/-- A deadlock with its sites. -/
def deadlock (d : Deadlock) : String :=
  let cycle := " -> ".intercalate (d.locks ++ d.locks.take 1)
  s!"{color d.severity}{tag d.severity}{reset} {bold}{cycle}{reset}  {dim}#{d.id}{reset}\n" ++
    String.join (d.sites.map site) ++
    s!"    {green}Fix:{reset} {d.suggestion}\n\n"

end Terminal

/-- The deadlocks of some files for the terminal. -/
def DeadlockReport.text (r : DeadlockReport) : String :=
  header "Lock-Order Analysis" ++
    s!"Files: {r.filesAnalyzed}  Locks: {r.locks}  Ordered pairs: {r.lockPairs}\n\n" ++
    s!"{bold}DEADLOCK SCENARIOS{reset} ({r.deadlocks.length} total)\n\n" ++
    String.join (r.deadlocks.map Terminal.deadlock) ++
    diagnosticList r.diagnostics ++
    (if r.deadlocks.isEmpty then s!"{dim}No lock-order cycles found.{reset}\n" else "")

/-! ## Stress tests -/

namespace Terminal

/-- At most so many failures are listed. -/
def maxFailures : Nat := 10

/-- The failures of a test. -/
def failures (details : List String) : String :=
  if details.isEmpty then ""
  else
    let remaining := details.length - maxFailures
    s!"\n{bold}FAILURES{reset}\n" ++
      String.join ((details.take maxFailures).map fun d => s!"  - {d}\n") ++
      (if remaining > 0 then s!"  {dim}...and {remaining} more{reset}\n" else "")

/-- What a test has shown. -/
def result (r : TestResult) : String :=
  let verdict :=
    if r.raceDetected then s!"{red}{bold}RACE DETECTED{reset}"
    else s!"{green}{bold}NO RACE DETECTED{reset}"
  let duration := fixed 3 r.duration.seconds
  let rate := fixed 0 r.operationsPerSecond
  let failedColor := if r.failed > 0 then red else dim
  s!"Verdict: {verdict}\n" ++
    s!"Threads: {r.threads}  Iterations/thread: {r.iterationsPerThread}  " ++
    s!"Duration: {duration}s  Throughput: {rate} ops/s\n" ++
    s!"Total: {r.totalIterations}  Successful: {green}{r.successful}{reset}  " ++
    s!"Failed: {failedColor}{r.failed}{reset}\n" ++
    (match r.expectedValue, r.observedValue with
      | some expected, some observed =>
        s!"Shared state: expected {expected}, observed {observed}\n"
      | _, _ => "") ++
    (if r.timedOutWorkers > 0 then
      s!"{red}Timed out workers: {r.timedOutWorkers}{reset}\n"
    else "") ++
    failures r.failureDetails

end Terminal

/-- The outcome of a test for the terminal. -/
def TestResult.text (r : TestResult) : String := header "Race Test" ++ Terminal.result r

/-- The outcome of a longer test for the terminal. -/
def StressReport.text (r : StressReport) : String :=
  let memory :=
    match r.peakMemoryBytes with
    | some bytes =>
      let size := fixed 1 (bytes.toUInt64.toFloat / 1048576)
      s!"Peak memory: {size} MiB\n"
    | none => s!"{dim}Peak memory: unavailable{reset}\n"
  header "Stress Test" ++ Terminal.result r.result ++ memory

end Interlock
