import Interlock.Settings.Basic
import Interlock.Stress.Target
import Interlock.Stress.Verdict

/-!
# Stress tests

`Stress.test` calls a target a fixed number of times on some workers, and `Stress.testFor` for a
while. Both refuse a plan that cannot be carried out (`StressError`).
-/

namespace Interlock.Stress

/-- Why a test cannot be run. -/
inductive StressError where
  | noThreads
  | noIterations
  | noTimeout
  | noDuration
  /-- The seconds of a timeout are not positive and finite. -/
  | badTimeout (seconds : Float)
  /-- The seconds of a timeout are too many. -/
  | longTimeout (cause : DurationError)
  /-- The seconds of a test that runs for a while are no duration. -/
  | badDuration (cause : DurationError)
  | unknownMethod (method : String) (known : List String)
  | unknownTarget (spec : String)
  deriving Repr, Inhabited

namespace StressError

/-- What is wrong with the plan of a test. -/
def reason : StressError → String
  | noThreads => "threads must be at least 1"
  | noIterations => "iterations must be at least 1"
  | noTimeout => "timeout must be positive"
  | noDuration => "duration must be positive"
  | badTimeout seconds => s!"timeout must be positive, got {Number.plain seconds}"
  | longTimeout cause => s!"timeout: {cause.message}"
  | badDuration cause => s!"duration: {cause.message}"
  | unknownMethod method known =>
    let names := ", ".intercalate known
    s!"unknown method '{method}', expected one of: {names}"
  | unknownTarget spec => spec

def message (e : StressError) : String :=
  match e with
  | unknownTarget spec => s!"unknown stress target '{spec}'"
  | _ => s!"invalid stress configuration: {e.reason}"

end StressError

/-! ## Plans -/

namespace StressConfig

/-- A plan with a timeout in seconds. -/
def ofSeconds (threads iterations : Nat) (timeout : Float) : Except StressError StressConfig :=
  if timeout.isNaN || timeout.isInf || !(timeout > 0) then .error (.badTimeout timeout)
  else
    match Duration.ofSeconds? timeout with
    | .ok d => .ok ⟨threads, iterations, d⟩
    | .error cause => .error (.longTimeout cause)

/-- The plan that settings stand for. A timeout that is no duration is none at all. -/
def ofSettings (s : StressSettings) : StressConfig where
  threads := s.threads
  iterations := s.iterations
  timeout := ((Duration.ofSeconds? s.timeoutSecs).toOption).getD ⟨0⟩

/-- Why a plan cannot be carried out. -/
def flaw? (c : StressConfig) : Option StressError :=
  if c.threads = 0 then some .noThreads
  else if c.iterations = 0 then some .noIterations
  else if c.timeout.nanos = 0 then some .noTimeout
  else none

/-- Goes on only with a plan that can be carried out. -/
def validate (c : StressConfig) : Except StressError Unit :=
  match c.flaw? with
  | some e => .error e
  | none => .ok ()

end StressConfig

/-! ## Runs -/

/-- More steps than a run makes. -/
def enoughSteps : Nat := Nat.pow 2 64

/-- Calls a target a fixed number of times on each worker. Every step takes a microsecond. -/
def runFixed (call : Call) (c : StressConfig) : Timeline × Pace :=
  let pace : Pace := ⟨1000, c.timeout.nanos⟩
  let more (_ : Nat) (w : Worker) : Bool := w.iteration < c.iterations
  (Timeline.run call more pace enoughSteps (.start c.threads), pace)

/-- Calls a target on each worker for a while, after which the workers have some time left to end
their calls. A step takes a two-thousandth of the while. -/
def runFor (call : Call) (threads : Nat) (duration grace : Duration) : Timeline × Pace :=
  let pace : Pace := ⟨max 1 (duration.nanos / 2000), duration.nanos + grace.nanos⟩
  let more (now : Nat) (_ : Worker) : Bool := now < duration.nanos
  (Timeline.run call more pace enoughSteps (.start threads), pace)

/-- The counter at the end of a run, if it can be looked at. -/
def observe (observable : Bool) (t : Timeline) : Option Nat :=
  if observable then some t.world.memory.counter.toNat else none

/-- Tests a function on a counter. -/
def test (call : Call) (c : StressConfig) : Except StressError TestResult := do
  c.validate
  let (t, pace) := runFixed call c
  return fixedVerdict c (.ofTimeline pace t) (observe true t)

/-- Tests a method of a subject. -/
def testMethod (s : Subject) (method : String) (c : StressConfig) :
    Except StressError TestResult := do
  c.validate
  match s.method? method with
  | none => throw (.unknownMethod method s.methodNames)
  | some call =>
    let (t, pace) := runFixed call c
    return fixedVerdict c (.ofTimeline pace t) (observe s.observable t)

/-- How tests for a while are run. -/
structure Tester where
  threads : Nat := 10
  /-- The time that workers have left to end their calls. -/
  grace : Duration := ⟨30 * Duration.perSecond⟩
  deriving Repr, Inhabited

namespace Tester

/-- The tester that settings stand for. Without a timeout the usual one is kept. -/
def ofSettings (s : StressSettings) : Tester :=
  let c := StressConfig.ofSettings s
  if c.timeout.nanos = 0 then { threads := c.threads }
  else { threads := c.threads, grace := c.timeout }

/-- Goes on only with a test that can be run. -/
def validate (t : Tester) (duration : Duration) : Except StressError Unit :=
  if duration.nanos = 0 then .error .noDuration
  else StressConfig.validate ⟨t.threads, 1, t.grace⟩

/-- The report on a run for a while. Memory is not looked at. -/
def report (t : Tester) (call : Call) (observable : Bool) (duration : Duration) : StressReport :=
  let (timeline, pace) := runFor call t.threads duration t.grace
  let result :=
    durationVerdict t.threads (.ofTimeline pace timeline) (observe observable timeline)
  { result, peakMemoryBytes := some 0, throughput := result.operationsPerSecond }

/-- Tests a function on a counter for a while. -/
def testFor (t : Tester) (call : Call) (duration : Duration) : Except StressError StressReport := do
  t.validate duration
  return t.report call true duration

/-- Tests a method of a subject for a while. -/
def testMethodFor (t : Tester) (s : Subject) (method : String) (duration : Duration) :
    Except StressError StressReport := do
  t.validate duration
  match s.method? method with
  | none => throw (.unknownMethod method s.methodNames)
  | some call => return t.report call s.observable duration

end Tester

end Interlock.Stress
