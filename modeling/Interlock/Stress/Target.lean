import Interlock.Stress.Program
import Interlock.Text.Basic

/-!
# Targets

The targets that can be named on the command line: functions on a shared counter, and methods of a
service that keeps one. `Target.resolve?` reads a specification such as
`counter:CounterService.increment`.
-/

namespace Interlock.Stress

namespace Call

/-- Reads the counter and writes it back one higher. Whatever happens between the two steps is
lost. -/
def readThenWrite (next : Call) : Call := get fun current => set (current + 1) next

/-- Increments without any care. -/
def bareIncrement : Call := readThenWrite (done .ok)

/-- Increments with the mutex held. -/
def lockedIncrement : Call := lock (readThenWrite (unlock (done .ok)))

/-- Increments in one step. -/
def atomicIncrement : Call := fetchAdd 1 fun _ => done .ok

/-- Increments with the mutex held, and reports an error at every 97th value. -/
def flakyIncrement : Call :=
  lock <| get fun current => set (current + 1) <| unlock <|
    done (if current % 97 = 96 then .failed s!"counter reached {current}" else .ok)

/-- Increments with the mutex held, after holding it for a while. -/
def slowIncrement : Call := lock (sleep 10 (readThenWrite (unlock (done .ok))))

end Call

/-- The functions on a shared counter. -/
def functions : List (String × Call) :=
  [("unsafe_increment", .bareIncrement), ("locked_increment", .lockedIncrement),
    ("atomic_increment", .atomicIncrement), ("flaky_increment", .flakyIncrement),
    ("slow_increment", .slowIncrement)]

/-- Something with methods that can be called by name. -/
structure Subject where
  name : String
  methods : List (String × Call)
  /-- Whether its counter can be looked at after a test. -/
  observable : Bool
  deriving Inhabited

namespace Subject

def methodNames (s : Subject) : List String := s.methods.map Prod.fst

/-- What a method does. -/
def method? (s : Subject) (name : String) : Option Call :=
  (s.methods.find? fun m => m.1 = name).map Prod.snd

/-- What is said about a method that is not there. -/
def missingMessage (s : Subject) (method : String) : String :=
  s!"{s.name} has no method '{method}'"

end Subject

/-- A service that counts. -/
def counterService : Subject where
  name := "CounterService"
  methods :=
    [("increment", .bareIncrement), ("increment_locked", .lockedIncrement),
      ("increment_atomic", .atomicIncrement)]
  observable := true

/-- A target named by a specification. -/
inductive Target where
  | function (name : String)
  /-- A method of the service. -/
  | method (name : String)
  deriving DecidableEq, Repr, Inhabited

namespace Target

/-- Reads a specification. -/
def resolve? (spec : String) : Option Target := do
  let name ← Text.after? "counter:" spec
  match Text.after? s!"{counterService.name}." name with
  | some m => if counterService.methodNames.contains m then some (method m) else none
  | none => if (functions.map Prod.fst).contains name then some (function name) else none

/-- All specifications. -/
def available : List String :=
  functions.map (fun f => s!"counter:{f.1}") ++
    counterService.methodNames.map fun m => s!"counter:{counterService.name}.{m}"

/-- What a call of a target does. -/
def call : Target → Call
  | function name => ((functions.find? fun f => f.1 = name).map Prod.snd).getD (.done .ok)
  | method name => (counterService.method? name).getD (.done .ok)

end Target

end Interlock.Stress
