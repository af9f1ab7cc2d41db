import Interlock.Stress.Program

/-!
# Workers on one counter

`World.step` lets one worker make one atomic step. Which worker goes next is left open: a schedule
is a list of workers, and `World.follow` makes the steps that it lists. A worker that waits for the
mutex cannot step.
-/

namespace Interlock.Stress

/-- A worker, which makes one call after the other. -/
structure Worker where
  /-- The number of calls that have ended. -/
  iteration : Nat := 0
  /-- What is left of the call being made. -/
  call : Option Call := none
  attempted : Nat := 0
  succeeded : Nat := 0
  /-- Whether the worker has stopped. -/
  finished : Bool := false
  deriving Inhabited

/-- The workers and what they share. -/
structure World where
  memory : Memory := {}
  /-- The worker that has the mutex. -/
  holder : Option Nat := none
  workers : List Worker
  /-- What went wrong, in the order in which it did. -/
  failures : List String := []
  deriving Inhabited

namespace World

/-- Some workers before their first call. -/
def start (threads : Nat) : World := { workers := List.replicate threads {} }

/-- Puts a worker into a new state. -/
def put (w : World) (i : Nat) (worker : Worker) : World :=
  { w with workers := w.workers.set i worker }

/-- Ends a call of worker `i`. -/
def finishCall (w : World) (i : Nat) (worker : Worker) (r : CallResult) : World :=
  let worker := { worker with iteration := worker.iteration + 1, call := none }
  match r.failure? with
  | none => w.put i { worker with succeeded := worker.succeeded + 1 }
  | some message =>
    let entry := s!"worker {i} iteration {worker.iteration - 1}: {message}"
    { w.put i worker with failures := w.failures ++ [entry] }

/-- Worker `i` makes one step of a call. -/
def stepCall (w : World) (i : Nat) (worker : Worker) : Call → Option World
  | .done r => some (w.finishCall i worker r)
  | .get k => some (w.put i { worker with call := some (k w.memory.counter) })
  | .set v k =>
    some { w.put i { worker with call := some k } with memory := { w.memory with counter := v } }
  | .fetchAdd n k =>
    let old := w.memory.counter
    some { w.put i { worker with call := some (k old) } with
      memory := { w.memory with counter := old + n } }
  | .lock k =>
    match w.holder with
    | none => some { w.put i { worker with call := some k } with holder := some i }
    | some _ => none
  | .unlock k => some { w.put i { worker with call := some k } with holder := none }
  | .sleep _ k => some (w.put i { worker with call := some k })

/-- Worker `i` makes one step: a step of its call, or the beginning of the next one if there is
`more` to do. -/
def step (call : Call) (more : Worker → Bool) (w : World) (i : Nat) : Option World := do
  let worker ← w.workers[i]?
  if worker.finished then none
  else
    match worker.call with
    | some c => w.stepCall i worker c
    | none =>
      if more worker then
        some (w.put i { worker with call := some call, attempted := worker.attempted + 1 })
      else some (w.put i { worker with finished := true })

/-- Makes the steps of a schedule, if every worker can step when it is its turn. -/
def follow (call : Call) (more : Worker → Bool) (w : World) (schedule : List Nat) : Option World :=
  schedule.foldlM (step call more) w

/-- Whether all workers have stopped. -/
def isOver (w : World) : Bool := w.workers.all Worker.finished

end World

end Interlock.Stress
