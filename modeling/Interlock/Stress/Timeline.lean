import Interlock.Stress.World

/-!
# Runs in time

`Timeline.run` plays a stress test on a clock of its own. Each worker has a clock that goes on by a
fixed pace with every step and by the length of every sleep; the worker whose next step is due first
goes first. So a run is one of the schedules of `World.step`, and what is not done by the deadline
is never done.
-/

namespace Interlock.Stress

/-- A world with the time of each worker, in nanoseconds. -/
structure Timeline where
  world : World
  clocks : List Nat
  /-- When the mutex was last given back. -/
  freeAt : Nat := 0
  deriving Inhabited

/-- How long a run goes on. -/
structure Pace where
  /-- The time that every step takes. -/
  perStep : Nat
  /-- What is not done by then is never done. -/
  deadline : Nat
  deriving Repr, Inhabited

namespace Timeline

/-- Some workers at the beginning of time. -/
def start (threads : Nat) : Timeline :=
  { world := .start threads, clocks := List.replicate threads 0 }

/-- When worker `i` can make its next step. -/
def due? (t : Timeline) (i : Nat) : Option Nat := do
  let worker ← t.world.workers[i]?
  let clock ← t.clocks[i]?
  if worker.finished then none
  else
    match worker.call with
    | some (.lock _) => if t.world.holder.isNone then some (max clock t.freeAt) else none
    | _ => some clock

/-- The time that a step of worker `i` takes. -/
def cost (pace : Pace) (t : Timeline) (i : Nat) : Nat :=
  match (t.world.workers[i]?).bind Worker.call with
  | some (.sleep millis _) => pace.perStep + 1000000 * millis
  | _ => pace.perStep

/-- Whether worker `i` is about to give the mutex back. -/
def isUnlocking (t : Timeline) (i : Nat) : Bool :=
  match (t.world.workers[i]?).bind Worker.call with
  | some (.unlock _) => true
  | _ => false

/-- The worker to step next and when, the one with the lower number if two are due at once. -/
def next? (t : Timeline) : Option (Nat × Nat) :=
  (List.range t.clocks.length).foldl
    (fun best i =>
      match t.due? i, best with
      | none, _ => best
      | some d, none => some (i, d)
      | some d, some (j, e) => if d < e then some (i, d) else some (j, e))
    none

/-- Lets worker `i` make the step that is due at a time. -/
def advance (call : Call) (more : Nat → Worker → Bool) (pace : Pace) (t : Timeline) (i due : Nat) :
    Option Timeline := do
  let world ← t.world.step call (more due) i
  let clock := due + t.cost pace i
  return {
    world
    clocks := t.clocks.set i clock
    freeAt := if t.isUnlocking i then due else t.freeAt }

/-- Lets workers step until all have stopped or the deadline has come. The number of steps is
limited by `fuel`. -/
def run (call : Call) (more : Nat → Worker → Bool) (pace : Pace) : Nat → Timeline → Timeline
  | 0, t => t
  | fuel + 1, t =>
    match t.next? with
    | none => t
    | some (i, due) =>
      if pace.deadline < due then t
      else
        match t.advance call more pace i due with
        | some t' => run call more pace fuel t'
        | none => t

/-- When the last worker stopped, or the deadline. -/
def elapsed (pace : Pace) (t : Timeline) : Nat :=
  if t.world.isOver then min pace.deadline (t.clocks.foldl max 0) else pace.deadline

end Timeline

end Interlock.Stress
