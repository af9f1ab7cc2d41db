import Interlock.Lock.Held
import Interlock.Routine

/-!
# Flows

A flow is what a routine does that matters for locks: it takes and gives back locks, accesses
attributes, calls methods of its own class, branches, and defines further routines. Everything else
about the source is gone, so that a rule on locks is a rule on flows.

* `Probe` is an access or an own call made by an expression.
* `Flow` is a statement, `Arm` a part of a branching statement, `Part` a part of a `try`.
* `Flow.run` follows a flow with the locks held at each point and lists the events on the way; the
  mode says how holds survive branches (`Lock.HoldMode`).
-/

namespace Interlock

open Lock

/-- Something that an expression does with the object of a method. -/
inductive Probe where
  /-- An access to an attribute. -/
  | access (detached : Bool) (access : AttrAccess)
  /-- A call of a method of the same class. -/
  | ownCall (detached : Bool) (method : String) (line : Nat)
  deriving DecidableEq, Repr, Inhabited

mutual

/-- What a statement does. -/
inductive Flow where
  | probe (p : Probe)
  /-- An explicit acquisition, held until some release. -/
  | acquire (lock : String) (line : Nat)
  /-- An explicit release. -/
  | release (lock : String)
  /-- A lock held for the length of a body. -/
  | within (lock : String) (line : Nat) (body : List Flow)
  /-- A statement of which one block runs, or none unless it is exhaustive. -/
  | branch (arms : List Arm) (exhaustive : Bool)
  /-- A `try` statement with what its `finally` does. -/
  | attempt (parts : List Part) (final : List Flow)
  /-- The definition of a routine, which starts with no lock held. -/
  | routine (routine : Routine) (body : List Flow)

/-- A part of a branching statement. -/
inductive Arm where
  /-- Something done on the way to the blocks, such as evaluating a condition. -/
  | probe (p : Probe)
  | block (body : List Flow)

/-- A part of a `try` statement. -/
inductive Part where
  | body (body : List Flow)
  /-- The `else`, which runs after the body has ended. -/
  | orElse (arms : List Arm)
  /-- A handler, which starts with what was held before the statement. -/
  | handler (arms : List Arm)

end

instance : Inhabited Flow := ⟨.release ""⟩

/-- What is reported of a walk. -/
inductive Event where
  /-- A routine starts. -/
  | enter (routine : Routine)
  /-- A lock is taken while `held`, which does not yet include it, is held. -/
  | acquire (routine : Routine) (held : HeldLocks) (lock : String) (line : Nat)
  | access (routine : Routine) (held : HeldLocks) (access : AttrAccess)
  | ownCall (routine : Routine) (held : HeldLocks) (method : String) (line : Nat)
  deriving DecidableEq, Repr, Inhabited

/-- The event that a probe stands for. What an expression does inside a lambda is reported with no
lock held, since it runs later. -/
def Probe.event (r : Routine) (held : HeldLocks) : Probe → Event
  | access detached a => .access r (if detached then [] else held) a
  | ownCall detached method line => .ownCall r (if detached then [] else held) method line

namespace Flow

mutual

/-- The events of a flow and the locks held after it. -/
def run (mode : HoldMode) (r : Routine) (held : HeldLocks) : Flow → List Event × HeldLocks
  | .probe p => ([p.event r held], held)
  | .acquire lock line => ([.acquire r held lock line], held.push lock false)
  | .release lock => ([], held.release lock false)
  | .within lock line body =>
    let inner := runAll mode r (held.push lock true) body
    (.acquire r held lock line :: inner.1, inner.2.release lock true)
  | .branch arms exhaustive =>
    let paths := runArms mode r held arms
    (paths.1, held.merge mode (if exhaustive then paths.2 else paths.2 ++ [held]))
  | .attempt parts final =>
    let paths := runParts mode r held [] none parts
    let last := runAll mode r (held.merge mode paths.2) final
    (paths.1 ++ last.1, last.2)
  | .routine inner body => (.enter inner :: (runAll mode inner [] body).1, held)

/-- The events of a block and the locks held after it. -/
def runAll (mode : HoldMode) (r : Routine) (held : HeldLocks) :
    List Flow → List Event × HeldLocks
  | [] => ([], held)
  | f :: rest =>
    let here := run mode r held f
    let after := runAll mode r here.2 rest
    (here.1 ++ after.1, after.2)

/-- The events of the arms of a branching statement, each started with what was held before it, and
the locks held at the end of each block. -/
def runArms (mode : HoldMode) (r : Routine) (before : HeldLocks) :
    List Arm → List Event × List HeldLocks
  | [] => ([], [])
  | .probe p :: rest =>
    let after := runArms mode r before rest
    (p.event r before :: after.1, after.2)
  | .block body :: rest =>
    let here := runAll mode r before body
    let after := runArms mode r before rest
    (here.1 ++ after.1, here.2 :: after.2)

/-- The events of the parts of a `try` and the locks held at the end of each of its paths, those of
earlier parts being `ends`. The end of the latest body is number `body?` among them: an `else` goes
on from there. -/
def runParts (mode : HoldMode) (r : Routine) (before : HeldLocks) (ends : List HeldLocks)
    (body? : Option Nat) : List Part → List Event × List HeldLocks
  | [] => ([], ends)
  | .body b :: rest =>
    let here := runAll mode r before b
    let after := runParts mode r before (ends ++ [here.2]) (some ends.length) rest
    (here.1 ++ after.1, after.2)
  | .orElse arms :: rest =>
    match body? with
    | some i =>
      let start := ends.getD i before
      let here := runArms mode r start arms
      let after := runParts mode r before (ends.set i (start.merge mode here.2)) (some i) rest
      (here.1 ++ after.1, after.2)
    | none =>
      let here := runArms mode r before arms
      let after := runParts mode r before (ends ++ here.2) none rest
      (here.1 ++ after.1, after.2)
  | .handler arms :: rest =>
    let here := runArms mode r before arms
    let after := runParts mode r before (ends ++ here.2) body? rest
    (here.1 ++ after.1, after.2)

end

end Flow

end Interlock
