import Interlock.Flow.Basic
import Interlock.Race.State

/-!
# The table of shared states

`StateTable.ofEvents` groups the accesses of a walk by class and attribute, in the order in which
each attribute first occurs. `StateTable.states` then makes one shared state of each group.

The entries of a table are one list, which is the map from names to accesses and the order of the
names at the same time. A name enters the list at its end, with its first access, and is never
removed. So each name has one entry, and a second list of the names in the order of their first
accesses would always be that of the first components.
-/

namespace Interlock

/-- An access with where it is made and the innermost lock held there. -/
structure RecordedAccess where
  routine : Routine
  lock : Option String
  access : AttrAccess
  deriving DecidableEq, Repr, Inhabited

namespace RecordedAccess

def isWrite (r : RecordedAccess) : Bool := r.access.kind = .write

/-- What protects the access. -/
def protection (concurrent : Bool) (r : RecordedAccess) : Option Protection :=
  Protection.classify r.routine r.lock r.access concurrent

/-- The access as it is reported. -/
def point (path : String) (concurrent : Bool) (r : RecordedAccess) : AccessPoint where
  kind := r.access.kind
  path
  line := r.access.line
  lockHeld := r.lock.isSome
  routine := r.routine.name
  readModifyWrite := r.access.readModifyWrite
  receiver := some r.access.receiver
  protection := (r.protection concurrent).map Protection.label

/-- How likely a write declares the attribute: best in the class body, then in `__init__`. -/
def declarationRank (r : RecordedAccess) : Nat :=
  if r.routine.kind = .classBody then 0
  else if r.routine.kind = .method ∧ r.routine.shortName = "__init__" then 1
  else 2

end RecordedAccess

/-- The least of some pairs, the first component counting first. -/
def leastPair? : List (Nat × Nat) → Option (Nat × Nat)
  | [] => none
  | p :: rest =>
    match leastPair? rest with
    | none => some p
    | some q => some (if q.1 < p.1 ∨ (q.1 = p.1 ∧ q.2 < p.2) then q else p)

/-- The line that declares an attribute: that of the write most likely to declare it, or of the
first access if there is no write. -/
def declarationLine (accesses : List RecordedAccess) : Nat :=
  let byWrite := leastPair? <|
    (accesses.filter RecordedAccess.isWrite).map fun r => (r.declarationRank, r.access.line)
  let byAccess := leastPair? (accesses.map fun r => (0, r.access.line))
  ((byWrite.or byAccess).map Prod.snd).getD 1

/-- The accesses of a walk by attribute. -/
structure StateTable where
  /-- The accesses to each attribute, attributes in the order of their first access. -/
  entries : List (String × List RecordedAccess)
  /-- Whether any lock was taken. -/
  sawLock : Bool
  deriving DecidableEq, Repr, Inhabited

namespace StateTable

def empty : StateTable := ⟨[], false⟩

/-- Adds an access to the group with a given name. -/
def insert (name : String) (r : RecordedAccess) :
    List (String × List RecordedAccess) → List (String × List RecordedAccess)
  | [] => [(name, [r])]
  | (n, rs) :: rest => if n = name then (n, rs ++ [r]) :: rest else (n, rs) :: insert name r rest

/-- Takes note of an event. Accesses outside classes are of no interest. -/
def record (t : StateTable) : Event → StateTable
  | .acquire _ _ _ _ => { t with sawLock := true }
  | .access r held a =>
    match r.owner with
    | none => t
    | some c => { t with entries := insert s!"{c}.{a.attr}" ⟨r, held.innermost?, a⟩ t.entries }
  | .enter _ | .ownCall _ _ _ _ => t

/-- The table of a walk. -/
def ofEvents (events : List Event) : StateTable := events.foldl record empty

/-- How an attribute is used. A write that reads the old value first counts as both. -/
def accessType (accesses : List RecordedAccess) : AccessType :=
  let writes := accesses.any RecordedAccess.isWrite
  let reads := accesses.any fun r => !r.isWrite || r.access.readModifyWrite
  if writes then if reads then .both else .write else .read

/-- The lock that a protection holds. -/
def heldLock? : Option Protection → Option String
  | some (.lockHeld lock) => some lock
  | _ => none

/-- The shared state of a group of accesses. -/
def track (path : String) (concurrent : Bool) (entry : String × List RecordedAccess) :
    TrackedState :=
  let accesses := entry.2
  let writes := (accesses.filter RecordedAccess.isWrite).map (·.protection concurrent)
  { state := {
      name := entry.1
      path
      line := declarationLine accesses
      accessType := accessType accesses
      isProtected := writes.all Option.isSome
      lockName := writes.findSome? heldLock?
      points := accesses.map (·.point path concurrent) }
    protections := accesses.map (·.protection concurrent) }

/-- The shared states of a table. -/
def states (t : StateTable) (path : String) (concurrent : Bool) : List TrackedState :=
  t.entries.map (track path concurrent)

end StateTable

end Interlock
