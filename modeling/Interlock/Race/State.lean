import Interlock.Finding.Severity
import Interlock.Race.Protection

/-!
# Shared states and races

A shared state is an attribute of a class with all accesses to it (`SharedState`). A race is a
shared state that some write leaves open to other threads (`Race`).
-/

namespace Interlock

/-- How a shared state is used. -/
inductive AccessType where
  | read
  | write
  | both
  deriving DecidableEq, Repr, Inhabited

namespace AccessType

def all : List AccessType := [read, write, both]

def name : AccessType → String
  | read => "read"
  | write => "write"
  | both => "both"

def ofName? (s : String) : Option AccessType := all.find? fun t => t.name = s

end AccessType

namespace AccessKind

def all : List AccessKind := [read, write]

def name : AccessKind → String
  | read => "read"
  | write => "write"

def ofName? (s : String) : Option AccessKind := all.find? fun k => k.name = s

end AccessKind

/-- One access as it is reported. -/
structure AccessPoint where
  kind : AccessKind
  path : String
  line : Nat
  lockHeld : Bool
  routine : String
  readModifyWrite : Bool
  receiver : Option String
  protection : Option String
  deriving DecidableEq, Repr, Inhabited

/-- An attribute of a class with all accesses to it. -/
structure SharedState where
  /-- The class and the attribute with a dot between them. -/
  name : String
  path : String
  /-- The line of its declaration. -/
  line : Nat
  accessType : AccessType
  /-- Whether every write is protected. -/
  isProtected : Bool
  /-- The lock held at the first write that holds one. -/
  lockName : Option String
  points : List AccessPoint
  deriving DecidableEq, Repr, Inhabited

/-- The writes to a shared state. -/
def SharedState.writes (s : SharedState) : List AccessPoint :=
  s.points.filter fun p => p.kind = .write

/-- A shared state with what protects each access. -/
structure TrackedState where
  state : SharedState
  /-- One entry for each access, in order. -/
  protections : List (Option Protection)
  deriving DecidableEq, Repr, Inhabited

/-- The writes to a tracked state with what protects them. -/
def TrackedState.writes (t : TrackedState) : List (AccessPoint × Option Protection) :=
  (t.state.points.zip t.protections).filter fun w => w.1.kind = .write

/-- A shared state that some write leaves open. -/
structure Race where
  id : String
  state : SharedState
  severity : Severity
  description : String
  suggestion : String
  points : List AccessPoint
  deriving DecidableEq, Repr, Inhabited

end Interlock
