/-!
# Routines and accesses

A routine is a stretch of code with its own locks: the top level of a file, a function, a class
body, a method or a function inside another. An access is a read or write of an attribute of the
class that a routine belongs to.
-/

namespace Interlock

/-- The kinds of routine. -/
inductive RoutineKind where
  /-- The statements at the top level of a file. -/
  | module
  | function
  /-- The statements directly in a class. -/
  | classBody
  | method
  /-- A function inside another routine. -/
  | closure
  deriving DecidableEq, Repr, Inhabited

/-- A routine. -/
structure Routine where
  /-- The qualified name, such as `Account.deposit.worker`. -/
  name : String
  /-- The bare name; for a class body, that of the class. -/
  shortName : String
  /-- The qualified name of the class that it belongs to. -/
  owner : Option String
  kind : RoutineKind
  deriving DecidableEq, Repr, Inhabited

/-- The two kinds of access. -/
inductive AccessKind where
  | read
  | write
  deriving DecidableEq, Repr, Inhabited

/-- One access to an attribute. -/
structure AttrAccess where
  attr : String
  kind : AccessKind
  line : Nat
  /-- A write that reads the old value first, as `x += 1` does. -/
  readModifyWrite : Bool
  /-- The name through which the attribute was reached (`self`, `cls`, the class). -/
  receiver : String
  /-- For a write made by a call or by subscription, the method called, or `[]`. -/
  viaMethod : Option String
  /-- The thread-safe type that the attribute was made from. -/
  threadSafe : Option String
  deriving DecidableEq, Repr, Inhabited

end Interlock
