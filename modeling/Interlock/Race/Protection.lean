import Interlock.Lock.Vocabulary
import Interlock.Routine

/-!
# Protections

What keeps an access safe from other threads: a lock held around it, an operation that is atomic by
itself, or that no other thread can get there (`Protection`). `Protection.classify` looks for them
in this order.
-/

namespace Interlock

/-- Why no other thread reaches an access. -/
inductive Confinement where
  /-- The object is still being made. -/
  | constructor
  /-- The class is still being defined. -/
  | classBody
  /-- The file shows no sign of threads. -/
  | singleThreaded
  deriving DecidableEq, Repr, Inhabited

/-- What keeps an access safe from other threads. -/
inductive Protection where
  | lockHeld (lock : String)
  | atomic (idiom : String)
  | confined (reason : Confinement)
  deriving DecidableEq, Repr, Inhabited

namespace Protection

/-- The atomic operation by which an access is made: a method known to be atomic, or any method of a
thread-safe container. -/
def atomicIdiom? (a : AttrAccess) : Option String := do
  let method ← a.viaMethod
  if Lock.atomicMethods.contains method then some method
  else a.threadSafe.map fun type => s!"{type}.{method}"

/-- Why a routine is reached by one thread only. -/
def confinement? (r : Routine) (concurrent : Bool) : Option Confinement :=
  if r.kind = .classBody then some .classBody
  else if r.kind = .method ∧ Lock.constructorMethods.contains r.shortName then some .constructor
  else if concurrent then none
  else some .singleThreaded

/-- What protects an access made in `r` with `lock` the innermost lock held. -/
def classify (r : Routine) (lock : Option String) (a : AttrAccess) (concurrent : Bool) :
    Option Protection :=
  match lock with
  | some l => some (lockHeld l)
  | none =>
    match atomicIdiom? a with
    | some idiom => some (atomic idiom)
    | none => (confinement? r concurrent).map confined

/-- Whether the protection works against other threads, rather than keeping away from them. -/
def synchronizes : Protection → Bool
  | lockHeld _ | atomic _ => true
  | confined _ => false

def label : Protection → String
  | lockHeld lock => s!"lock:{lock}"
  | atomic idiom => s!"atomic:{idiom}"
  | confined .constructor => "confined:constructor"
  | confined .classBody => "confined:class_body"
  | confined .singleThreaded => "confined:single_threaded"

end Protection

end Interlock
