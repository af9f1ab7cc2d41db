/-!
# Held locks

The locks held at a point of a routine, in the order in which they were taken. A hold is lexical if
a `with` statement or a decorator took it, which also gives it back; an explicit `acquire` leaves an
open hold.

Two modes say how holds survive a statement with several paths (`HeldLocks.merge`):

* `must`: what is held at the end of every path is held after the statement;
* `may`: what was held before is held after it, and so is every open hold that some path adds.
-/

namespace Interlock.Lock

/-- Whether a lock counts as held if it is held on every path, or already if it is on some path. -/
inductive HoldMode where
  | must
  | may
  deriving DecidableEq, Repr, Inhabited

/-- One hold of a lock. -/
structure Held where
  name : String
  /-- Taken by a `with` statement or a decorator, which gives it back. -/
  lexical : Bool
  deriving DecidableEq, Repr, Inhabited

/-- The holds at one point, the oldest first. -/
abbrev HeldLocks := List Held

namespace HeldLocks

/-- The names of the held locks, one for each hold. -/
def names (held : HeldLocks) : List String := List.map Held.name held

/-- Whether a lock of this name is held. -/
def holds (held : HeldLocks) (name : String) : Bool := held.any fun l => l.name = name

/-- The lock that was taken last. -/
def innermost? (held : HeldLocks) : Option String := (List.getLast? held).map Held.name

/-- Take a lock. -/
def push (held : HeldLocks) (name : String) (lexical : Bool) : HeldLocks :=
  held ++ [⟨name, lexical⟩]

/-- Give back the latest hold of a lock, lexical or open as asked. Nothing happens if there is
none. -/
def release (held : HeldLocks) (name : String) (lexical : Bool) : HeldLocks :=
  (List.erase (List.reverse held) ⟨name, lexical⟩).reverse

/-- Add the open holds of `fin` whose lock is not held yet. -/
def absorb (held fin : HeldLocks) : HeldLocks :=
  fin.foldl (fun acc l => if !l.lexical && !holds acc l.name then acc ++ [l] else acc) held

/-- What is held after a statement that starts with `before` and whose paths end with `ends`. -/
def merge (mode : HoldMode) (before : HeldLocks) (ends : List HeldLocks) : HeldLocks :=
  match mode, ends with
  | .must, [] => before
  | .must, first :: rest => first.filter fun l => rest.all fun fin => holds fin l.name
  | .may, _ => ends.foldl absorb before

end HeldLocks

end Interlock.Lock
