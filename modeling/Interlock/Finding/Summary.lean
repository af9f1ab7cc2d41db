import Interlock.Finding.Severity

/-!
# Summaries

How many findings there are of each severity, and how many at some severity or above.
-/

namespace Interlock

/-- The number of findings by severity. -/
structure Summary where
  critical : Nat
  high : Nat
  medium : Nat
  low : Nat
  total : Nat
  deriving DecidableEq, Repr, Inhabited

namespace Summary

/-- The summary of no findings. -/
def empty : Summary := ⟨0, 0, 0, 0, 0⟩

/-- Counts one more finding. -/
def add (s : Summary) (severity : Severity) : Summary :=
  let s := { s with total := s.total + 1 }
  match severity with
  | .critical => { s with critical := s.critical + 1 }
  | .high => { s with high := s.high + 1 }
  | .medium => { s with medium := s.medium + 1 }
  | .low => { s with low := s.low + 1 }

/-- The summary of findings with these severities. -/
def ofSeverities (severities : List Severity) : Summary := severities.foldl add empty

/-- The number of findings at a severity or above. -/
def atOrAbove (s : Summary) : Severity → Nat
  | .critical => s.critical
  | .high => s.critical + s.high
  | .medium => s.critical + s.high + s.medium
  | .low => s.total

end Summary

end Interlock
