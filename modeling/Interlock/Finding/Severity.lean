import Interlock.Text.Lower

/-!
# Severities

How serious a finding is. The severity of a race follows from four risk factors, each with a weight
(`Risk.score`, `Severity.ofScore`); a possible deadlock is always critical.
-/

namespace Interlock

/-- How serious a finding is. -/
inductive Severity where
  | low
  | medium
  | high
  | critical
  deriving DecidableEq, Repr, Inhabited

namespace Severity

/-- Severities in increasing order. -/
def all : List Severity := [low, medium, high, critical]

/-- The place of a severity in the order. -/
def rank : Severity → Nat
  | low => 0
  | medium => 1
  | high => 2
  | critical => 3

instance : LE Severity := ⟨fun a b => a.rank ≤ b.rank⟩

instance (a b : Severity) : Decidable (a ≤ b) := inferInstanceAs (Decidable (a.rank ≤ b.rank))

def name : Severity → String
  | low => "low"
  | medium => "medium"
  | high => "high"
  | critical => "critical"

/-- The severity with exactly this name. -/
def ofName? (s : String) : Option Severity := all.find? fun v => v.name = s

/-- The severity with this name, in any case. -/
def parse? (s : String) : Option Severity := ofName? (Text.lowercase s)

/-- What is said about a name that is no severity. -/
def unknownMessage (s : String) : String :=
  s!"Unknown severity '{s}'. Valid values: low, medium, high, critical"

/-- The severity of a score. -/
def ofScore (score : Nat) : Severity :=
  if 8 ≤ score then critical
  else if 6 ≤ score then high
  else if 4 ≤ score then medium
  else low

end Severity

/-- What makes a race serious. -/
structure Risk where
  writePresent : Bool
  highFrequency : Bool
  criticalData : Bool
  unprotected : Bool
  deriving DecidableEq, Repr, Inhabited

namespace Risk

/-- The sum of the weights of the factors that are present. -/
def score (r : Risk) : Nat :=
  (if r.writePresent then 3 else 0) + (if r.highFrequency then 2 else 0) +
    (if r.criticalData then 3 else 0) + (if r.unprotected then 2 else 0)

def severity (r : Risk) : Severity := .ofScore r.score

end Risk

end Interlock
