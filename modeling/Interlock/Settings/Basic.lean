/-!
# Settings

What a project can set: how the analyses judge (`RaceSettings`, `LockOrderSettings`), how stress
tests run when nothing else is asked for (`StressSettings`), which files are left out
(`ExcludeSettings`) and how reports are shown (`DisplaySettings`).
-/

namespace Interlock

/-- Settings of the race analysis. -/
structure RaceSettings where
  /-- More accesses than this raise the severity. -/
  frequencyThreshold : Nat := 5
  /-- Fragments of attribute names that mark critical data. -/
  criticalData : List String :=
    ["balance", "account", "payment", "password", "secret", "token", "session"]
  /-- Further names that count as locks. -/
  lockNames : List String := []
  /-- Look for races also in files that show no sign of threads. -/
  assumeConcurrent : Bool := false
  deriving DecidableEq, Repr, Inhabited

/-- Settings of the lock-order analysis. -/
structure LockOrderSettings where
  /-- Further names that count as locks. -/
  lockNames : List String := []
  /-- Follow calls of own methods made with a lock held. -/
  followOwnCalls : Bool := true
  deriving DecidableEq, Repr, Inhabited

/-- How a stress test runs unless it is told otherwise. -/
structure StressSettings where
  threads : Nat := 10
  iterations : Nat := 1000
  timeoutSecs : Float := 30
  deriving Repr, Inhabited

/-- Which files are left out. -/
structure ExcludeSettings where
  paths : List String := []
  /-- Leave out nothing but what `paths` says. -/
  skipDefaults : Bool := false
  deriving DecidableEq, Repr, Inhabited

namespace ExcludeSettings

/-- What is left out by default: environments, dependencies and build products. -/
def defaultPatterns : List String :=
  ["**/.venv/**", "**/venv/**", "**/node_modules/**", "**/__pycache__/**", "**/site-packages/**",
    "**/build/**", "**/dist/**"]

/-- The patterns of what is left out, each once. -/
def patterns (e : ExcludeSettings) : List String :=
  e.paths.foldl (fun known p => if known.contains p then known else known ++ [p])
    (if e.skipDefaults then [] else defaultPatterns)

end ExcludeSettings

/-- How reports are shown unless a command says otherwise. -/
structure DisplaySettings where
  format : Option String := none
  severity : Option String := none
  deriving DecidableEq, Repr, Inhabited

/-- All settings of a project. -/
structure Settings where
  race : RaceSettings := {}
  lockOrder : LockOrderSettings := {}
  stress : StressSettings := {}
  exclude : ExcludeSettings := {}
  display : DisplaySettings := {}
  deriving Repr, Inhabited

end Interlock
