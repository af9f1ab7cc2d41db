import Interlock.Flow.Statement
import Interlock.Proofs.Flow.Join

/-!
# Where paths meet

`Flow.junctions` lists the points of a walk at which it joins the paths of a statement: after the
blocks of a branching statement, after the `else` of a `try`, and before its `finally`. A junction
says which routine it belongs to, what was held before the statement, and what is held at the end of
each of its paths.
-/

namespace Interlock

open Lock

/-- A point of a walk at which the paths of a statement are joined. -/
structure Junction where
  routine : Routine
  before : HeldLocks
  /-- What is held at the end of each path. -/
  ends : List HeldLocks
  deriving DecidableEq, Repr

namespace Flow

mutual

/-- The junctions in the walk of a flow, those of the routines defined in it included. -/
def junctions (mode : HoldMode) (r : Routine) (held : HeldLocks) : Flow → List Junction
  | .probe _ | .acquire _ _ | .release _ => []
  | .within lock _ body => junctionsAll mode r (held.push lock true) body
  | .branch arms exhaustive =>
    let ends := (runArms mode r held arms).2
    junctionsArms mode r held arms ++ [⟨r, held, if exhaustive then ends else ends ++ [held]⟩]
  | .attempt parts final =>
    let ends := (runParts mode r held [] none parts).2
    junctionsParts mode r held [] none parts ++
      ⟨r, held, ends⟩ :: junctionsAll mode r (held.merge mode ends) final
  | .routine inner body => junctionsAll mode inner [] body

/-- The junctions in the walk of a block. -/
def junctionsAll (mode : HoldMode) (r : Routine) (held : HeldLocks) : List Flow → List Junction
  | [] => []
  | f :: rest => junctions mode r held f ++ junctionsAll mode r (run mode r held f).2 rest

/-- The junctions in the arms of a branching statement. -/
def junctionsArms (mode : HoldMode) (r : Routine) (before : HeldLocks) : List Arm → List Junction
  | [] => []
  | .probe _ :: rest => junctionsArms mode r before rest
  | .block body :: rest => junctionsAll mode r before body ++ junctionsArms mode r before rest

/-- The junctions in the parts of a `try`, after parts that have ended with `ends`. -/
def junctionsParts (mode : HoldMode) (r : Routine) (before : HeldLocks) (ends : List HeldLocks)
    (body? : Option Nat) : List Part → List Junction
  | [] => []
  | .body b :: rest =>
    let here := (runAll mode r before b).2
    junctionsAll mode r before b ++
      junctionsParts mode r before (ends ++ [here]) (some ends.length) rest
  | .orElse arms :: rest =>
    match body? with
    | some i =>
      let start := ends.getD i before
      let here := (runArms mode r start arms).2
      junctionsArms mode r start arms ++ ⟨r, start, here⟩ ::
        junctionsParts mode r before (ends.set i (start.merge mode here)) (some i) rest
    | none =>
      let here := (runArms mode r before arms).2
      junctionsArms mode r before arms ++ junctionsParts mode r before (ends ++ here) none rest
  | .handler arms :: rest =>
    let here := (runArms mode r before arms).2
    junctionsArms mode r before arms ++ junctionsParts mode r before (ends ++ here) body? rest

end

variable {mode : HoldMode} {r : Routine} {held : HeldLocks}

/-- Junctions of a block, cut in two: those of the second part are met with the holds after the
first. -/
theorem junctionsAll_append (fs gs : List Flow) : junctionsAll mode r held (fs ++ gs) =
    junctionsAll mode r held fs ++ junctionsAll mode r (runAll mode r held fs).2 gs := by
  induction fs generalizing held with
  | nil => rfl
  | cons f rest ih => simp [junctionsAll, runAll, ih]

theorem junctionsArms_append (as bs : List Arm) : junctionsArms mode r held (as ++ bs) =
    junctionsArms mode r held as ++ junctionsArms mode r held bs := by
  induction as with
  | nil => rfl
  | cons arm rest ih => cases arm <;> simp [junctionsArms, ih]

end Flow

/-- The junctions in the walk of a file. -/
def junctionsOf (mode : HoldMode) (names : Names) (u : Syntax.SourceUnit) : List Junction :=
  Flow.junctionsAll mode Scope.topLevel [] (Flow.ofUnit names u)

end Interlock
