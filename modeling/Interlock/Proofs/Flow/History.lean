import Interlock.Proofs.Flow.Execution

/-!
# Histories

What can have happened to the locks of a routine when control comes to a point of it, for code
without loops and `try` statements (`Node.isBranchingCode`). Such code has finitely many paths, so
that `Point.ofStmts` can list the points at which a walk reports something together with the
histories of all paths to them.

* An `if` runs one of its blocks, or none if it has no `else`.
* No path goes on after a `return`.
* The arguments of a call are evaluated before the call. A point among the arguments of an `acquire`
  says which lock is about to be taken (`Point.pending`).
-/

namespace Interlock

open Syntax

/-! ## Moves -/

/-- What a path does with a lock. -/
inductive Move where
  /-- A `with` statement or a decorator takes a lock. -/
  | enter (lock : String)
  /-- A `with` statement or a decorator gives a lock back. -/
  | leave (lock : String)
  /-- The statement `lock.acquire()`. -/
  | acquire (lock : String)
  /-- The statement `lock.release()`. -/
  | release (lock : String)
  deriving DecidableEq, Repr

/-- What a path has done with locks, the oldest move first. -/
abbrev History := List Move

namespace History

/-- How often a lock has been taken. -/
def acquisitions (τ : History) (lock : String) : Nat :=
  List.count (.enter lock) τ + List.count (.acquire lock) τ

/-- How often a lock has been given back. -/
def releases (τ : History) (lock : String) : Nat :=
  List.count (.leave lock) τ + List.count (.release lock) τ

/-- Every explicit release gives back what an explicit acquisition before it has taken. -/
def Matched (τ : History) (lock : String) : Prop :=
  ∀ i < τ.length, τ[i]? = some (.release lock) →
    List.count (.release lock) (τ.take i) < List.count (.acquire lock) (τ.take i)

instance (τ : History) (lock : String) : Decidable (τ.Matched lock) :=
  inferInstanceAs (Decidable (∀ i < τ.length, _))

variable {τ : History} {lock : String}

theorem Matched.of_concat {m : Move} (h : Matched (τ ++ [m]) lock) : τ.Matched lock := by
  intro i hi hmove
  have hlt := h i (by rw [List.length_append]; omega) (by rwa [List.getElem?_append_left hi])
  rwa [List.take_append_of_le_length (Nat.le_of_lt hi)] at hlt

/-- A matched release finds an acquisition that is still open. -/
theorem Matched.release_lt (h : Matched (τ ++ [.release lock]) lock) :
    List.count (.release lock) τ < List.count (.acquire lock) τ := by
  simpa using h τ.length (by simp) (by simp)

end History

/-! ## Points -/

/-- A point at which something is reported. -/
structure Point where
  mark : Mark
  /-- The lock whose `acquire` has the point among its arguments. -/
  pending : Option String
  /-- The histories of the paths to the point. -/
  histories : List History
  deriving DecidableEq, Repr

/-- Whether an `if` statement has an `else`. -/
def Syntax.Node.hasElse (n : Node) : Bool :=
  n.children.any fun c => c.kind = .elseClause && c.field = some .alternative

namespace Point

/-- Probes that are made after the same histories. -/
def probesAt (T : List History) (pending : Option String) (ps : List Probe) : List Point :=
  ps.map fun p => ⟨.probe p, pending, T⟩

/-- The points of an expression that stands as a statement, and the histories after it. -/
def ofExpr (s : Scope) (T : List History) (e : Node) : List Point × List History :=
  match s.lockCall? "acquire" e, s.lockCall? "release" e with
  | some lock, _ =>
    (⟨.take lock e.line, none, T⟩ :: probesAt T (some lock) (s.argumentProbes e),
      T.map (· ++ [.acquire lock]))
  | none, some lock => (probesAt T none (s.argumentProbes e), T.map (· ++ [.release lock]))
  | none, none => (probesAt T none (s.statementProbes e), T)

/-- The points of the expressions of a statement, and the histories after them. -/
def ofExprs (s : Scope) (T : List History) : List Node → List Point × List History
  | [] => ([], T)
  | e :: rest =>
    let here := ofExpr s T e
    let after := ofExprs s here.2 rest
    (here.1 ++ after.1, after.2)

/-- The points of a body inside the items of a `with` statement, and the histories after it. -/
def within (body : List History → List Point × List History) (T : List History) :
    List WithItem → List Point × List History
  | [] => body T
  | .lock name line :: items =>
    let inner := within body (T.map (· ++ [.enter name])) items
    (⟨.take name line, none, T⟩ :: inner.1, inner.2.map (· ++ [.leave name]))
  | .probes ps :: items =>
    let inner := within body T items
    (probesAt T none ps ++ inner.1, inner.2)

mutual

/-- The points of a statement, and the histories after it. -/
def ofStmt (s : Scope) (T : List History) : Node → List Point × List History
  | n@⟨kind, _, _, _, _, children⟩ =>
    match kind with
    | .expressionStatement => ofExprs s T n.named
    | .returnStatement => (probesAt T none (s.probesAmong false children), [])
    | .withStatement =>
      within (fun T' => ofBlockField s T' .body children) T (Flow.withItems s n)
    | .ifStatement =>
      let paths := ofArms s T children
      (paths.1, if n.hasElse then paths.2 else paths.2 ++ T)
    | _ => ([], T)

/-- The points of a block, given its statements, and the histories after it. -/
def ofStmts (s : Scope) (T : List History) : List Node → List Point × List History
  | [] => ([], T)
  | c :: rest =>
    let here := if c.isNamed then ofStmt s T c else ([], T)
    let after := ofStmts s here.2 rest
    (here.1 ++ after.1, after.2)

/-- The points of the block in a given role, and the histories after it. -/
def ofBlockField (s : Scope) (T : List History) (f : Field) :
    List Node → List Point × List History
  | [] => ([], T)
  | ⟨_, field, _, _, _, children⟩ :: rest =>
    if field = some f then ofStmts s T children else ofBlockField s T f rest

/-- The points of the conditions and blocks of an `if`, and the histories at the ends of its
blocks. -/
def ofArms (s : Scope) (T : List History) : List Node → List Point × List History
  | [] => ([], [])
  | c@⟨kind, _, _, _, _, children⟩ :: rest =>
    let here :=
      if ¬ c.isNamed then ([], [])
      else if kind = .block then ofStmts s T children
      else if kind.isClause then ofArms s T children
      else if kind = .comment then ([], [])
      else (probesAt T none (s.probes false c), [])
    let after := ofArms s T rest
    (here.1 ++ after.1, here.2 ++ after.2)

end

end Point

/-- What a statement of a class body does: only assignments count. -/
def Scope.memberProbes (s : Scope) (m : Node) : List Probe :=
  if m.isNamed ∧ m.kind = .expressionStatement then m.named.flatMap s.bodyWrites else []

/-! ## Branching code -/

namespace Syntax.Node

mutual

/-- Expression statements, `return` and `pass`, and `with` and `if` statements made of them. -/
def isBranchingCode : Node → Bool
  | ⟨kind, _, _, _, _, children⟩ =>
    match kind with
    | .expressionStatement | .returnStatement | .passStatement | .comment => true
    | .withStatement => isBranchingField .body children
    | .ifStatement => areBranchingArms children
    | _ => false

/-- The same for a block, given its statements. -/
def isBranchingBlock : List Node → Bool
  | [] => true
  | c :: rest => (!c.isNamed || isBranchingCode c) && isBranchingBlock rest

/-- The same for the block in a given role. -/
def isBranchingField (f : Field) : List Node → Bool
  | [] => true
  | ⟨_, field, _, _, _, children⟩ :: rest =>
    if field = some f then isBranchingBlock children else isBranchingField f rest

/-- The same for the blocks of an `if`. -/
def areBranchingArms : List Node → Bool
  | [] => true
  | ⟨kind, _, _, _, _, children⟩ :: rest =>
    let here :=
      if kind = .block then isBranchingBlock children
      else if kind.isClause then areBranchingArms children
      else true
    here && areBranchingArms rest

end

end Syntax.Node

end Interlock
