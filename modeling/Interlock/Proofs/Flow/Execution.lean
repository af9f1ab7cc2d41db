import Interlock.Proofs.Flow.Lexical

/-!
# Executions

How control can pass through the statements of a routine, as far as its locks are concerned. An
execution is the list of its lock steps; `Executes` says which of them a piece of code allows, after
what happened before it, and how they end.

* The statements of a block run in order. An `if` runs one of its blocks, or none if it has no
  `else`. A loop runs its body any number of times and then its `else`, if it comes to that.
* An exception can leave a block after any of its statements. On its way out a `with` statement
  gives back its locks; a `try` passes it to one of its handlers or on; its `finally` runs in every
  case.
* An execution can be followed up to any point: it may also end as `paused`.

A `Discipline` bounds how holds are carried from one block to another. `Discipline.any` asks for
nothing. Under `Discipline.steady` no further round of a loop, no handler and no `finally` on the
way of an exception starts with more holds of a lock than there were before the statement, and no
statement with several paths ends with more holds than that, a first one apart.
-/

namespace Interlock

open Syntax

/-! ## Steps -/

/-- What an execution does with a lock. -/
inductive LockStep where
  | take (lock : String)
  /-- One hold is given back. -/
  | drop (lock : String)
  deriving DecidableEq, Repr

namespace LockStep

/-- How often a lock is held after a step, given how often it was before. -/
def count (lock : String) (holds : Nat) : LockStep → Nat
  | take l => if l = lock then holds + 1 else holds
  | drop l => if l = lock then holds - 1 else holds

end LockStep

/-- How often a lock is held after some steps, the oldest first. -/
def holdsOf (lock : String) (steps : List LockStep) : Nat := steps.foldl (LockStep.count lock) 0

theorem holdsOf_concat (lock : String) (τ : List LockStep) (x : LockStep) :
    holdsOf lock (τ ++ [x]) = x.count lock (holdsOf lock τ) := by
  simp [holdsOf]

/-- The lock step of a call such as `lock.acquire()`. -/
def Scope.lockStep? (s : Scope) (e : Node) : Option LockStep :=
  ((s.lockCall? "acquire" e).map .take).or ((s.lockCall? "release" e).map .drop)

/-- What bounds the holds of an execution, given its steps before a statement and now. -/
structure Discipline where
  /-- Whether a further round of a loop, its `else`, a handler, or a `finally` in the way of an
  exception may start. -/
  again : List LockStep → List LockStep → Prop
  /-- Whether control may go on after a branching statement. -/
  onward : List LockStep → List LockStep → Prop

namespace Discipline

/-- No bound at all. -/
def any : Discipline := ⟨fun _ _ => True, fun _ _ => True⟩

/-- A lock is carried neither around a loop nor into a handler, and out of a branch only if it was
not held before. -/
def steady (lock : String) : Discipline where
  again before now := holdsOf lock now ≤ holdsOf lock before
  onward before now := holdsOf lock now ≤ max (holdsOf lock before) 1

instance (lock : String) (before now : List LockStep) :
    Decidable ((steady lock).again before now) :=
  inferInstanceAs (Decidable (holdsOf lock now ≤ holdsOf lock before))

instance (lock : String) (before now : List LockStep) :
    Decidable ((steady lock).onward before now) :=
  inferInstanceAs (Decidable (holdsOf lock now ≤ max (holdsOf lock before) 1))

end Discipline

/-! ## The blocks of a statement -/

namespace Syntax.Node

/-- The statements of each block among some parts of a statement, those of its clauses included. -/
def blocksAmong : List Node → List (List Node)
  | [] => []
  | c@⟨kind, _, _, _, _, children⟩ :: rest =>
    let here :=
      if ¬ c.isNamed then []
      else if kind = .block then [children]
      else if kind.isClause then blocksAmong children
      else []
    here ++ blocksAmong rest

/-- The blocks of a statement or clause. -/
def blocks (n : Node) : List (List Node) := blocksAmong n.children

/-- The trees of one kind in a list. -/
def ofKind (kind : Kind) (nodes : List Node) : List Node :=
  nodes.filter fun c => c.kind = kind ∧ c.isNamed = true

theorem mem_ofKind {kind : Kind} {nodes : List Node} {c : Node} :
    c ∈ ofKind kind nodes ↔ c ∈ nodes ∧ c.kind = kind ∧ c.isNamed = true := by
  simp [ofKind]

theorem ofKind_cons (kind : Kind) (c : Node) (rest : List Node) : ofKind kind (c :: rest) =
    if c.kind = kind ∧ c.isNamed = true then c :: ofKind kind rest else ofKind kind rest := by
  simp only [ofKind, List.filter_cons, decide_eq_true_eq]

/-- The blocks that stand directly below a node. -/
def ownBlocks (n : Node) : List (List Node) := (ofKind .block n.children).map children

/-- The `else` clauses of a statement. -/
def elseClauses (n : Node) : List Node := ofKind .elseClause n.children

/-- The statements of the `finally` of a `try` statement. -/
def finalStatements (n : Node) : List Node :=
  ((ofKind .finallyClause n.children).getLast?.map fun c => c.ownBlocks.flatten).getD []

def isLoop (n : Node) : Bool :=
  n.kind = .other "for_statement" || n.kind = .other "while_statement"

/-- The definition of a function or a class, decorated or not. -/
def isDefinition (n : Node) : Bool :=
  (defined n).kind = .functionDefinition || (defined n).kind = .classDefinition

/-- Statements that take and give back no lock of their routine. -/
def isIdle (n : Node) : Bool :=
  n.kind = .deleteStatement || Flow.isInert n.kind || Flow.isPlain n.kind || n.isDefinition

/-- Statements that choose between blocks. -/
def isBranching (n : Node) : Bool :=
  !([Kind.expressionStatement, .deleteStatement, .withStatement, .tryStatement, .functionDefinition,
    .decoratedDefinition, .classDefinition].contains n.kind) &&
  !Flow.isInert n.kind && !Flow.isPlain n.kind

/-- The body of a `try` statement with what follows it. -/
structure Splits (n body : Node) (clauses : List Node) : Prop where
  children : ∃ comments, n.children = comments ++ body :: clauses
  block : body.kind = .block
  named : body.isNamed = true
  clauses : ∀ c ∈ clauses, c.kind ≠ .block

/-- A clause of a `try` statement that is neither its `else` nor its `finally`. -/
def isHandler (n : Node) : Bool :=
  n.isNamed && !([Kind.block, .elseClause, .finallyClause, .comment].contains n.kind)

end Syntax.Node

/-! ## Executions -/

/-- How an execution ends. -/
inductive Ending where
  /-- Control goes on after the piece of code. -/
  | done
  /-- An exception leaves the piece of code. -/
  | raised
  /-- The execution is followed no further. -/
  | paused
  deriving DecidableEq, Repr

/-- How a `try` statement ends through which an exception passes, given how its `finally` ends. -/
def Ending.reraise : Ending → Ending
  | paused => paused
  | _ => raised

/-- Past an exception control does not go on after the statement. -/
theorem Ending.reraise_ne_done (e : Ending) : e.reraise ≠ done := by
  cases e <;> nofun

/-- A piece of code. -/
inductive Code where
  | stmt (n : Node)
  | block (statements : List Node)
  /-- A body inside the items of a `with` statement. -/
  | within (items : List WithItem) (body : List Node)
  /-- Some rounds of the body of a loop. -/
  | rounds (body : List Node)
  /-- A `try` statement up to its `finally`. -/
  | tried (n : Node)

open Code Ending LockStep Node in
/-- `Executes d s code τ p e`: after the steps `τ`, the code can do the steps `p` and end as `e`. -/
inductive Executes (d : Discipline) (s : Scope) :
    Code → List LockStep → List LockStep → Ending → Prop where
  | nil {τ} : Executes d s (block []) τ [] done
  | raise {τ ns} : Executes d s (block ns) τ [] raised
  | pause {τ ns} : Executes d s (block ns) τ [] paused
  | next {τ p q c rest e} (named : c.isNamed = true) (here : Executes d s (stmt c) τ p done)
      (after : Executes d s (block rest) (τ ++ p) q e) :
      Executes d s (block (c :: rest)) τ (p ++ q) e
  | leave {τ p c rest e} (named : c.isNamed = true) (here : Executes d s (stmt c) τ p e)
      (left : e ≠ done) : Executes d s (block (c :: rest)) τ p e
  | idle {τ n} (idle : n.isIdle = true) : Executes d s (stmt n) τ [] done
  | expression {τ n} (kind : n.kind = .expressionStatement) :
      Executes d s (stmt n) τ (n.named.filterMap s.lockStep?) done
  -- `with` statements
  | enter {τ p n b e} (kind : n.kind = .withStatement) (body : n.child? .body = some b)
      (run : Executes d s (within (Flow.withItems s n) b.children) τ p e) :
      Executes d s (stmt n) τ p e
  | inside {τ p body e} (run : Executes d s (block body) τ p e) :
      Executes d s (within [] body) τ p e
  | context {τ p ps items body e} (run : Executes d s (within items body) τ p e) :
      Executes d s (within (.probes ps :: items) body) τ p e
  | lock {τ p l line items body e} (run : Executes d s (within items body) (τ ++ [take l]) p e)
      (left : e ≠ paused) :
      Executes d s (within (.lock l line :: items) body) τ (take l :: (p ++ [drop l])) e
  | lockPaused {τ p l line items body}
      (run : Executes d s (within items body) (τ ++ [take l]) p paused) :
      Executes d s (within (.lock l line :: items) body) τ (take l :: p) paused
  -- branches
  | skip {τ n} (branching : n.isBranching = true)
      (noElse : n.kind = .ifStatement → n.elseClauses = []) : Executes d s (stmt n) τ [] done
  | choose {τ p n b e} (branching : n.isBranching = true) (once : n.isLoop = false)
      (mem : b ∈ n.blocks) (run : Executes d s (block b) τ p e)
      (onward : e = done → d.onward τ (τ ++ p)) : Executes d s (stmt n) τ p e
  -- loops
  | noRound {τ body} : Executes d s (rounds body) τ [] done
  | round {τ p q body e} (before : Executes d s (rounds body) τ p done) (again : d.again τ (τ ++ p))
      (run : Executes d s (block body) (τ ++ p) q e) : Executes d s (rounds body) τ (p ++ q) e
  | loop {τ p n b e} (loop : n.isLoop = true) (mem : b ∈ n.ownBlocks)
      (run : Executes d s (rounds b) τ p e) (onward : e = done → d.onward τ (τ ++ p)) :
      Executes d s (stmt n) τ p e
  | loopElse {τ p q n b c b' e} (loop : n.isLoop = true) (mem : b ∈ n.ownBlocks)
      (run : Executes d s (rounds b) τ p done) (again : d.again τ (τ ++ p))
      (clause : c ∈ n.elseClauses) (mem' : b' ∈ c.blocks)
      (run' : Executes d s (block b') (τ ++ p) q e)
      (onward : e = done → d.onward τ (τ ++ (p ++ q))) : Executes d s (stmt n) τ (p ++ q) e
  -- `try` statements
  | attempt {τ p n body clauses e} (splits : n.Splits body clauses)
      (run : Executes d s (block body.children) τ p e)
      (noElse : e = done → n.elseClauses = []) : Executes d s (tried n) τ p e
  | orElse {τ p q n body clauses c b e} (splits : n.Splits body clauses)
      (run : Executes d s (block body.children) τ p done) (clause : c ∈ clauses)
      (named : c.isNamed = true) (kind : c.kind = .elseClause) (mem : b ∈ c.blocks)
      (run' : Executes d s (block b) (τ ++ p) q e)
      (onward : e = done → d.onward (τ ++ p) (τ ++ (p ++ q))) : Executes d s (tried n) τ (p ++ q) e
  | handle {τ p q n body clauses c b e} (splits : n.Splits body clauses)
      (run : Executes d s (block body.children) τ p raised) (again : d.again τ (τ ++ p))
      (clause : c ∈ clauses) (handler : c.isHandler = true) (mem : b ∈ c.blocks)
      (run' : Executes d s (block b) (τ ++ p) q e) : Executes d s (tried n) τ (p ++ q) e
  | finish {τ p q n e} (kind : n.kind = .tryStatement) (run : Executes d s (tried n) τ p done)
      (onward : d.onward τ (τ ++ p))
      (final : Executes d s (block n.finalStatements) (τ ++ p) q e) :
      Executes d s (stmt n) τ (p ++ q) e
  | abandon {τ p q n e} (kind : n.kind = .tryStatement) (run : Executes d s (tried n) τ p raised)
      (again : d.again τ (τ ++ p))
      (final : Executes d s (block n.finalStatements) (τ ++ p) q e) :
      Executes d s (stmt n) τ (p ++ q) e.reraise
  | tryPaused {τ p n} (kind : n.kind = .tryStatement) (run : Executes d s (tried n) τ p paused) :
      Executes d s (stmt n) τ p paused

end Interlock
