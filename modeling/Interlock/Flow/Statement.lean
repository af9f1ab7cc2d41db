import Interlock.Flow.Expression

/-!
# What statements do

`Flow.ofUnit` turns the syntax tree of a file into the flow of its routines. Every statement form
has one rule in `Flow.ofStmt`; a statement that is not singled out is a branching statement whose
blocks may or may not run.

* `Flow.ofWith` nests the locks of a `with` statement around its body.
* `Flow.armsOf` lists the blocks of a branching statement, those of its clauses included.
* `Flow.ofMembers` follows a class body: only its methods, its classes and its assignments matter.
-/

namespace Interlock

open Syntax

/-- An item of a `with` statement: a lock, or what another context does. -/
inductive WithItem where
  | lock (name : String) (line : Nat)
  | probes (ps : List Probe)
  deriving Inhabited

namespace Flow

/-- What an explicit `acquire` or `release` of a lock does, if a call is one. -/
def ofLockCall? (s : Scope) (call : Node) : Option (List Flow) := do
  let function ← call.child? .function
  if function.kind ≠ .attr then none
  let object ← function.child? .object
  let method ← function.child? .attr
  if method.text ≠ "acquire" ∧ method.text ≠ "release" then none
  let lock ← s.lockOf? object
  let step := if method.text = "acquire" then acquire lock call.line else release lock
  let arguments :=
    match call.child? .arguments with
    | some args => (s.probes false args).map probe
    | none => []
  return step :: arguments

/-- What an expression that stands as a statement does. -/
def ofExprStmt (s : Scope) (e : Node) : List Flow :=
  match e.kind with
  | .assignment => (s.assignmentProbes e).map probe
  | .augmentedAssignment =>
    let target :=
      match e.child? .left with
      | some left => s.targetProbes true left
      | none => []
    let value :=
      match e.child? .right with
      | some right => s.probes false right
      | none => []
    (target ++ value).map probe
  | .call => (ofLockCall? s e).getD ((s.probes false e).map probe)
  | _ => (s.probes false e).map probe

/-- The items of a `with` statement, in order. An alias is looked through. -/
def withItems (s : Scope) (n : Node) : List WithItem :=
  (n.collect .withItem (some .block)).filterMap fun item => do
    let value ← item.child? .value
    let value ← if value.kind = .asPattern then value.first? else some value
    match s.lockOf? value with
    | some lock => some (.lock lock value.line)
    | none => some (.probes (s.probes false value))

/-- The body of a `with` statement inside its items: each lock is held for what follows it. -/
def ofWith : List WithItem → List Flow → List Flow
  | [], body => body
  | .lock name line :: items, body => [within name line (ofWith items body)]
  | .probes ps :: items, body => ps.map probe ++ ofWith items body

/-- Whether one of the blocks of a branching statement always runs: only an `if` with an `else`
guarantees it. -/
def isExhaustive (n : Node) : Bool :=
  n.kind = .ifStatement &&
    n.children.any fun c => c.field = some .alternative && c.kind = .elseClause

/-- The locks that decorators hold around a function, outermost first. -/
def decoratorLocks (s : Scope) (decorators : List String) : List String :=
  let owner := (s.owner.map ClassFacts.name).getD "<module>"
  (decorators.filter Lock.decorators.contains).map fun d => s!"{owner}.@{d}"

/-- A body inside locks that are all taken on one line. -/
def underLocks (line : Nat) (locks : List String) (body : List Flow) : List Flow :=
  ofWith (locks.map fun l => .lock l line) body

/-- Statements that do nothing that matters for locks. -/
def isInert : Kind → Bool
  | .importStatement | .importFromStatement | .futureImportStatement | .globalStatement
  | .nonlocalStatement | .passStatement | .breakStatement | .continueStatement | .comment => true
  | _ => false

/-- Statements that only evaluate the expressions in them. -/
def isPlain : Kind → Bool
  | .returnStatement | .raiseStatement | .assertStatement | .printStatement | .execStatement
  | .typeAliasStatement => true
  | _ => false

/-- The routine that a function definition makes, given what its body does in its own scope. -/
def ofFunction (s : Scope) (kind : RoutineKind) (decorators : List String) (n : Node)
    (body : Scope → List Flow) : List Flow :=
  match n.child? .name with
  | none => []
  | some name =>
    let inner := s.ofFunction kind decorators n name.text
    [routine inner.routine (underLocks n.line (decoratorLocks s decorators) (body inner))]

mutual

/-- What a statement does. The decorators are those of a definition. -/
def ofStmt (s : Scope) (decorators : List String) : Node → List Flow
  | n@⟨kind, _, _, _, _, children⟩ =>
    match kind with
    | .expressionStatement => n.named.flatMap (ofExprStmt s)
    | .deleteStatement => (s.targetProbesAmong false children).map probe
    | .withStatement => ofWith (withItems s n) (ofBlockField s .body children)
    | .tryStatement => [attempt (partsOf s children) ((finalOf? s children).getD [])]
    | .functionDefinition =>
      let routineKind := if s.routine.kind = .module then .function else .closure
      ofFunction s routineKind decorators n fun inner => ofBlockField inner .body children
    | .decoratedDefinition => ofDefinition s (decoratorNames n) children
    | .classDefinition => ofClassBody s (n.child? .name) children
    | _ =>
      if isInert kind then []
      else if isPlain kind then (s.probesAmong false children).map probe
      else [branch (armsOf s children) (isExhaustive n)]

/-- What a block does, given its statements. -/
def ofStmts (s : Scope) : List Node → List Flow
  | [] => []
  | c :: rest => (if c.isNamed then ofStmt s [] c else []) ++ ofStmts s rest

/-- What the block in a given role does. -/
def ofBlockField (s : Scope) (f : Field) : List Node → List Flow
  | [] => []
  | ⟨_, field, _, _, _, children⟩ :: rest =>
    if field = some f then ofStmts s children else ofBlockField s f rest

/-- What the definition among the parts of a decorated definition does. -/
def ofDefinition (s : Scope) (decorators : List String) : List Node → List Flow
  | [] => []
  | c :: rest =>
    if c.field = some .definition then ofStmt s decorators c else ofDefinition s decorators rest

/-- The routines of the class body among the parts of a class definition. -/
def ofClassBody (s : Scope) (name? : Option Node) : List Node → List Flow
  | [] => []
  | body@⟨_, field, _, _, _, members⟩ :: rest =>
    if field = some .body then
      match name? with
      | none => []
      | some name =>
        let inner := s.ofClass name.text body
        [routine inner.routine (ofMembers inner members)]
    else ofClassBody s name? rest

/-- What the statements of a class body do. -/
def ofMembers (s : Scope) : List Node → List Flow
  | [] => []
  | m :: rest => (if m.isNamed then ofMember s [] m else []) ++ ofMembers s rest

/-- What the definition among the parts of a decorated member of a class does. -/
def ofDecoratedMember (s : Scope) (decorators : List String) : List Node → List Flow
  | [] => []
  | c :: rest =>
    if c.field = some .definition then ofMember s decorators c
    else ofDecoratedMember s decorators rest

/-- What a member of a class does. -/
def ofMember (s : Scope) (decorators : List String) : Node → List Flow
  | n@⟨kind, _, _, _, _, children⟩ =>
    match kind with
    | .functionDefinition =>
      ofFunction s .method decorators n fun inner => ofBlockField inner .body children
    | .decoratedDefinition => ofDecoratedMember s (decoratorNames n) children
    | .classDefinition => ofClassBody s (n.child? .name) children
    | .expressionStatement => (n.named.flatMap s.bodyWrites).map probe
    | _ => []

/-- The arms of a branching statement, given its parts. -/
def armsOf (s : Scope) : List Node → List Arm
  | [] => []
  | c@⟨kind, _, _, _, _, children⟩ :: rest =>
    let here :=
      if ¬ c.isNamed then []
      else if kind = .block then [.block (ofStmts s children)]
      else if kind.isClause then armsOf s children
      else if kind = .comment then []
      else (s.probes false c).map .probe
    here ++ armsOf s rest

/-- The parts of a `try` statement except its `finally`. -/
def partsOf (s : Scope) : List Node → List Part
  | [] => []
  | c@⟨kind, _, _, _, _, children⟩ :: rest =>
    let here :=
      if ¬ c.isNamed then []
      else
        match kind with
        | .block => [.body (ofStmts s children)]
        | .elseClause => [.orElse (armsOf s children)]
        | .finallyClause | .comment => []
        | _ => [.handler (armsOf s children)]
    here ++ partsOf s rest

/-- What the last `finally` among the parts of a `try` statement does. -/
def finalOf? (s : Scope) : List Node → Option (List Flow)
  | [] => none
  | c@⟨kind, _, _, _, _, children⟩ :: rest =>
    match finalOf? s rest with
    | some final => some final
    | none =>
      if kind = .finallyClause ∧ c.isNamed then some (ofBlocks s children) else none

/-- What the blocks among a list of siblings do, one after the other. -/
def ofBlocks (s : Scope) : List Node → List Flow
  | [] => []
  | c@⟨kind, _, _, _, _, children⟩ :: rest =>
    (if kind = .block ∧ c.isNamed then ofStmts s children else []) ++
      ofBlocks s rest

end

/-- The flow of the top level of a file, with the routines defined in it. -/
def ofUnit (names : Lock.Names) (u : SourceUnit) : List Flow :=
  ofStmts (Scope.ofUnit names u) u.tree.children

end Flow

/-- The events of a file in the order of the text. -/
def walk (mode : Lock.HoldMode) (names : Lock.Names) (u : SourceUnit) : List Event :=
  .enter Scope.topLevel :: (Flow.runAll mode Scope.topLevel [] (Flow.ofUnit names u)).1

end Interlock
