import Interlock.Lock.Pattern
import Interlock.Lock.Vocabulary
import Interlock.Routine
import Interlock.Syntax.Unit

/-!
# Scopes

What the meaning of an expression depends on: the routine in which it stands, the class that the
routine belongs to with what is known of it (`ClassFacts`), the names that stand for the object
(`Scope.receivers`), and the names that count as locks in the file (`Scope.names`,
`Scope.moduleLocks`).

* `ClassFacts.ofBody` reads off a class body its methods and the attributes made from a lock or a
  thread-safe container.
* `Scope.lockOf?` is the name of the lock that an expression denotes, if it denotes one.
* `Scope.rootAttr?` is the attribute of the object in which a chain such as `self.a.b[k]` is rooted.
-/

namespace Interlock

open Syntax

/-! ## What a file says of its names -/

/-- The callee of a call to a plain or dotted name. -/
def callee? (n : Node) : Option String :=
  if n.kind = .call then
    match n.child? .function with
    | some f => if f.kind = .identifier ∨ f.kind = .attr then some f.text else none
    | none => none
  else none

/-- The name that an assignment binds to the value of a call, with the callee: a bare name or the
attribute of any object. -/
def madeBy? (n : Node) : Option (String × String) := do
  let left ← n.child? .left
  let right ← n.child? .right
  let name ←
    match left.kind with
    | .attr => (left.child? .attr).map Node.text
    | .identifier => some left.text
    | _ => none
  return (name, ← callee? right)

mutual

/-- The names bound to the value of a call in a tree, with the callees, in the order of the text.
Nested classes are left out. -/
def madeIn : Node → List (String × String)
  | n@⟨kind, _, _, _, _, children⟩ =>
    (if kind = .assignment then (madeBy? n).toList else []) ++ madeAmong children

/-- The same for a list of siblings. -/
def madeAmong : List Node → List (String × String)
  | [] => []
  | c :: rest =>
    (if c.isNamed && c.kind ≠ .classDefinition then madeIn c else []) ++ madeAmong rest

end

/-- The names of the decorators of a decorated definition. -/
def decoratorNames (decorated : Node) : List String :=
  decorated.named.filterMap fun c =>
    if c.kind = .decorator then
      c.first?.map fun e =>
        Text.leaf (if e.kind = .call then (e.child? .function).getD e else e).text
    else none

/-- The line and the decorators of each decorated definition in a tree, in the order of the text. -/
def decoratedDefinitions (root : Node) : List (Nat × List String) :=
  root.preorder.flatMap fun n =>
    if n.kind = .decoratedDefinition ∧ decoratorNames n ≠ [] then
      (n.named.filter fun c => c.kind = .functionDefinition || c.kind = .classDefinition).map
        fun c => (c.line, decoratorNames n)
    else []

/-- The definition that a statement of a class body makes: itself, or what it decorates. -/
def defined (n : Node) : Node :=
  if n.kind = .decoratedDefinition then (n.child? .definition).getD n else n

/-- The modules that a tree imports. -/
def importedNames (n : Node) : List String :=
  match n.kind with
  | .importStatement =>
    n.named.filterMap fun c =>
      match c.kind with
      | .aliasedImport => (c.child? .name).map Node.text
      | .dottedName => some c.text
      | _ => none
  | .importFromStatement => ((n.child? .moduleName).map Node.text).toList
  | _ => []

mutual

/-- Whether a concurrency module is imported anywhere in a tree. -/
def importsConcurrency : Node → Bool
  | n@⟨kind, _, _, _, _, children⟩ =>
    if kind = .importStatement ∨ kind = .importFromStatement then
      (importedNames n).any fun m => Lock.concurrencyModules.contains (Text.head m)
    else anyImportsConcurrency children

/-- Whether a concurrency module is imported anywhere in a list of trees. -/
def anyImportsConcurrency : List Node → Bool
  | [] => false
  | c :: rest => (c.isNamed && importsConcurrency c) || anyImportsConcurrency rest

end

/-- The names that the top level of a file binds to a new lock. -/
def moduleLockNames (root : Node) : List String :=
  let statements := root.named.filter fun s => s.kind = .expressionStatement
  let assignments := statements.flatMap fun s => s.named.filter fun e => e.kind = .assignment
  assignments.filterMap fun e => do
    let left ← e.child? .left
    let right ← e.child? .right
    if left.kind = .identifier ∧ (callee? right).any Lock.isConstructor then some left.text
    else none

/-! ## Classes -/

/-- What is known of a class before its methods are followed. -/
structure ClassFacts where
  /-- The qualified name. -/
  name : String
  methods : List String
  /-- The attributes made from a lock constructor. -/
  lockAttrs : List String
  /-- The attributes made from a thread-safe container, with its type. -/
  threadSafe : List (String × String)
  deriving Repr, Inhabited

namespace ClassFacts

/-- What a class body says of the class. -/
def ofBody (name : String) (body : Node) : ClassFacts where
  name
  methods :=
    (body.named.map defined).filterMap fun d =>
      if d.kind = .functionDefinition then (d.child? .name).map Node.text else none
  lockAttrs := ((madeIn body).filter fun m => Lock.isConstructor m.2).map Prod.fst
  threadSafe :=
    (madeIn body).filterMap fun m =>
      if Lock.isConstructor m.2 then none else (Lock.threadSafeType? m.2).map (m.1, ·)

/-- The thread-safe type that an attribute was last made from. -/
def threadSafeType? (c : ClassFacts) (attr : String) : Option String :=
  (c.threadSafe.reverse.find? fun e => e.1 = attr).map Prod.snd

/-- The name by which the class calls itself. -/
def leaf (c : ClassFacts) : String := Text.leaf c.name

end ClassFacts

/-! ## Scopes -/

/-- The surroundings of an expression. -/
structure Scope where
  names : Lock.Names
  /-- The names that the top level of the file binds to a new lock. -/
  moduleLocks : List String
  routine : Routine
  owner : Option ClassFacts
  /-- The names that stand for the object or its class. -/
  receivers : List String
  deriving Inhabited

namespace Scope

/-- The routine of the statements at the top level of a file. -/
def topLevel : Routine := ⟨"<module>", "<module>", none, .module⟩

/-- The scope of the top level of a file. -/
def ofUnit (names : Lock.Names) (u : SourceUnit) : Scope where
  names
  moduleLocks := moduleLockNames u.tree
  routine := topLevel
  owner := none
  receivers := []

/-- Whether an expression is one of the names for the object. -/
def isReceiver (s : Scope) (n : Node) : Bool := n.kind = .identifier && s.receivers.contains n.text

mutual

/-- The name of the lock that an expression denotes. An attribute of the object is named by its
class, any other attribute by its text; the locks of a container share one name. -/
def lockOf? (s : Scope) : Node → Option String
  | ⟨kind, _, text, _, _, children⟩ =>
    match kind with
    | .identifier =>
      if s.moduleLocks.contains text || s.names.looksLikeLock text then some text else none
    | .attr => do
      let object ← Node.withField? .object children
      let attr ← Node.withField? .attr children
      if s.isReceiver object then
        let c ← s.owner
        if c.lockAttrs.contains attr.text || s.names.looksLikeLock attr.text then
          some s!"{c.name}.{attr.text}"
        else none
      else if s.names.looksLikeLock attr.text then some text
      else none
    | .subscript => (lockOfField? s .value children).map (· ++ "[]")
    | .parenthesizedExpression => lockOfFirst? s children
    | _ => none

/-- The lock that the sibling in a given role denotes. -/
def lockOfField? (s : Scope) (f : Field) : List Node → Option String
  | [] => none
  | c :: rest => if c.field = some f then lockOf? s c else lockOfField? s f rest

/-- The lock that the first sibling denotes. -/
def lockOfFirst? (s : Scope) : List Node → Option String
  | [] => none
  | c :: rest => if c.isNamed then lockOf? s c else lockOfFirst? s rest

end

mutual

/-- The attribute of the object in which a chain of attributes and subscripts is rooted, with the
name that stands for the object there. -/
def rootAttr? (s : Scope) : Node → Option (Node × String)
  | ⟨kind, _, _, _, _, children⟩ =>
    match kind with
    | .attr =>
      match Node.withField? .object children with
      | none => none
      | some object =>
        if s.isReceiver object then (Node.withField? .attr children).map (·, object.text)
        else rootAttrOfField? s .object children
    | .subscript => rootAttrOfField? s .value children
    | _ => none

/-- The same for the sibling in a given role. -/
def rootAttrOfField? (s : Scope) (f : Field) : List Node → Option (Node × String)
  | [] => none
  | c :: rest => if c.field = some f then rootAttr? s c else rootAttrOfField? s f rest

end

/-- The name of the first parameter of a function, if it is a plain one. -/
def firstParameter? (function : Node) : Option String := do
  let first ← (← function.child? .parameters).first?
  let ident ←
    match first.kind with
    | .identifier => some first
    | .typedParameter => first.first?
    | .defaultParameter | .typedDefaultParameter => first.child? .name
    | _ => none
  if ident.kind = .identifier then some ident.text else none

/-- The scope of the body of a function defined in `s`. -/
def ofFunction (s : Scope) (kind : RoutineKind) (decorators : List String) (function : Node)
    (shortName : String) : Scope where
  names := s.names
  moduleLocks := s.moduleLocks
  routine := {
    name := if kind = .function then shortName else s!"{s.routine.name}.{shortName}"
    shortName
    owner := s.owner.map ClassFacts.name
    kind }
  owner := s.owner
  receivers :=
    match kind with
    | .method =>
      (if decorators.contains "staticmethod" then none else firstParameter? function).toList ++
        (s.owner.map ClassFacts.leaf).toList
    | .closure => s.receivers
    | _ => []

/-- The scope of the body of a class defined in `s`. -/
def ofClass (s : Scope) (name : String) (body : Node) : Scope :=
  let qualified :=
    match s.owner with
    | some c => s!"{c.name}.{name}"
    | none => name
  { names := s.names
    moduleLocks := s.moduleLocks
    routine := {
      name := qualified
      shortName := Text.leaf qualified
      owner := some qualified
      kind := .classBody }
    owner := some (ClassFacts.ofBody qualified body)
    receivers := [] }

end Scope

end Interlock
