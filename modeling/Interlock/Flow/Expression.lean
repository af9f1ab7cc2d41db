import Interlock.Flow.Basic
import Interlock.Flow.Scope

/-!
# What expressions do

`Scope.probes` lists the accesses to attributes of the object and the calls of own methods that an
expression makes, in the order of evaluation; `Scope.targetProbes` does the same for the target of
an assignment, where the attribute in which the target is rooted is written.

An access is dropped by `Scope.probe?` if its attribute is a method, a lock, or a name with two
underscores on both sides: none of these is state of the class.
-/

namespace Interlock

open Syntax

namespace Scope

/-- Names such as `__dict__`, which belong to the language. -/
def isSpecialName (name : String) : Bool :=
  "__".toList.isPrefixOf name.toList && "__".toList.isSuffixOf name.toList

/-- An access to an attribute, unless it is no state of the class. -/
def probe? (s : Scope) (detached : Bool) (attr : String) (receiver : String) (kind : AccessKind)
    (line : Nat) (readModifyWrite : Bool) (viaMethod : Option String) : Option Probe := do
  let c ← s.owner
  if isSpecialName attr || c.methods.contains attr || c.lockAttrs.contains attr ||
      s.names.looksLikeLock attr then none
  else
    some <| .access detached {
      attr
      kind
      line
      readModifyWrite
      receiver
      viaMethod
      threadSafe := c.threadSafeType? attr }

/-- Whether a method is one of the class itself. -/
def isOwnMethod (s : Scope) (method : String) : Bool :=
  s.owner.any fun c => c.methods.contains method

/-- Whether a call of a method changes the object that it is called on. -/
def mutates (method : String) : Bool :=
  Lock.mutatingMethods.contains method || Lock.atomicMethods.contains method

mutual

/-- What an expression does. Inside a lambda it is `detached` from the locks around it. -/
def probes (s : Scope) (detached : Bool) : Node → List Probe
  | n@⟨kind, _, _, _, _, children⟩ =>
    match kind with
    | .lambda => probesOfField s true .body children
    | .call => probesOfCallee s detached children ++ probesOfField s detached .arguments children
    | .attr =>
      match rootAttr? s n with
      | some (attr, receiver) =>
        (probe? s detached attr.text receiver .read n.line false none).toList
      | none => probesAmong s detached children
    | .comment | .integer | .float | .identifier => []
    | _ => probesAmong s detached children

/-- What a list of siblings does. -/
def probesAmong (s : Scope) (detached : Bool) : List Node → List Probe
  | [] => []
  | c :: rest => (if c.isNamed then probes s detached c else []) ++ probesAmong s detached rest

/-- What the sibling in a given role does. -/
def probesOfField (s : Scope) (detached : Bool) (f : Field) : List Node → List Probe
  | [] => []
  | c :: rest => if c.field = some f then probes s detached c else probesOfField s detached f rest

/-- What the callee of a call does, given the children of the call. -/
def probesOfCallee (s : Scope) (detached : Bool) : List Node → List Probe
  | [] => []
  | c :: rest =>
    if c.field = some .function then
      if c.kind = .attr then probesOfMethod s detached c else probes s detached c
    else probesOfCallee s detached rest

/-- What a call of a method does, given the attribute that names the method. A method of the class
itself is an own call; any other method of the object is read like an attribute; a method of an
attribute reads that attribute, or writes it if the method changes it. -/
def probesOfMethod (s : Scope) (detached : Bool) : Node → List Probe
  | n@⟨_, _, _, _, _, children⟩ =>
    match Node.withField? .object children, Node.withField? .attr children with
    | some object, some method =>
      if s.isReceiver object then
        if s.isOwnMethod method.text then [.ownCall detached method.text n.line]
        else (probe? s detached method.text object.text .read n.line false none).toList
      else
        match rootAttr? s object with
        | none => probesOfField s detached .object children
        | some (attr, receiver) =>
          let access :=
            if mutates method.text then
              probe? s detached attr.text receiver .write n.line false (some method.text)
            else probe? s detached attr.text receiver .read n.line false none
          access.toList ++
            if object.kind = .subscript then probesOfIndex s detached .object children else []
    | _, _ => []

/-- What the index of the subscript in a given role does. -/
def probesOfIndex (s : Scope) (detached : Bool) (f : Field) : List Node → List Probe
  | [] => []
  | ⟨_, field, _, _, _, children⟩ :: rest =>
    if field = some f then probesOfField s detached .subscript children
    else probesOfIndex s detached f rest

end

/-- The patterns that distribute an assignment over their parts. -/
def isCompoundTarget : Kind → Bool
  | .patternList | .tuplePattern | .listPattern | .tuple | .list | .expressionList
  | .parenthesizedExpression | .listSplatPattern | .listSplat => true
  | _ => false

mutual

/-- What an assignment does to its target. A write that goes through a chain or a subscript is made
by way of `[]`. -/
def targetProbes (s : Scope) (readModifyWrite : Bool) : Node → List Probe
  | n@⟨kind, _, _, _, _, children⟩ =>
    if kind = .attr ∨ kind = .subscript then
      match rootAttr? s n with
      | none => probes s false n
      | some (attr, receiver) =>
        let direct := kind = .attr && (Node.withField? .object children).any s.isReceiver
        let via := if direct then none else some "[]"
        (probe? s false attr.text receiver .write n.line readModifyWrite via).toList ++
          if kind = .subscript then probesOfField s false .subscript children else []
    else if isCompoundTarget kind then targetProbesAmong s readModifyWrite children
    else if kind = .identifier then []
    else probes s false n

/-- What an assignment does to each of a list of targets. -/
def targetProbesAmong (s : Scope) (readModifyWrite : Bool) : List Node → List Probe
  | [] => []
  | c :: rest =>
    (if c.isNamed then targetProbes s readModifyWrite c else []) ++
      targetProbesAmong s readModifyWrite rest

end

mutual

/-- What an assignment does: its value first, which may be an assignment again, then its target. -/
def assignmentProbes (s : Scope) : Node → List Probe
  | ⟨_, _, _, _, _, children⟩ =>
    assignedProbes s children ++
      match Node.withField? .left children with
      | some left => targetProbes s false left
      | none => []

/-- What the value of an assignment does, given the children of the assignment. -/
def assignedProbes (s : Scope) : List Node → List Probe
  | [] => []
  | c :: rest =>
    if c.field = some .right then
      if c.kind = .assignment then assignmentProbes s c else probes s false c
    else assignedProbes s rest

end

mutual

/-- The writes of a statement directly in a class body to the names that it binds. -/
def bodyWrites (s : Scope) : Node → List Probe
  | ⟨kind, _, _, _, _, children⟩ =>
    match Node.withField? .left children with
    | none => []
    | some left =>
      if kind = .assignment ∨ kind = .augmentedAssignment then
        let names :=
          if left.kind = .identifier then [left] else left.collect .identifier none
        bodyWritesOfValue s children ++
          names.filterMap fun name =>
            probe? s false name.text ((s.owner.map ClassFacts.leaf).getD "") .write name.line
              (kind = .augmentedAssignment) none
      else []

/-- The writes of the value of an assignment, given its children, if it is an assignment again. -/
def bodyWritesOfValue (s : Scope) : List Node → List Probe
  | [] => []
  | c :: rest =>
    if c.field = some .right then if c.kind = .assignment then bodyWrites s c else []
    else bodyWritesOfValue s rest

end

end Scope

end Interlock
