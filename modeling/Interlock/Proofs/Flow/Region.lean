import Interlock.Proofs.Flow.Statement

/-!
# The routines of a file

The walk of a file enters regions: the top level, the bodies of functions that stand anywhere in the
statements of a routine it has entered, the bodies of classes that stand there, and the functions
and classes that are defined directly in such a class (`Region.Of`). It contains the walk of each of
them from its start, as one piece (`Region.Of.infix_walk`).

A file can have more regions than that (`Region.Lies`). The walk passes over every statement of a
class body that is no definition and no expression, with all that is defined in it: the body of
`if DEBUG:` in a class, and a method in it, are never entered.
-/

namespace Interlock

open Syntax Lock

/-- The blocks of a statement that belong to the same routine. -/
def Syntax.Node.innerBlocks (n : Node) : List (List Node) :=
  match n.kind with
  | .withStatement => ((n.child? .body).map Node.children).toList
  | .tryStatement =>
    n.ownBlocks ++ (n.children.filter Node.isHandler).flatMap Node.blocks ++
      n.elseClauses.flatMap Node.blocks ++ [n.finalStatements]
  | _ => if n.isBranching then n.blocks else []

/-- A statement stands in a block or somewhere in the statements of the block. -/
inductive Stands (n : Node) : List Node → Prop where
  | here {ns} (mem : n ∈ ns) (named : n.isNamed = true) : Stands n ns
  | inner {ns m b} (mem : m ∈ ns) (named : m.isNamed = true) (block : b ∈ m.innerBlocks)
      (stands : Stands n b) : Stands n ns

/-- A part of a file with a scope of its own. -/
inductive Region where
  /-- The body of a routine inside the locks of its decorators. -/
  | routine (s : Scope) (decorators : List WithItem) (body : List Node)
  /-- The body of a class. -/
  | members (s : Scope) (body : List Node)

namespace Region

def scope : Region → Scope
  | routine s _ _ => s
  | members s _ => s

/-- The statements of the region. -/
def body : Region → List Node
  | routine _ _ body => body
  | members _ body => body

/-- What the region does. -/
def flow : Region → List Flow
  | routine s decorators body => Flow.ofWith decorators (Flow.ofStmts s body)
  | members s body => Flow.ofMembers s body

/-- The definitions that the walk of the region enters: those that stand anywhere in a routine, but
only those that stand directly in a class. -/
def Has (n : Node) : Region → Prop
  | routine _ _ body => Stands n body
  | members _ body => n ∈ body ∧ n.isNamed = true

/-- What a function is that is defined in the region. -/
def functionKind : Region → RoutineKind
  | routine s _ _ => if s.routine.kind = .module then .function else .closure
  | members _ _ => .method

/-- The regions of a file that the walk enters. -/
inductive Of (names : Names) (u : SourceUnit) : Region → Prop where
  | top : Of names u (routine (Scope.ofUnit names u) [] u.tree.children)
  | function {outer n f name b} (region : Of names u outer) (has : outer.Has n) (eq : defined n = f)
      (kind : f.kind = .functionDefinition) (named : f.child? .name = some name)
      (body : f.child? .body = some b) :
      Of names u (routine
        (outer.scope.ofFunction outer.functionKind (Flow.decoratorsOf n) f name.text)
        ((Flow.decoratorLocks outer.scope (Flow.decoratorsOf n)).map (WithItem.lock · f.line))
        b.children)
  | classBody {outer n c name b} (region : Of names u outer) (has : outer.Has n)
      (eq : defined n = c) (kind : c.kind = .classDefinition) (named : c.child? .name = some name)
      (body : c.child? .body = some b) :
      Of names u (members (outer.scope.ofClass name.text b) b.children)

/-- All regions of a file, entered or not: here a definition makes a region wherever it stands, in a
class as well. -/
inductive Lies (names : Names) (u : SourceUnit) : Region → Prop where
  | top : Lies names u (routine (Scope.ofUnit names u) [] u.tree.children)
  | function {outer n f name b} (region : Lies names u outer) (stands : Stands n outer.body)
      (eq : defined n = f) (kind : f.kind = .functionDefinition)
      (named : f.child? .name = some name) (body : f.child? .body = some b) :
      Lies names u (routine
        (outer.scope.ofFunction outer.functionKind (Flow.decoratorsOf n) f name.text)
        ((Flow.decoratorLocks outer.scope (Flow.decoratorsOf n)).map (WithItem.lock · f.line))
        b.children)
  | classBody {outer n c name b} (region : Lies names u outer) (stands : Stands n outer.body)
      (eq : defined n = c) (kind : c.kind = .classDefinition)
      (named : c.child? .name = some name) (body : c.child? .body = some b) :
      Lies names u (members (outer.scope.ofClass name.text b) b.children)

theorem Has.stands {region : Region} {n : Node} (h : region.Has n) : Stands n region.body := by
  cases region with
  | routine s decorators body => exact h
  | members s body => exact .here h.1 h.2

/-- What the walk enters is a region of the file. -/
theorem Of.lies {names : Names} {u : SourceUnit} {region : Region} (h : region.Of names u) :
    region.Lies names u := by
  induction h with
  | top => exact .top
  | function _ has eq kind named body ih => exact .function ih has.stands eq kind named body
  | classBody _ has eq kind named body ih => exact .classBody ih has.stands eq kind named body

end Region

/-! ## The walk of a region -/

namespace Flow

variable {mode : HoldMode} {r : Routine} {s : Scope} {n : Node}

/-- The events of a run of `fs` from some holds occur as one piece in a run of `gs` from any. -/
def Occurs (mode : HoldMode) (r : Routine) (fs gs : List Flow) : Prop :=
  ∀ held, ∃ held', (runAll mode r held' fs).1 <:+: (runAll mode r held gs).1

theorem Occurs.refl (fs : List Flow) : Occurs mode r fs fs := fun held => ⟨held, List.infix_rfl⟩

theorem Occurs.trans {fs gs hs : List Flow} (h : Occurs mode r fs gs) (h' : Occurs mode r gs hs) :
    Occurs mode r fs hs := by
  intro held
  obtain ⟨held', hinfix'⟩ := h' held
  obtain ⟨held'', hinfix⟩ := h held'
  exact ⟨held'', hinfix.trans hinfix'⟩

theorem occurs_append (fs gs hs : List Flow) : Occurs mode r gs (fs ++ gs ++ hs) := by
  intro held
  refine ⟨(runAll mode r held fs).2, ?_⟩
  rw [runAll_append, runAll_append]
  exact List.infix_append _ _ _

/-- The body of a `with` statement is walked as one piece, with the locks held. -/
theorem occurs_ofWith (items : List WithItem) (body : List Flow) :
    Occurs mode r body (ofWith items body) := by
  induction items with
  | nil => exact .refl _
  | cons item rest ih =>
    cases item with
    | lock name line =>
      refine ih.trans fun held => ⟨held.push name true, ?_⟩
      simp only [ofWith, runAll_singleton, run]
      exact (List.suffix_cons _ _).isInfix
    | probes ps =>
      refine ih.trans ?_
      simpa [ofWith] using occurs_append (ps.map probe) (ofWith rest body) []

/-- So is each block of a branching statement. -/
theorem occurs_branch {body : List Flow} {arms : List Arm} (h : .block body ∈ arms)
    (exhaustive : Bool) : Occurs mode r body [branch arms exhaustive] := by
  intro held
  refine ⟨held, ?_⟩
  simp only [runAll_singleton, run]
  exact runAll_infix_of_block_mem h

theorem occurs_final (parts : List Part) (final : List Flow) :
    Occurs mode r final [attempt parts final] := by
  intro held
  refine ⟨held.merge mode (runParts mode r held [] none parts).2, ?_⟩
  simp only [runAll_singleton, run]
  exact (List.suffix_append _ _).isInfix

/-- Each part of a `try` is walked as one piece, from wherever the walk has come to. -/
theorem exists_follow_infix {parts : List Part} {p : Part} (h : p ∈ parts) (final : List Flow)
    (held : HeldLocks) : ∃ st, (follow mode r held st p).1 <:+:
      (runAll mode r held [attempt parts final]).1 := by
  obtain ⟨ps, qs, rfl⟩ := List.append_of_mem h
  refine ⟨followAll mode r held ⟨[], none⟩ ps, ?_⟩
  have happend : runParts mode r held [] none (ps ++ p :: qs) = _ :=
    runParts_append ⟨[], none⟩ ps (p :: qs)
  simp only [runAll_singleton, run, happend, runParts_cons]
  rw [← List.append_assoc]
  exact (List.infix_append _ _ _).trans (List.prefix_append _ _).isInfix

theorem occurs_body {body : List Flow} {parts : List Part} (h : .body body ∈ parts)
    (final : List Flow) : Occurs mode r body [attempt parts final] := by
  intro held
  obtain ⟨st, hinfix⟩ := exists_follow_infix h final held
  exact ⟨held, hinfix⟩

theorem occurs_handler {body : List Flow} {arms : List Arm} {parts : List Part}
    (h : .handler arms ∈ parts) (hbody : .block body ∈ arms) (final : List Flow) :
    Occurs mode r body [attempt parts final] := by
  intro held
  obtain ⟨st, hinfix⟩ := exists_follow_infix h final held
  exact ⟨held, (runAll_infix_of_block_mem hbody).trans hinfix⟩

theorem occurs_orElse {body : List Flow} {arms : List Arm} {parts : List Part}
    (h : .orElse arms ∈ parts) (hbody : .block body ∈ arms) (final : List Flow) :
    Occurs mode r body [attempt parts final] := by
  intro held
  obtain ⟨⟨ends, body?⟩, hinfix⟩ := exists_follow_infix h final held
  cases body? with
  | none => exact ⟨held, (runAll_infix_of_block_mem hbody).trans hinfix⟩
  | some i => exact ⟨_, (runAll_infix_of_block_mem hbody).trans hinfix⟩

theorem mem_partsOf {c : Node} {p : Part} {children : List Node} (hc : c ∈ children)
    (hp : ∀ rest, partsOf s (c :: rest) = p :: partsOf s rest) : p ∈ partsOf s children := by
  obtain ⟨ms, ns, rfl⟩ := List.append_of_mem hc
  rw [partsOf_append, hp]
  exact List.mem_append_right _ List.mem_cons_self

/-- **Every block inside a statement is walked as one piece of it**, with whatever is held there. -/
theorem occurs_of_mem_innerBlocks {b : List Node} (h : b ∈ n.innerBlocks) :
    Occurs mode r (ofStmts s b) (ofStmt s [] n) := by
  unfold Node.innerBlocks at h
  split at h
  · rename_i hkind
    cases hb : n.child? .body with
    | none => simp [hb] at h
    | some body =>
      obtain rfl : b = body.children := by simpa [hb] using h
      rw [ofStmt_of_withStatement hkind hb]
      exact occurs_ofWith _ _
  · rename_i hkind
    rw [ofStmt_of_tryStatement hkind]
    simp only [List.mem_append, List.mem_flatMap, List.mem_singleton] at h
    rcases h with ((h | ⟨c, hc, h⟩) | ⟨c, hc, h⟩) | rfl
    · obtain ⟨c, hc, rfl⟩ := List.mem_map.1 h
      obtain ⟨hc, hblock, hnamed⟩ := Node.mem_ofKind.1 hc
      exact occurs_body (mem_partsOf hc fun rest => partsOf_cons_body rest hblock hnamed) _
    · obtain ⟨hc, hhandler⟩ := List.mem_filter.1 hc
      exact occurs_handler (mem_partsOf hc fun rest => partsOf_cons_handler rest hhandler)
        (block_mem_armsOf s _ h) _
    · obtain ⟨hc, hkind, hnamed⟩ := Node.mem_ofKind.1 hc
      exact occurs_orElse (mem_partsOf hc fun rest => partsOf_cons_orElse rest hkind hnamed)
        (block_mem_armsOf s _ h) _
    · exact occurs_final _ _
  · split at h
    · rename_i hbranching
      rw [ofStmt_of_isBranching hbranching]
      exact occurs_branch (block_mem_armsOf s _ h) _
    · cases h

theorem occurs_of_mem {ns : List Node} (h : n ∈ ns) (hnamed : n.isNamed = true) :
    Occurs mode r (ofStmt s [] n) (ofStmts s ns) := by
  obtain ⟨before, after, rfl⟩ := List.append_of_mem h
  rw [ofStmts_append, ofStmts, if_pos hnamed, ← List.append_assoc]
  exact occurs_append _ _ _

/-- So is every statement that stands somewhere in a block. -/
theorem occurs_of_stands {ns : List Node} (h : Stands n ns) :
    Occurs mode r (ofStmt s [] n) (ofStmts s ns) := by
  induction h with
  | here mem named => exact occurs_of_mem mem named
  | inner mem named block _ ih =>
    exact ih.trans ((occurs_of_mem_innerBlocks block).trans (occurs_of_mem mem named))

theorem ofDecoratedMember_eq (s : Scope) (decorators : List String) (children : List Node) :
    ofDecoratedMember s decorators children =
      ((Node.withField? .definition children).map (ofMember s decorators)).getD [] := by
  induction children with
  | nil => rfl
  | cons c rest ih =>
    by_cases h : c.field = some .definition
    · simp [ofDecoratedMember, Node.withField?, h]
    · simp [ofDecoratedMember, Node.withField?, h, ih]

/-- A definition is walked with its decorators, if it has any. -/
theorem ofMember_of_isDefinition (h : n.isDefinition = true) :
    ofMember s [] n = ofMember s (decoratorsOf n) (defined n) := by
  by_cases hkind : n.kind = .decoratedDefinition
  · cases hchild : n.child? .definition with
    | none => simp [Node.isDefinition, defined, hkind, hchild] at h
    | some c =>
      simp only [decoratorsOf, defined, hkind, if_true, hchild, Option.getD_some]
      obtain ⟨kind, field, text, row, flaw, children⟩ := n
      obtain rfl : kind = .decoratedDefinition := hkind
      rw [Node.child?] at hchild
      simp only [ofMember, ofDecoratedMember_eq, hchild, Option.map_some, Option.getD_some]
  · simp [decoratorsOf, defined, hkind]

theorem occurs_member {ns : List Node} (h : n ∈ ns) (hnamed : n.isNamed = true) :
    Occurs mode r (ofMember s [] n) (ofMembers s ns) := by
  induction ns with
  | nil => cases h
  | cons m rest ih =>
    rw [ofMembers]
    rcases List.mem_cons.1 h with rfl | h
    · rw [if_pos hnamed]
      simpa using occurs_append [] (ofMember s [] n) (ofMembers s rest)
    · refine (ih h).trans ?_
      simpa using occurs_append _ (ofMembers s rest) []

/-- What a function or a class does that is defined in a region. -/
def ofDefined (region : Region) (decorators : List String) (d : Node) : List Flow :=
  if d.kind = .functionDefinition then
    ofFunction region.scope region.functionKind decorators d fun inner =>
      ofBlockField inner .body d.children
  else ofClassBody region.scope (d.child? .name) d.children

/-- What a region defines is walked as one piece of the region. -/
theorem occurs_ofDefined {region : Region} (h : region.Has n) (hn : n.isDefinition = true) :
    Occurs mode region.scope.routine (ofDefined region (decoratorsOf n) (defined n))
      region.flow := by
  have hkind : (defined n).kind = .functionDefinition ∨ (defined n).kind = .classDefinition := by
    simpa [Node.isDefinition] using hn
  cases region with
  | routine s decorators body =>
    have hof : ofDefined (.routine s decorators body) (decoratorsOf n) (defined n) =
        ofStmt s [] n := by
      rw [ofStmt_of_isDefinition hn]
      generalize decoratorsOf n = ds, defined n = d at hkind
      obtain ⟨kind, field, text, row, flaw, children⟩ := d
      rcases hkind with rfl | rfl <;> simp [ofDefined, ofStmt, Region.scope, Region.functionKind]
    rw [hof]
    exact (occurs_of_stands h).trans (occurs_ofWith _ _)
  | members s body =>
    have hof : ofDefined (.members s body) (decoratorsOf n) (defined n) = ofMember s [] n := by
      rw [ofMember_of_isDefinition hn]
      generalize decoratorsOf n = ds, defined n = d at hkind
      obtain ⟨kind, field, text, row, flaw, children⟩ := d
      rcases hkind with rfl | rfl <;> simp [ofDefined, ofMember, Region.scope, Region.functionKind]
    rw [hof]
    exact occurs_member h.1 h.2

theorem ofDefined_of_function {region : Region} {f name b : Node} {decorators : List String}
    (hkind : f.kind = .functionDefinition) (hname : f.child? .name = some name)
    (hbody : f.child? .body = some b) :
    let inner := region.scope.ofFunction region.functionKind decorators f name.text
    ofDefined region decorators f = [.routine inner.routine (ofWith
      ((decoratorLocks region.scope decorators).map (WithItem.lock · f.line))
      (ofStmts inner b.children))] := by
  rw [Node.child?] at hbody
  simp [ofDefined, hkind, ofFunction, hname, ofBlockField_eq, hbody, underLocks]

theorem ofDefined_of_class {region : Region} {c name b : Node} {decorators : List String}
    (hkind : c.kind = .classDefinition) (hname : c.child? .name = some name)
    (hbody : c.child? .body = some b) :
    let inner := region.scope.ofClass name.text b
    ofDefined region decorators c = [.routine inner.routine (ofMembers inner b.children)] := by
  rw [Node.child?] at hbody
  rw [ofDefined, if_neg (by simp [hkind]), hname]
  generalize c.children = children at hbody
  induction children with
  | nil => cases hbody
  | cons d rest ih =>
    obtain ⟨kind, field, text, row, flaw, below⟩ := d
    by_cases hfield : field = some .body
    · obtain rfl : _ = b := by simpa [Node.withField?, hfield] using hbody
      simp [ofClassBody, hfield]
    · simp only [ofClassBody, hfield, if_false]
      exact ih (by simpa [Node.withField?, hfield] using hbody)

/-- The walk of a file contains that of a routine defined in one of its regions. -/
theorem infix_walk_of_ofDefined {names : Names} {u : SourceUnit} {region : Region}
    {inner : Routine} {body : List Flow}
    (hregion : .enter region.scope.routine ::
      (runAll mode region.scope.routine [] region.flow).1 <:+: walk mode names u)
    (h : region.Has n) (hn : n.isDefinition = true)
    (hof : ofDefined region (decoratorsOf n) (defined n) = [.routine inner body]) :
    .enter inner :: (runAll mode inner [] body).1 <:+: walk mode names u := by
  obtain ⟨held, hinfix⟩ := (occurs_ofDefined h hn : Occurs mode _ _ _) []
  rw [hof, runAll_singleton, run] at hinfix
  exact hinfix.trans ((List.suffix_cons _ _).isInfix.trans hregion)

end Flow

/-- **The walk of a file contains the walk of each region that it enters**, from the start of the
region and with nothing else in between. -/
theorem Region.Of.infix_walk {mode : HoldMode} {names : Names} {u : SourceUnit}
    {region : Region} (h : region.Of names u) :
    .enter region.scope.routine :: (Flow.runAll mode region.scope.routine [] region.flow).1 <:+:
      walk mode names u := by
  induction h with
  | top => exact List.infix_rfl
  | function _ has eq kind named body ih =>
    subst eq
    exact Flow.infix_walk_of_ofDefined ih has (by simp [Node.isDefinition, kind])
      (Flow.ofDefined_of_function kind named body)
  | classBody _ has eq kind named body ih =>
    subst eq
    exact Flow.infix_walk_of_ofDefined ih has (by simp [Node.isDefinition, kind])
      (Flow.ofDefined_of_class kind named body)

/-- The events of a region that the walk enters are events of the file. -/
theorem Region.Of.runAll_subset_walk {mode : HoldMode} {names : Names} {u : SourceUnit}
    {region : Region} (h : region.Of names u) :
    (Flow.runAll mode region.scope.routine [] region.flow).1 ⊆ walk mode names u :=
  List.Subset.trans (List.subset_cons_self _ _) h.infix_walk.subset

end Interlock
