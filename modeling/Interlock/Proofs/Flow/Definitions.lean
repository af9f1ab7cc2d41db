import Interlock.Proofs.Flow.Region
import Interlock.Proofs.Syntax.Nesting

/-!
# The routines that a walk enters

`definitionsIn` lists the definitions of a tree in the order of the text, each with the routine that
it makes where it stands. A walk enters these routines in this order (`enters_walk`), except for
those in a statement of a class body that is no definition itself: of such a statement the walk of
the class sees nothing (`Enclosing.into`).
-/

namespace Interlock

open Syntax

/-! ## The definitions of a tree -/

namespace Routine

/-- The routine of a function that is defined in another routine. -/
def ofFunction (r : Routine) (name : String) : Routine where
  name := if r.kind = .module then name else s!"{r.name}.{name}"
  shortName := name
  owner := r.owner
  kind :=
    match r.kind with
    | .module => .function
    | .classBody => .method
    | _ => .closure

/-- The routine of the body of a class that is defined in another routine. -/
def ofClass (r : Routine) (name : String) : Routine :=
  let qualified :=
    match r.owner with
    | some c => s!"{c}.{name}"
    | none => name
  ⟨qualified, Text.leaf qualified, some qualified, .classBody⟩

/-- The routine that a node makes: one for each function with a name and each class with a name and
a body. -/
def made? (r : Routine) (n : Node) : Option Routine :=
  match n.kind, n.child? .name with
  | .functionDefinition, some name => some (r.ofFunction name.text)
  | .classDefinition, some name =>
    if (n.child? .body).isSome then some (r.ofClass name.text) else none
  | _, _ => none

end Routine

/-- A function with a name, or a class with a name and a body. -/
def Syntax.Node.makesRoutine (n : Node) : Bool :=
  (n.kind = .functionDefinition && (n.child? .name).isSome) ||
    (n.kind = .classDefinition && (n.child? .name).isSome && (n.child? .body).isSome)

/-- Which nodes make a routine does not depend on where they stand. -/
theorem Routine.isSome_made? (r : Routine) (n : Node) : (r.made? n).isSome = n.makesRoutine := by
  unfold made? Node.makesRoutine
  split
  · simp_all
  · simp_all
    split <;> simp_all
  · rename_i hfunction hclass
    cases hname : n.child? .name with
    | none => simp
    | some name =>
      have hf : n.kind ≠ .functionDefinition := fun h => hfunction name h hname
      have hc : n.kind ≠ .classDefinition := fun h => hclass name h hname
      simp [hf, hc]

theorem Routine.made?_eq_none {r : Routine} {n : Node} (h : n.kind.level ≠ .definition) :
    r.made? n = none := by
  have hmade := r.isSome_made? n
  have hf : n.kind ≠ .functionDefinition := fun e => h (by rw [e]; rfl)
  have hc : n.kind ≠ .classDefinition := fun e => h (by rw [e]; rfl)
  simpa [Node.makesRoutine, hf, hc] using hmade

/-- No definition stands in an expression. -/
theorem makesRoutine_of_plain {n : Node} (hn : n.Everywhere Node.Nested)
    (h : n.kind.level = .plain) : ∀ d ∈ n.preorder, d.makesRoutine = false := by
  induction n using Node.ofChildren with
  | h n ih =>
    have hhere : n.makesRoutine = false := by
      rw [← Scope.topLevel.isSome_made? n, Routine.made?_eq_none (by rw [h]; decide)]
      rfl
    rw [Node.preorder_eq]
    refine List.forall_mem_cons.2 ⟨hhere, fun d hd => ?_⟩
    obtain ⟨c, hc, hd⟩ := List.mem_flatMap.1 hd
    have hlevel := hn.here.level c hc
    rw [h] at hlevel
    exact ih c hc (hn.child hc) (by simpa [Level.below] using hlevel) d hd

theorem Routine.kind_of_made? {r inner : Routine} {n : Node} (h : r.made? n = some inner)
    (hkind : inner.kind = .classBody) : n.kind = .classDefinition := by
  unfold made? at h
  split at h
  · obtain rfl := Option.some.inj h
    unfold ofFunction at hkind
    cases hr : r.kind <;> simp [hr] at hkind
  · assumption
  · nomatch h

/-- What stands around a definition. -/
structure Enclosing where
  routine : Routine
  /-- Whether the walk of the routine comes here. -/
  reached : Bool
  deriving DecidableEq, Repr

/-- One node further in. The walk of a class body looks at nothing but the definitions in it. -/
def Enclosing.into (e : Enclosing) (kind : Kind) : Enclosing :=
  if e.routine.kind = .classBody ∧ ¬(kind.level = .definition ∨ kind.level = .decorated ∨
      kind.level = .block) then { e with reached := false }
  else e

/-- A definition with the routine that it makes. -/
structure Definition where
  node : Node
  routine : Routine
  reached : Bool

mutual

/-- The definitions in a tree, in the order of the text. -/
def definitionsIn (e : Enclosing) : Node → List Definition
  | n@⟨kind, _, _, _, _, children⟩ =>
    let here := e.into kind
    match e.routine.made? n with
    | some inner => ⟨n, inner, here.reached⟩ :: definitionsAmong ⟨inner, here.reached⟩ children
    | none => definitionsAmong here children

/-- The definitions in a list of trees. -/
def definitionsAmong (e : Enclosing) : List Node → List Definition
  | [] => []
  | n :: rest => definitionsIn e n ++ definitionsAmong e rest

end

/-- The definitions of a file. -/
def Syntax.SourceUnit.definitions (u : SourceUnit) : List Definition :=
  definitionsIn ⟨Scope.topLevel, true⟩ u.tree

theorem definitionsAmong_eq (e : Enclosing) (nodes : List Node) :
    definitionsAmong e nodes = nodes.flatMap (definitionsIn e) := by
  induction nodes with
  | nil => rfl
  | cons n rest ih => rw [definitionsAmong, ih, List.flatMap_cons]

section Definitions

variable {e : Enclosing} {n : Node} {inner : Routine}

/-- A definition comes before those in it, which belong to its routine. -/
theorem definitionsIn_of_some (h : e.routine.made? n = some inner) :
    definitionsIn e n = ⟨n, inner, (e.into n.kind).reached⟩ ::
      n.children.flatMap (definitionsIn ⟨inner, (e.into n.kind).reached⟩) := by
  rw [← definitionsAmong_eq]
  obtain ⟨kind, field, text, row, flaw, children⟩ := n
  simp only [definitionsIn, h]

/-- Any other node adds nothing, but in the body of a class it may end the walk. -/
theorem definitionsIn_of_none (h : e.routine.made? n = none) :
    definitionsIn e n = n.children.flatMap (definitionsIn (e.into n.kind)) := by
  rw [← definitionsAmong_eq]
  obtain ⟨kind, field, text, row, flaw, children⟩ := n
  simp only [definitionsIn, h]

/-- Each definition of a tree is listed once, in the order of the text. -/
theorem map_node_definitionsIn (e : Enclosing) (n : Node) :
    (definitionsIn e n).map Definition.node = n.preorder.filter Node.makesRoutine := by
  induction n using Node.ofChildren generalizing e with
  | h n ih =>
    have hchildren (e : Enclosing) : (n.children.flatMap (definitionsIn e)).map Definition.node =
        (n.children.flatMap Node.preorder).filter Node.makesRoutine := by
      rw [List.map_flatMap, List.filter_flatMap]
      exact List.flatMap_congr fun c hc => ih c hc e
    have hmade := e.routine.isSome_made? n
    rw [Node.preorder_eq]
    cases hinner : e.routine.made? n with
    | some inner =>
      rw [hinner] at hmade
      rw [definitionsIn_of_some hinner, List.map_cons, hchildren,
        List.filter_cons_of_pos (by rw [← hmade]; rfl)]
    | none =>
      rw [hinner] at hmade
      rw [definitionsIn_of_none hinner, hchildren, List.filter_cons_of_neg (by simp [← hmade])]

theorem definitionsIn_eq_nil (h : ∀ d ∈ n.preorder, d.makesRoutine = false) :
    definitionsIn e n = [] := by
  have hmap := map_node_definitionsIn e n
  rw [List.filter_eq_nil_iff.2 fun d hd => by simp [h d hd]] at hmap
  exact List.map_eq_nil_iff.1 hmap

end Definitions

/-! ## The routines of a flow -/

/-- The routine that an event enters. -/
def Event.entered? : Event → Option Routine
  | enter r => some r
  | _ => none

/-- The routines that a walk enters, in order. -/
def enters (events : List Event) : List Routine := events.filterMap Event.entered?

theorem enters_append (es fs : List Event) : enters (es ++ fs) = enters es ++ enters fs :=
  List.filterMap_append

theorem enters_cons_of_none {e : Event} (h : e.entered? = none) (es : List Event) :
    enters (e :: es) = enters es :=
  List.filterMap_cons_none h

theorem Probe.entered?_event (p : Probe) (r : Routine) (held : Lock.HeldLocks) :
    (p.event r held).entered? = none := by
  cases p <;> rfl

namespace Flow

mutual

/-- The routines that a flow enters, in order. -/
def entered : Flow → List Routine
  | .probe _ | .acquire _ _ | .release _ => []
  | .within _ _ body => enteredAll body
  | .branch arms _ => enteredArms arms
  | .attempt parts final => enteredParts parts ++ enteredAll final
  | .routine r body => r :: enteredAll body

def enteredAll : List Flow → List Routine
  | [] => []
  | f :: rest => entered f ++ enteredAll rest

def enteredArms : List Arm → List Routine
  | [] => []
  | .probe _ :: rest => enteredArms rest
  | .block body :: rest => enteredAll body ++ enteredArms rest

def enteredParts : List Part → List Routine
  | [] => []
  | .body body :: rest => enteredAll body ++ enteredParts rest
  | .orElse arms :: rest | .handler arms :: rest => enteredArms arms ++ enteredParts rest

end

section Run

open Lock

variable (mode : HoldMode)

mutual

/-- **The routines that a walk enters are those of its flow**, whatever is held. -/
theorem enters_run (r : Routine) (held : HeldLocks) (f : Flow) :
    enters (run mode r held f).1 = f.entered := by
  match f with
  | .probe p =>
    rw [run, entered, enters_cons_of_none (p.entered?_event r held)]
    rfl
  | .acquire _ _ | .release _ => rfl
  | .within _ _ body =>
    rw [run, entered, enters_cons_of_none rfl]
    exact enters_runAll r _ body
  | .branch arms _ =>
    rw [run, entered]
    exact enters_runArms r held arms
  | .attempt parts final =>
    rw [run, entered, enters_append, enters_runParts r held [] none parts, enters_runAll r _ final]
  | .routine inner body =>
    rw [run, entered]
    exact congrArg (inner :: ·) (enters_runAll inner [] body)

theorem enters_runAll (r : Routine) (held : HeldLocks) (fs : List Flow) :
    enters (runAll mode r held fs).1 = enteredAll fs := by
  match fs with
  | [] => rfl
  | f :: rest => rw [runAll, enters_append, enters_run r held f, enters_runAll r _ rest, enteredAll]

theorem enters_runArms (r : Routine) (before : HeldLocks) (arms : List Arm) :
    enters (runArms mode r before arms).1 = enteredArms arms := by
  match arms with
  | [] => rfl
  | .probe p :: rest =>
    rw [runArms, enteredArms, enters_cons_of_none (p.entered?_event r before)]
    exact enters_runArms r before rest
  | .block body :: rest =>
    rw [runArms, enteredArms, enters_append, enters_runAll r before body,
      enters_runArms r before rest]

theorem enters_runParts (r : Routine) (before : HeldLocks) (ends : List HeldLocks)
    (body? : Option Nat) (parts : List Part) :
    enters (runParts mode r before ends body? parts).1 = enteredParts parts := by
  match parts with
  | [] => rfl
  | .body b :: rest =>
    rw [runParts, enteredParts, enters_append, enters_runAll r before b,
      enters_runParts r before _ _ rest]
  | .orElse arms :: rest =>
    cases body? with
    | some i =>
      rw [runParts, enteredParts, enters_append, enters_runArms r _ arms,
        enters_runParts r before _ _ rest]
    | none =>
      rw [runParts, enteredParts, enters_append, enters_runArms r before arms,
        enters_runParts r before _ _ rest]
  | .handler arms :: rest =>
    rw [runParts, enteredParts, enters_append, enters_runArms r before arms,
      enters_runParts r before _ _ rest]

end

end Run

variable {s : Scope} {n : Node}

theorem enteredAll_append (fs gs : List Flow) :
    enteredAll (fs ++ gs) = enteredAll fs ++ enteredAll gs := by
  induction fs with
  | nil => rfl
  | cons f rest ih => rw [List.cons_append, enteredAll, enteredAll, ih, List.append_assoc]

theorem enteredAll_singleton (f : Flow) : enteredAll [f] = f.entered := by
  rw [enteredAll, enteredAll, List.append_nil]

@[simp] theorem enteredAll_probes (ps : List Probe) : enteredAll (ps.map probe) = [] := by
  induction ps with
  | nil => rfl
  | cons p rest ih => rw [List.map_cons, enteredAll, entered, ih, List.append_nil]

@[simp] theorem enteredArms_probes (ps : List Probe) : enteredArms (ps.map .probe) = [] := by
  induction ps with
  | nil => rfl
  | cons p rest ih => rw [List.map_cons, enteredArms, ih]

theorem enteredArms_append (as bs : List Arm) :
    enteredArms (as ++ bs) = enteredArms as ++ enteredArms bs := by
  induction as with
  | nil => rfl
  | cons a rest ih =>
    cases a with
    | probe p => rw [List.cons_append, enteredArms, enteredArms, ih]
    | block body => rw [List.cons_append, enteredArms, enteredArms, ih, List.append_assoc]

/-- The items of a `with` statement enter nothing. -/
theorem enteredAll_ofWith (items : List WithItem) (body : List Flow) :
    enteredAll (ofWith items body) = enteredAll body := by
  induction items with
  | nil => rfl
  | cons item rest ih =>
    cases item with
    | lock name line => rw [ofWith, enteredAll_singleton, entered, ih]
    | probes ps => rw [ofWith, enteredAll_append, enteredAll_probes, ih, List.nil_append]

theorem enteredAll_underLocks (line : Nat) (locks : List String) (body : List Flow) :
    enteredAll (underLocks line locks body) = enteredAll body :=
  enteredAll_ofWith _ body

theorem enteredAll_ofExprStmt (s : Scope) (e : Node) : enteredAll (ofExprStmt s e) = [] := by
  rw [ofExprStmt_eq]
  cases s.lockCall? "acquire" e <;> cases s.lockCall? "release" e <;> simp [enteredAll, entered]

theorem enteredAll_exprs (s : Scope) (es : List Node) :
    enteredAll (es.flatMap (ofExprStmt s)) = [] := by
  induction es with
  | nil => rfl
  | cons e rest ih => rw [List.flatMap_cons, enteredAll_append, enteredAll_ofExprStmt, ih]; rfl

theorem armsOf_cons (s : Scope) (c : Node) (rest : List Node) :
    armsOf s (c :: rest) = armsOf s [c] ++ armsOf s rest := by
  obtain ⟨kind, field, text, row, flaw, children⟩ := c
  simp only [armsOf, List.append_nil]

end Flow

end Interlock
