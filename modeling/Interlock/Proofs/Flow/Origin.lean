import Interlock.Proofs.Flow.Agreement
import Interlock.Proofs.Syntax.Roles

/-!
# Where reports come from

What is reported of a file comes from a node that is looked at in some scope of the file
(`Scope.Governs`): an access from an attribute of the object that the scope does not drop, a lock
from an expression that denotes it in the scope or from a decorator (`Mark.ComesFrom`). So what
holds in every scope of a file can be said of what its walk reports (`exists_origin`).
-/

namespace Interlock

open Syntax Lock

/-- The scopes in which a node of a file is looked at. A definition opens a scope for what stands in
it. Nothing is asked of the tree, in which a definition may stand where a block belongs: so what
stands in a definition counts as looked at from outside as well, and a function as one of any
kind. -/
inductive Scope.Governs (names : Names) (u : SourceUnit) : Scope → Node → Prop
  | file {n : Node} (mem : n ∈ u.tree.children) : Governs names u (.ofUnit names u) n
  | child {s : Scope} {n c : Node} (outer : Governs names u s n) (mem : c ∈ n.children) :
    Governs names u s c
  | function {s : Scope} {n name : Node} (outer : Governs names u s n)
    (isFunction : n.kind = .functionDefinition) (named : n.child? .name = some name)
    (kind : RoutineKind) (decorators : List String) :
    Governs names u (s.ofFunction kind decorators n name.text) n
  | classBody {s : Scope} {n name body : Node} (outer : Governs names u s n)
    (isClass : n.kind = .classDefinition) (named : n.child? .name = some name)
    (hasBody : n.child? .body = some body) : Governs names u (s.ofClass name.text body) body

/-- A probe is made for a node in a tree. -/
inductive Probe.ComesFrom (s : Scope) (n : Node) : Probe → Prop
  | access {m : Node} {detached : Bool} {a : AttrAccess} (mem : m ∈ n.preorder)
    (probed : s.probe? detached a.attr a.receiver a.kind m.line a.readModifyWrite a.viaMethod =
      some (.access detached a)) : ComesFrom s n (.access detached a)
  | ownCall {m : Node} {method : String} (detached : Bool) (mem : m ∈ n.preorder)
    (own : s.isOwnMethod method = true) : ComesFrom s n (.ownCall detached method m.line)

/-- A report is made for a node in a tree. -/
inductive Mark.ComesFrom (s : Scope) (n : Node) : Mark → Prop
  | enter : ComesFrom s n .enter
  | probe {p : Probe} (comes : p.ComesFrom s n) : ComesFrom s n (.probe p)
  | lock {m : Node} {lock : String} (mem : m ∈ n.preorder) (denotes : s.lockOf? m = some lock)
    (line : Nat) : ComesFrom s n (.take lock line)
  | decorator {lock : String} {decorators : List String}
    (mem : lock ∈ Flow.decoratorLocks s decorators) (line : Nat) : ComesFrom s n (.take lock line)

/-! ## Expressions -/

namespace Syntax.Node

theorem preorder_trans {n m b : Node} (hm : m ∈ n.preorder) (hn : n ∈ b.preorder) :
    m ∈ b.preorder := by
  induction b using Node.ofChildren with
  | h b ih =>
    rw [preorder_eq] at hn
    rcases List.mem_cons.1 hn with rfl | hn
    · exact hm
    · obtain ⟨c, hc, hn⟩ := List.mem_flatMap.1 hn
      exact preorder_subset hc (ih c hc hn)

theorem mem_preorder_of_child {n c : Node} (h : c ∈ n.children) : c ∈ n.preorder :=
  preorder_subset h c.mem_preorder_self

mutual

/-- What is collected from a tree is a part of it. -/
theorem collect_subset {wanted : Kind} {stop : Option Kind} {n m : Node}
    (h : m ∈ n.collect wanted stop) : m ∈ n.preorder := by
  obtain ⟨kind, field, text, row, flaw, children⟩ := n
  rw [collect] at h
  obtain ⟨c, hc, hm⟩ := collectAmong_subset h
  exact preorder_subset hc hm

theorem collectAmong_subset {wanted : Kind} {stop : Option Kind} {nodes : List Node} {m : Node}
    (h : m ∈ collectAmong wanted stop nodes) : ∃ c ∈ nodes, m ∈ c.preorder := by
  match nodes with
  | [] => cases h
  | c :: rest =>
    rw [collectAmong] at h
    rcases List.mem_append.1 h with h | h
    · refine ⟨c, List.mem_cons_self, ?_⟩
      split at h
      · cases h
      · split at h
        · rw [List.mem_singleton.1 h]
          exact c.mem_preorder_self
        · split at h
          · cases h
          · exact collect_subset h
    · obtain ⟨d, hd, hm⟩ := collectAmong_subset h
      exact ⟨d, List.mem_cons_of_mem _ hd, hm⟩

end

end Syntax.Node

namespace Probe

variable {s : Scope} {n : Node} {p : Probe} {nodes : List Node} {detached : Bool}

theorem ComesFrom.mono {m : Node} (h : p.ComesFrom s m) (hm : m ∈ n.preorder) :
    p.ComesFrom s n := by
  cases h with
  | access mem probed => exact .access (Node.preorder_trans mem hm) probed
  | ownCall detached mem own => exact .ownCall detached (Node.preorder_trans mem hm) own

/-- What comes from one of several trees. -/
def ComesFromSome (s : Scope) (nodes : List Node) (p : Probe) : Prop :=
  ∃ c ∈ nodes, p.ComesFrom s c

theorem ComesFrom.ofChildren (h : p.ComesFromSome s n.children) : p.ComesFrom s n := by
  obtain ⟨c, hc, h⟩ := h
  exact h.mono (Node.mem_preorder_of_child hc)

theorem ComesFromSome.tail {c : Node} (h : p.ComesFromSome s nodes) :
    p.ComesFromSome s (c :: nodes) := by
  obtain ⟨d, hd, h⟩ := h
  exact ⟨d, List.mem_cons_of_mem _ hd, h⟩

theorem ComesFrom.head {c : Node} (h : p.ComesFrom s c) : p.ComesFromSome s (c :: nodes) :=
  ⟨c, List.mem_cons_self, h⟩

/-- An access that is reported at a node comes from it. -/
theorem comesFrom_of_probe? {m : Node} {attr receiver : String} {kind : AccessKind} {rmw : Bool}
    {via : Option String} (hm : m ∈ n.preorder)
    (h : p ∈ (s.probe? detached attr receiver kind m.line rmw via).toList) : p.ComesFrom s n := by
  have hp := Option.mem_toList.1 h
  have hprobed := hp
  rw [Scope.probe?] at hp
  obtain ⟨c, -, hp⟩ := Option.bind_eq_some_iff.1 hp
  split at hp
  · cases hp
  · obtain rfl := Option.some.inj hp
    exact .access hm hprobed

end Probe

namespace Scope

open Probe

variable {s : Scope} {p : Probe}

mutual

/-- **What an expression does comes from the expression.** Callees, indices and targets have lemmas
of their own, as the walk has functions of its own for them. -/
theorem comesFrom_probes (detached : Bool) (n : Node) (h : p ∈ s.probes detached n) :
    p.ComesFrom s n := by
  obtain ⟨kind, field, text, row, flaw, children⟩ := n
  unfold probes at h
  split at h
  · exact .ofChildren (comesFrom_probesOfField true .body children h)
  · rcases List.mem_append.1 h with h | h
    · exact .ofChildren (comesFrom_probesOfCallee detached children h)
    · exact .ofChildren (comesFrom_probesOfField detached .arguments children h)
  · -- a chain that is rooted in the object is one access, made for the chain as a whole
    split at h
    · exact comesFrom_of_probe? (Node.mem_preorder_self _) h
    · exact .ofChildren (comesFrom_probesAmong detached children h)
  iterate 4 cases h
  · exact .ofChildren (comesFrom_probesAmong detached children h)

theorem comesFrom_probesAmong (detached : Bool) (nodes : List Node)
    (h : p ∈ s.probesAmong detached nodes) : p.ComesFromSome s nodes := by
  match nodes with
  | [] => cases h
  | c :: rest =>
    rw [probesAmong] at h
    rcases List.mem_append.1 h with h | h
    · split at h
      · exact (comesFrom_probes detached c h).head
      · cases h
    · exact (comesFrom_probesAmong detached rest h).tail

theorem comesFrom_probesOfField (detached : Bool) (f : Field) (nodes : List Node)
    (h : p ∈ s.probesOfField detached f nodes) : p.ComesFromSome s nodes := by
  match nodes with
  | [] => cases h
  | c :: rest =>
    rw [probesOfField] at h
    split at h
    · exact (comesFrom_probes detached c h).head
    · exact (comesFrom_probesOfField detached f rest h).tail

theorem comesFrom_probesOfCallee (detached : Bool) (nodes : List Node)
    (h : p ∈ s.probesOfCallee detached nodes) : p.ComesFromSome s nodes := by
  match nodes with
  | [] => cases h
  | c :: rest =>
    rw [probesOfCallee] at h
    split at h
    · split at h
      · exact (comesFrom_probesOfMethod detached c h).head
      · exact (comesFrom_probes detached c h).head
    · exact (comesFrom_probesOfCallee detached rest h).tail

/-- A call of a method is a call of an own one, a change of an attribute, or comes from the
object. -/
theorem comesFrom_probesOfMethod (detached : Bool) (n : Node)
    (h : p ∈ s.probesOfMethod detached n) : p.ComesFrom s n := by
  obtain ⟨kind, field, text, row, flaw, children⟩ := n
  unfold probesOfMethod at h
  split at h
  · split at h
    · split at h
      · obtain rfl := List.mem_singleton.1 h
        exact .ownCall detached (Node.mem_preorder_self _) ‹_›
      · exact comesFrom_of_probe? (Node.mem_preorder_self _) h
    · split at h
      · exact .ofChildren (comesFrom_probesOfField detached .object children h)
      · rcases List.mem_append.1 h with h | h
        · split at h <;> exact comesFrom_of_probe? (Node.mem_preorder_self _) h
        · split at h
          · exact .ofChildren (comesFrom_probesOfIndex detached .object children h)
          · cases h
  · cases h

theorem comesFrom_probesOfIndex (detached : Bool) (f : Field) (nodes : List Node)
    (h : p ∈ s.probesOfIndex detached f nodes) : p.ComesFromSome s nodes := by
  match nodes with
  | [] => cases h
  | ⟨kind, field, text, row, flaw, children⟩ :: rest =>
    rw [probesOfIndex] at h
    split at h
    · exact (ComesFrom.ofChildren (comesFrom_probesOfField detached .subscript children h)).head
    · exact (comesFrom_probesOfIndex detached f rest h).tail

end

mutual

/-- What an assignment does to its target comes from the target. -/
theorem comesFrom_targetProbes (rmw : Bool) (n : Node) (h : p ∈ s.targetProbes rmw n) :
    p.ComesFrom s n := by
  obtain ⟨kind, field, text, row, flaw, children⟩ := n
  unfold targetProbes at h
  split at h
  · split at h
    · exact comesFrom_probes false _ h
    · rcases List.mem_append.1 h with h | h
      · exact comesFrom_of_probe? (Node.mem_preorder_self _) h
      · split at h
        · exact .ofChildren (comesFrom_probesOfField false .subscript children h)
        · cases h
  · split at h
    · exact .ofChildren (comesFrom_targetProbesAmong rmw children h)
    · split at h
      · cases h
      · exact comesFrom_probes false _ h

theorem comesFrom_targetProbesAmong (rmw : Bool) (nodes : List Node)
    (h : p ∈ s.targetProbesAmong rmw nodes) : p.ComesFromSome s nodes := by
  match nodes with
  | [] => cases h
  | c :: rest =>
    rw [targetProbesAmong] at h
    rcases List.mem_append.1 h with h | h
    · split at h
      · exact (comesFrom_targetProbes rmw c h).head
      · cases h
    · exact (comesFrom_targetProbesAmong rmw rest h).tail

end

mutual

/-- An assignment to several targets is a chain of assignments. -/
theorem comesFrom_assignmentProbes (n : Node) (h : p ∈ s.assignmentProbes n) :
    p.ComesFrom s n := by
  obtain ⟨kind, field, text, row, flaw, children⟩ := n
  unfold assignmentProbes at h
  rcases List.mem_append.1 h with h | h
  · exact .ofChildren (comesFrom_assignedProbes children h)
  · split at h
    · rename_i left hleft
      exact (comesFrom_targetProbes false left h).mono
        (Node.mem_preorder_of_child (mem_of_withField? hleft).1)
    · cases h

theorem comesFrom_assignedProbes (nodes : List Node) (h : p ∈ s.assignedProbes nodes) :
    p.ComesFromSome s nodes := by
  match nodes with
  | [] => cases h
  | c :: rest =>
    rw [assignedProbes] at h
    split at h
    · split at h
      · exact (comesFrom_assignmentProbes c h).head
      · exact (comesFrom_probes false c h).head
    · exact (comesFrom_assignedProbes rest h).tail

end

mutual

/-- In the body of a class plain names are attributes. -/
theorem comesFrom_bodyWrites (n : Node) (h : p ∈ s.bodyWrites n) : p.ComesFrom s n := by
  obtain ⟨kind, field, text, row, flaw, children⟩ := n
  unfold bodyWrites at h
  split at h
  · cases h
  · rename_i left hleft
    split at h
    · rcases List.mem_append.1 h with h | h
      · exact .ofChildren (comesFrom_bodyWritesOfValue children h)
      · obtain ⟨name, hname, h⟩ := List.mem_filterMap.1 h
        refine comesFrom_of_probe? (Node.preorder_trans (n := left) ?_
          (Node.mem_preorder_of_child (mem_of_withField? hleft).1)) (Option.mem_toList.2 h)
        split at hname
        · rw [List.mem_singleton.1 hname]
          exact left.mem_preorder_self
        · exact Node.collect_subset hname
    · cases h

theorem comesFrom_bodyWritesOfValue (nodes : List Node) (h : p ∈ s.bodyWritesOfValue nodes) :
    p.ComesFromSome s nodes := by
  match nodes with
  | [] => cases h
  | c :: rest =>
    rw [bodyWritesOfValue] at h
    split at h
    · split at h
      · exact (comesFrom_bodyWrites c h).head
      · cases h
    · exact (comesFrom_bodyWritesOfValue rest h).tail

end

theorem comesFrom_child {f : Field} {g : Node → List Probe} {n : Node}
    (hg : ∀ m, p ∈ g m → p.ComesFrom s m) (h : p ∈ ((n.child? f).map g).getD []) :
    p.ComesFrom s n := by
  cases hchild : n.child? f with
  | none =>
    rw [hchild] at h
    cases h
  | some m =>
    rw [hchild] at h
    exact (hg m h).mono (Node.mem_preorder_of_child (mem_of_withField? hchild).1)

theorem comesFrom_statementProbes (n : Node) (h : p ∈ s.statementProbes n) : p.ComesFrom s n := by
  unfold statementProbes at h
  split at h
  · exact comesFrom_assignmentProbes n h
  · rcases List.mem_append.1 h with h | h
    · exact comesFrom_child (comesFrom_targetProbes true) h
    · exact comesFrom_child (comesFrom_probes false) h
  · exact comesFrom_probes false n h

theorem comesFrom_argumentProbes (n : Node) (h : p ∈ s.argumentProbes n) : p.ComesFrom s n :=
  comesFrom_child (comesFrom_probes false) h

/-- The lock of a call is denoted by a part of the call. -/
theorem exists_lockOf?_of_lockCall? {method lock : String} {n : Node}
    (h : s.lockCall? method n = some lock) : ∃ m ∈ n.preorder, s.lockOf? m = some lock := by
  unfold lockCall? at h
  split at h
  · cases h
  · obtain ⟨function, hfunction, h⟩ := Option.bind_eq_some_iff.1 h
    split at h
    · cases h
    · obtain ⟨object, hobject, h⟩ := Option.bind_eq_some_iff.1 h
      obtain ⟨name, -, h⟩ := Option.bind_eq_some_iff.1 h
      split at h
      · cases h
      · refine ⟨object, ?_, h⟩
        exact Node.preorder_trans (Node.mem_preorder_of_child (mem_of_withField? hobject).1)
          (Node.mem_preorder_of_child (mem_of_withField? hfunction).1)

end Scope

/-! ## Places -/

/-- What stands at a place comes from a node that is looked at in a scope of the file. -/
def Place.ComesFrom (names : Names) (u : SourceUnit) (p : Place) : Prop :=
  ∃ s n, Scope.Governs names u s n ∧ p.routine = s.routine ∧ p.mark.ComesFrom s n

/-- What an item of a `with` statement does comes from a node. -/
def WithItem.ComesFrom (s : Scope) (n : Node) : WithItem → Prop
  | .lock name line => Mark.ComesFrom s n (.take name line)
  | .probes ps => ∀ p ∈ ps, p.ComesFrom s n

namespace Place

open Scope

variable {names : Names} {u : SourceUnit} {s : Scope} {n : Node} {σ : Surroundings} {p : Place}

theorem comesFrom_probesAt (hn : Governs names u s n) {ps : List Probe}
    (hps : ∀ q ∈ ps, q.ComesFrom s n) (h : p ∈ probesAt s σ ps) : p.ComesFrom names u := by
  obtain ⟨q, hq, rfl⟩ := List.mem_map.1 h
  exact ⟨s, n, hn, rfl, .probe (hps q hq)⟩

/-- The lock of a call such as `lock.acquire()` is denoted by a part of the call. -/
theorem comesFrom_ofExpr (hn : Governs names u s n) (h : p ∈ ofExpr s σ n) :
    p.ComesFrom names u := by
  unfold ofExpr at h
  split at h
  · rename_i lock hlock
    rcases List.mem_cons.1 h with rfl | h
    · obtain ⟨m, hm, hlock⟩ := exists_lockOf?_of_lockCall? hlock
      exact ⟨s, n, hn, rfl, .lock hm hlock _⟩
    · exact comesFrom_probesAt hn (fun q => comesFrom_argumentProbes n) h
  · exact comesFrom_probesAt hn (fun q => comesFrom_argumentProbes n) h
  · exact comesFrom_probesAt hn (fun q => comesFrom_statementProbes n) h

theorem comesFrom_ofExprs {es : List Node} (hes : ∀ e ∈ es, Governs names u s e)
    (h : p ∈ ofExprs s σ es) : p.ComesFrom names u := by
  induction es generalizing σ with
  | nil => cases h
  | cons e rest ih =>
    obtain ⟨he, hrest⟩ := List.forall_mem_cons.1 hes
    rcases List.mem_append.1 h with h | h
    · exact comesFrom_ofExpr he h
    · exact ih hrest h

/-- The lock of an item of a `with` statement is denoted by a part of the statement. -/
theorem comesFrom_withItems {item : WithItem} (h : item ∈ Flow.withItems s n) :
    item.ComesFrom s n := by
  have hlock : ∀ context ∈ n.preorder, ∀ lock, s.lockOf? context = some lock →
      WithItem.ComesFrom s n (.lock lock context.line) :=
    fun context hcontext lock h => .lock hcontext h _
  have hprobes : ∀ context ∈ n.preorder,
      WithItem.ComesFrom s n (.probes (s.probes false context)) :=
    fun context hcontext q hq => (comesFrom_probes false context hq).mono hcontext
  obtain ⟨part, hpart, h⟩ := List.mem_filterMap.1 h
  obtain ⟨value, hvalue, h⟩ := Option.bind_eq_some_iff.1 h
  have hvalue : value ∈ n.preorder :=
    Node.preorder_trans (Node.mem_preorder_of_child (mem_of_withField? hvalue).1)
      (Node.collect_subset hpart)
  dsimp only at h
  split at h
  · obtain ⟨context, hfirst, h⟩ := Option.bind_eq_some_iff.1 h
    have hmem := List.mem_of_mem_filter (List.mem_of_mem_head? hfirst)
    have hcontext := Node.preorder_trans (Node.mem_preorder_of_child hmem) hvalue
    split at h <;> obtain rfl := Option.some.inj h
    · exact hlock context hcontext _ ‹_›
    · exact hprobes context hcontext
  · obtain ⟨context, hcontext, h⟩ := Option.bind_eq_some_iff.1 h
    obtain rfl := Option.some.inj hcontext
    split at h <;> obtain rfl := Option.some.inj h
    · exact hlock value hvalue _ ‹_›
    · exact hprobes value hvalue

theorem comesFrom_ofItems (hn : Governs names u s n) {items : List WithItem}
    (hitems : ∀ item ∈ items, item.ComesFrom s n) (h : p ∈ ofItems s σ items) :
    p.ComesFrom names u := by
  induction items generalizing σ with
  | nil => cases h
  | cons item rest ih =>
    obtain ⟨hitem, hrest⟩ := List.forall_mem_cons.1 hitems
    cases item with
    | lock name line =>
      rcases List.mem_cons.1 h with rfl | h
      · exact ⟨s, n, hn, rfl, hitem⟩
      · exact ih hrest h
    | probes ps =>
      rcases List.mem_append.1 h with h | h
      · exact comesFrom_probesAt hn hitem h
      · exact ih hrest h

/-- The decorators of a function hold their locks around it. -/
theorem comesFrom_ofFunction (hn : Governs names u s n) (hfunction : n.kind = .functionDefinition)
    (kind : RoutineKind) (decorators : List String) {body : Scope → Surroundings → List Place}
    (hbody : ∀ inner τ, Governs names u inner n → p ∈ body inner τ → p.ComesFrom names u)
    (h : p ∈ ofFunction s kind decorators n body) : p.ComesFrom names u := by
  unfold ofFunction at h
  split at h
  · cases h
  · rename_i name hname
    have hinner := hn.function hfunction hname kind decorators
    rcases List.mem_cons.1 h with rfl | h
    · exact ⟨_, n, hinner, rfl, .enter⟩
    rcases List.mem_append.1 h with h | h
    · refine comesFrom_ofItems hinner (fun item hitem => ?_) h
      obtain ⟨lock, hlock, rfl⟩ := List.mem_map.1 hitem
      exact .decorator (s := s.ofFunction kind decorators n name.text) hlock n.line
    · exact hbody _ _ hinner h

mutual

/-- **What stands at a place of a statement comes from a node in a scope of the file**, if the
statement itself is one. The induction is on the tree; the scope changes where a function or class
begins, and there `Governs` has a constructor. -/
theorem comesFrom_ofStmt (decorators : List String) (n : Node) {s : Scope} {σ : Surroundings}
    (hn : Governs names u s n) (h : p ∈ ofStmt s σ decorators n) : p.ComesFrom names u := by
  obtain ⟨kind, field, text, row, flaw, children⟩ := n
  unfold ofStmt at h
  split at h
  · exact comesFrom_ofExprs (fun e he => hn.child (List.mem_of_mem_filter he)) h
  · exact comesFrom_probesAt hn
      (fun q hq => .ofChildren (comesFrom_targetProbesAmong false children hq)) h
  · rcases List.mem_append.1 h with h | h
    · exact comesFrom_ofItems hn (fun item => comesFrom_withItems) h
    · exact comesFrom_ofBlockField .body children (fun c => hn.child) h
  · -- a `finally` is looked for among all parts, with what is held after the others
    rcases List.mem_append.1 h with h | h
    · exact comesFrom_ofParts children (fun c => hn.child) h
    · cases hfinal : ofFinal? s (σ.past (s.releasedBelow
          (children.filter fun c => c.kind ≠ .finallyClause))) children with
      | none =>
        rw [hfinal] at h
        cases h
      | some final =>
        rw [hfinal] at h
        exact comesFrom_ofFinal? children (fun c => hn.child) hfinal h
  · exact comesFrom_ofFunction hn rfl _ _
      (fun inner τ hinner => comesFrom_ofBlockField .body children fun c => hinner.child) h
  · exact comesFrom_ofDefinition _ children (fun c => hn.child) h
  · refine comesFrom_ofClassBody children (fun body hbody name hname => ?_) h
    exact hn.classBody rfl hname hbody
  · split at h
    · cases h
    · split at h
      · exact comesFrom_probesAt hn
          (fun q hq => .ofChildren (comesFrom_probesAmong false children hq)) h
      · exact comesFrom_ofArms children (fun c => hn.child) h

theorem comesFrom_ofStmts (nodes : List Node) {s : Scope} {σ : Surroundings}
    (hs : ∀ c ∈ nodes, Governs names u s c) (h : p ∈ ofStmts s σ nodes) : p.ComesFrom names u := by
  match nodes with
  | [] => cases h
  | c :: rest =>
    obtain ⟨hc, hrest⟩ := List.forall_mem_cons.1 hs
    rw [ofStmts] at h
    rcases List.mem_append.1 h with h | h
    · split at h
      · exact comesFrom_ofStmt [] c hc h
      · cases h
    · exact comesFrom_ofStmts rest hrest h

theorem comesFrom_ofBlockField (f : Field) (nodes : List Node) {s : Scope} {σ : Surroundings}
    (hs : ∀ c ∈ nodes, Governs names u s c) (h : p ∈ ofBlockField s σ f nodes) :
    p.ComesFrom names u := by
  match nodes with
  | [] => cases h
  | ⟨kind, field, text, row, flaw, children⟩ :: rest =>
    obtain ⟨hc, hrest⟩ := List.forall_mem_cons.1 hs
    rw [ofBlockField] at h
    split at h
    · exact comesFrom_ofStmts children (fun c => hc.child) h
    · exact comesFrom_ofBlockField f rest hrest h

theorem comesFrom_ofDefinition (decorators : List String) (nodes : List Node) {s : Scope}
    {σ : Surroundings} (hs : ∀ c ∈ nodes, Governs names u s c)
    (h : p ∈ ofDefinition s σ decorators nodes) : p.ComesFrom names u := by
  match nodes with
  | [] => cases h
  | c :: rest =>
    obtain ⟨hc, hrest⟩ := List.forall_mem_cons.1 hs
    rw [ofDefinition] at h
    split at h
    · exact comesFrom_ofStmt decorators c hc h
    · exact comesFrom_ofDefinition decorators rest hrest h

/-- The body of a class is looked at in the scope of the class. -/
theorem comesFrom_ofClassBody (nodes : List Node) {s : Scope} {name? : Option Node}
    (hs : ∀ body, Node.withField? .body nodes = some body → ∀ name, name? = some name →
      Governs names u (s.ofClass name.text body) body)
    (h : p ∈ ofClassBody s name? nodes) : p.ComesFrom names u := by
  match nodes with
  | [] => cases h
  | ⟨kind, field, text, row, flaw, members⟩ :: rest =>
    simp only [ofClassBody] at h
    split at h
    · rename_i hfield
      split at h
      · cases h
      · -- the body that makes the scope is the body that is walked
        rename_i name
        have hbody := hs _ (withField?_cons_of_eq hfield) name rfl
        rcases List.mem_cons.1 h with rfl | h
        · exact ⟨_, _, hbody, rfl, .enter⟩
        · exact comesFrom_ofMembers members (fun c => hbody.child) h
    · rename_i hfield
      refine comesFrom_ofClassBody rest (fun body hbody => hs body ?_) h
      rwa [withField?_cons_of_ne hfield]

theorem comesFrom_ofMembers (nodes : List Node) {s : Scope}
    (hs : ∀ c ∈ nodes, Governs names u s c) (h : p ∈ ofMembers s nodes) : p.ComesFrom names u := by
  match nodes with
  | [] => cases h
  | c :: rest =>
    obtain ⟨hc, hrest⟩ := List.forall_mem_cons.1 hs
    rw [ofMembers] at h
    rcases List.mem_append.1 h with h | h
    · split at h
      · exact comesFrom_ofMember [] c hc h
      · cases h
    · exact comesFrom_ofMembers rest hrest h

theorem comesFrom_ofDecoratedMember (decorators : List String) (nodes : List Node) {s : Scope}
    (hs : ∀ c ∈ nodes, Governs names u s c) (h : p ∈ ofDecoratedMember s decorators nodes) :
    p.ComesFrom names u := by
  match nodes with
  | [] => cases h
  | c :: rest =>
    obtain ⟨hc, hrest⟩ := List.forall_mem_cons.1 hs
    rw [ofDecoratedMember] at h
    split at h
    · exact comesFrom_ofMember decorators c hc h
    · exact comesFrom_ofDecoratedMember decorators rest hrest h

theorem comesFrom_ofMember (decorators : List String) (n : Node) {s : Scope}
    (hn : Governs names u s n) (h : p ∈ ofMember s decorators n) : p.ComesFrom names u := by
  obtain ⟨kind, field, text, row, flaw, children⟩ := n
  unfold ofMember at h
  split at h
  · exact comesFrom_ofFunction hn rfl _ _
      (fun inner τ hinner => comesFrom_ofBlockField .body children fun c => hinner.child) h
  · exact comesFrom_ofDecoratedMember _ children (fun c => hn.child) h
  · refine comesFrom_ofClassBody children (fun body hbody name hname => ?_) h
    exact hn.classBody rfl hname hbody
  · refine comesFrom_probesAt hn (fun q hq => .ofChildren ?_) h
    obtain ⟨e, he, hq⟩ := List.mem_flatMap.1 hq
    exact ⟨e, List.mem_of_mem_filter he, comesFrom_bodyWrites e hq⟩
  · cases h

/-- A clause is looked at in the scope of its statement. -/
theorem comesFrom_ofArms (nodes : List Node) {s : Scope} {σ : Surroundings}
    (hs : ∀ c ∈ nodes, Governs names u s c) (h : p ∈ ofArms s σ nodes) : p.ComesFrom names u := by
  match nodes with
  | [] => cases h
  | ⟨kind, field, text, row, flaw, children⟩ :: rest =>
    obtain ⟨hc, hrest⟩ := List.forall_mem_cons.1 hs
    rw [ofArms] at h
    rcases List.mem_append.1 h with h | h
    · split at h
      · cases h
      split at h
      · exact comesFrom_ofStmts children (fun c => hc.child) h
      split at h
      · exact comesFrom_ofArms children (fun c => hc.child) h
      split at h
      · cases h
      · exact comesFrom_probesAt hc (fun q => comesFrom_probes false _) h
    · exact comesFrom_ofArms rest hrest h

theorem comesFrom_ofParts (nodes : List Node) {s : Scope} {σ : Surroundings}
    (hs : ∀ c ∈ nodes, Governs names u s c) (h : p ∈ ofParts s σ nodes) : p.ComesFrom names u := by
  match nodes with
  | [] => cases h
  | ⟨kind, field, text, row, flaw, children⟩ :: rest =>
    obtain ⟨hc, hrest⟩ := List.forall_mem_cons.1 hs
    rw [ofParts] at h
    rcases List.mem_append.1 h with h | h
    · split at h
      · cases h
      split at h
      · exact comesFrom_ofStmts children (fun c => hc.child) h
      · exact comesFrom_ofArms children (fun c => hc.child) h
    · exact comesFrom_ofParts rest hrest h

theorem comesFrom_ofFinal? (nodes : List Node) {s : Scope} {σ : Surroundings} {final : List Place}
    (hs : ∀ c ∈ nodes, Governs names u s c) (hfinal : ofFinal? s σ nodes = some final)
    (h : p ∈ final) : p.ComesFrom names u := by
  match nodes with
  | [] => cases hfinal
  | ⟨kind, field, text, row, flaw, children⟩ :: rest =>
    obtain ⟨hc, hrest⟩ := List.forall_mem_cons.1 hs
    rw [ofFinal?] at hfinal
    split at hfinal
    · rename_i last hlast
      obtain rfl := Option.some.inj hfinal
      exact comesFrom_ofFinal? rest hrest hlast h
    · split at hfinal
      · obtain rfl := Option.some.inj hfinal
        exact comesFrom_ofBlocks children (fun c => hc.child) h
      · cases hfinal

theorem comesFrom_ofBlocks (nodes : List Node) {s : Scope} {σ : Surroundings}
    (hs : ∀ c ∈ nodes, Governs names u s c) (h : p ∈ ofBlocks s σ nodes) : p.ComesFrom names u := by
  match nodes with
  | [] => cases h
  | ⟨kind, field, text, row, flaw, children⟩ :: rest =>
    obtain ⟨hc, hrest⟩ := List.forall_mem_cons.1 hs
    rw [ofBlocks] at h
    rcases List.mem_append.1 h with h | h
    · split at h
      · exact comesFrom_ofStmts children (fun c => hc.child) h
      · cases h
    · exact comesFrom_ofBlocks rest hrest h

end

end Place

/-- **Every event of a walk has an origin,** except for the start of the top level. -/
theorem exists_origin {mode : HoldMode} {names : Names} {u : SourceUnit} {e : Event}
    (h : e ∈ walk mode names u) : (∃ r, e = .enter r) ∨ ∃ s n mark held,
      Scope.Governs names u s n ∧ Mark.ComesFrom s n mark ∧ e = mark.event s.routine held := by
  obtain ⟨p, hp, held, -, rfl⟩ := Place.exists_fits (fits_walk mode names u) h
  rcases List.mem_cons.1 hp with rfl | hp
  · exact .inl ⟨_, rfl⟩
  · obtain ⟨s, n, hn, hroutine, hmark⟩ :=
      Place.comesFrom_ofStmts u.tree.children (fun c => .file) hp
    exact .inr ⟨s, n, p.mark, held, hn, hmark, by rw [hroutine]⟩

end Interlock
