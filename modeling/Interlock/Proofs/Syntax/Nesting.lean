import Interlock.Proofs.Syntax.Flaws

/-!
# How statements are nested

In a file without errors a definition or a block stands only where the grammar has a place for one.
`Node.Nested` says this of a node and its children: what may stand below what (`Level.below`), and
which role the children that hold further statements play. It says nothing about expressions.

`Node.Everywhere` extends a condition on nodes to trees, and `Node.ofChildren` is the induction that
goes with it.
-/

namespace Interlock.Syntax

namespace Node

/-! ## Trees -/

mutual

/-- What holds of a node once it holds of its children holds of all nodes. -/
theorem ofChildren {P : Node → Prop} (h : ∀ n, (∀ c ∈ n.children, P c) → P n) (n : Node) : P n := by
  obtain ⟨kind, field, text, row, flaw, children⟩ := n
  exact h _ (forall_ofChildren h children)

theorem forall_ofChildren {P : Node → Prop} (h : ∀ n, (∀ c ∈ n.children, P c) → P n)
    (nodes : List Node) : ∀ c ∈ nodes, P c := by
  match nodes with
  | [] => nofun
  | n :: rest => exact List.forall_mem_cons.2 ⟨ofChildren h n, forall_ofChildren h rest⟩

end

theorem preorderAll_eq (nodes : List Node) : preorderAll nodes = nodes.flatMap preorder := by
  induction nodes with
  | nil => rfl
  | cons n rest ih => rw [preorderAll, ih, List.flatMap_cons]

theorem preorder_eq (n : Node) : n.preorder = n :: n.children.flatMap preorder := by
  rw [← preorderAll_eq]
  cases n
  rfl

theorem mem_preorder_self (n : Node) : n ∈ n.preorder := by
  rw [preorder_eq]
  exact List.mem_cons_self

theorem preorder_subset {n c : Node} (hc : c ∈ n.children) : c.preorder ⊆ n.preorder := by
  intro m hm
  rw [preorder_eq n]
  exact List.mem_cons_of_mem _ (List.mem_flatMap.2 ⟨c, hc, hm⟩)

/-- A condition holds at every node of a tree. -/
def Everywhere (P : Node → Prop) (root : Node) : Prop := ∀ n ∈ root.preorder, P n

instance (P : Node → Prop) [DecidablePred P] (root : Node) : Decidable (root.Everywhere P) :=
  inferInstanceAs (Decidable (∀ n ∈ root.preorder, P n))

section Everywhere

variable {P Q : Node → Prop} {n c : Node}

theorem everywhere_iff :
    n.Everywhere P ↔ P n ∧ ∀ c ∈ n.children, c.Everywhere P := by
  simp only [Everywhere, preorder_eq n, List.forall_mem_cons, List.mem_flatMap, forall_exists_index,
    and_imp]
  exact ⟨fun h => ⟨h.1, fun c hc m hm => h.2 m c hc hm⟩,
    fun h => ⟨h.1, fun m c hc hm => h.2 c hc m hm⟩⟩

theorem Everywhere.here (h : n.Everywhere P) : P n := (everywhere_iff.1 h).1

theorem Everywhere.child (h : n.Everywhere P) (hc : c ∈ n.children) : c.Everywhere P :=
  (everywhere_iff.1 h).2 c hc

theorem Everywhere.and (hP : n.Everywhere P) (hQ : n.Everywhere Q) :
    n.Everywhere fun m => P m ∧ Q m :=
  fun m hm => ⟨hP m hm, hQ m hm⟩

end Everywhere

end Node

/-- An accepted unit is a module without flaws. -/
theorem SourceUnit.flaw_of_check {u : SourceUnit} (h : u.check = .ok ()) :
    u.tree.kind = .module ∧ u.tree.Everywhere fun m => m.flaw = none :=
  check_eq_ok_iff.1 h

/-! ## The places for statements -/

/-- What a kind is for the nesting of statements. -/
inductive Level where
  /-- The whole file. -/
  | file
  | block
  /-- The definition of a function or a class. -/
  | definition
  /-- A definition with its decorators. -/
  | decorated
  /-- A `with` statement. -/
  | managed
  /-- Any other statement with a block. -/
  | compound
  /-- A part of a statement with a block of its own. -/
  | clause
  /-- Everything in which no statement stands. -/
  | plain
  deriving DecidableEq, Repr

/-- What the grammar has a place for directly below. The cases of a `match` stand in its block. -/
def Level.below : Level → List Level
  | file => [definition, decorated, managed, compound, plain]
  | block => [definition, decorated, managed, compound, clause, plain]
  | definition | managed | clause => [block, plain]
  | decorated => [definition, plain]
  | compound => [block, clause, plain]
  | plain => [plain]

/-- The level of a kind that no rule singles out. -/
def Level.ofName (name : String) : Level :=
  if ["for_statement", "while_statement", "match_statement"].contains name then compound
  else if ["elif_clause", "except_clause", "except_group_clause", "case_clause"].contains name then
    clause
  else plain

def Kind.level : Kind → Level
  | .module => .file
  | .block => .block
  | .functionDefinition | .classDefinition => .definition
  | .decoratedDefinition => .decorated
  | .withStatement => .managed
  | .ifStatement | .tryStatement => .compound
  | .elseClause | .finallyClause => .clause
  | .other name => .ofName name
  | _ => .plain

theorem Level.ofName_cases (name : String) :
    ofName name = compound ∨ ofName name = clause ∨ ofName name = plain := by
  unfold ofName
  split
  · exact .inl rfl
  · split
    · exact .inr (.inl rfl)
    · exact .inr (.inr rfl)

namespace Kind

variable {kind : Kind}

theorem level_other_ne {l : Level} (h : l ∉ [Level.compound, .clause, .plain]) (name : String) :
    (Kind.other name).level ≠ l := by
  rintro rfl
  rcases Level.ofName_cases name with e | e | e <;> simp [level, e] at h

theorem eq_of_level_block (h : kind.level = .block) : kind = .block := by
  cases kind with
  | block => rfl
  | other name => exact absurd h (level_other_ne (by decide) name)
  | _ => nomatch h

theorem eq_of_level_definition (h : kind.level = .definition) :
    kind = .functionDefinition ∨ kind = .classDefinition := by
  cases kind with
  | functionDefinition => exact .inl rfl
  | classDefinition => exact .inr rfl
  | other name => exact absurd h (level_other_ne (by decide) name)
  | _ => nomatch h

theorem eq_of_level_decorated (h : kind.level = .decorated) : kind = .decoratedDefinition := by
  cases kind with
  | decoratedDefinition => rfl
  | other name => exact absurd h (level_other_ne (by decide) name)
  | _ => nomatch h

theorem eq_of_level_managed (h : kind.level = .managed) : kind = .withStatement := by
  cases kind with
  | withStatement => rfl
  | other name => exact absurd h (level_other_ne (by decide) name)
  | _ => nomatch h

theorem isClause_of_level (h : kind.level = .clause) : kind.isClause = true := by
  cases kind with
  | other name =>
    rw [level, Level.ofName] at h
    split at h
    · nomatch h
    · split at h
      · rename_i hname
        simp only [List.contains_iff_mem, List.mem_cons, List.not_mem_nil, or_false] at hname
        rcases hname with rfl | rfl | rfl | rfl <;> decide
      · nomatch h
  | elseClause => decide
  | finallyClause => decide
  | _ => nomatch h

end Kind

/-- The nodes that pass a test are those in a given role, and there is at most one. -/
structure SoleIn (f : Field) (test : Node → Bool) (nodes : List Node) : Prop where
  field : ∀ c ∈ nodes, test c = true ↔ c.field = some f
  sole : (nodes.filter test).length ≤ 1

instance (f : Field) (test : Node → Bool) (nodes : List Node) : Decidable (SoleIn f test nodes) :=
  decidable_of_iff
    ((∀ c ∈ nodes, test c = true ↔ c.field = some f) ∧ (nodes.filter test).length ≤ 1)
    ⟨fun h => ⟨h.1, h.2⟩, fun h => ⟨h.field, h.sole⟩⟩

/-- What only the node in a role contributes to, it contributes alone. -/
theorem SoleIn.flatMap_eq {α : Type} {f : Field} {test : Node → Bool} {nodes : List Node}
    (h : SoleIn f test nodes) {g : Node → List α} (hg : ∀ c ∈ nodes, test c = false → g c = []) :
    nodes.flatMap g = ((Node.withField? f nodes).map g).getD [] := by
  induction nodes with
  | nil => rfl
  | cons c rest ih =>
    obtain ⟨hc, hrest⟩ := List.forall_mem_cons.1 hg
    obtain ⟨hfield, hfields⟩ := List.forall_mem_cons.1 h.field
    have hsole := h.sole
    rw [List.flatMap_cons]
    cases htest : test c with
    | true =>
      -- none of the rest passes
      rw [List.filter_cons_of_pos htest, List.length_cons] at hsole
      have hnone : rest.filter test = [] := List.length_eq_zero_iff.1 (by omega)
      have hempty : rest.flatMap g = [] := List.flatMap_eq_nil_iff.2 fun d hd =>
        hrest d hd (Bool.eq_false_iff.2 (List.filter_eq_nil_iff.1 hnone d hd))
      rw [hempty, List.append_nil, Node.withField?,
        List.find?_cons_of_pos (by simp [hfield.1 htest])]
      rfl
    | false =>
      rw [List.filter_cons_of_neg (by simp [htest])] at hsole
      have hne : c.field ≠ some f := fun e => by simp [hfield.2 e] at htest
      rw [hc htest, List.nil_append, ih ⟨hfields, hsole⟩ hrest, Node.withField?, Node.withField?,
        List.find?_cons_of_neg (by simpa using hne)]

/-- After a `finally` clause nothing comes that holds statements. -/
def finallyLast : List Node → Bool
  | [] => true
  | c :: rest =>
    if c.kind = .finallyClause then rest.all fun d => d.kind.level = .plain else finallyLast rest

/-- The statements below a node stand where the grammar has a place for them. -/
structure Node.Nested (n : Node) : Prop where
  level : ∀ c ∈ n.children, c.kind.level ∈ n.kind.level.below
  body : n.kind.level = .definition ∨ n.kind.level = .managed →
    SoleIn .body (fun c => c.kind = .block) n.children
  definition : n.kind.level = .decorated →
    SoleIn .definition (fun c => c.kind.level = .definition) n.children
  name : n.kind.level = .definition → (n.child? .name).isSome = true
  finally_last : n.kind = .tryStatement → finallyLast n.children = true

instance : DecidablePred Node.Nested := fun n =>
  decidable_of_iff
    ((∀ c ∈ n.children, c.kind.level ∈ n.kind.level.below) ∧
      (n.kind.level = .definition ∨ n.kind.level = .managed →
        SoleIn .body (fun c => c.kind = .block) n.children) ∧
      (n.kind.level = .decorated →
        SoleIn .definition (fun c => c.kind.level = .definition) n.children) ∧
      (n.kind.level = .definition → (n.child? .name).isSome = true) ∧
      (n.kind = .tryStatement → finallyLast n.children = true))
    ⟨fun h => ⟨h.1, h.2.1, h.2.2.1, h.2.2.2.1, h.2.2.2.2⟩,
      fun h => ⟨h.level, h.body, h.definition, h.name, h.finally_last⟩⟩

end Interlock.Syntax
