import Interlock.Proofs.Flow.Execution
import Interlock.Proofs.Flow.Join

/-!
# What statements turn into

The flow of a statement, form by form, in the terms in which executions are stated: the blocks of a
branching statement become its arms (`Flow.block_mem_armsOf`), the clauses of a `try` its parts,
and a definition a routine of its own, which does not touch the holds around it
(`Flow.runAll_of_isDefinition`).
-/

namespace Interlock

open Syntax Lock

namespace Flow

variable {s : Scope} {n c : Node} {decorators : List String} {mode : HoldMode} {r : Routine}
  {held : HeldLocks}

/-- Every block of a branching statement, also one in a clause, is an arm of its flow. -/
theorem block_mem_armsOf (s : Scope) (children : List Node) {b : List Node}
    (h : b ∈ Node.blocksAmong children) : .block (ofStmts s b) ∈ armsOf s children := by
  match children with
  | [] => simp [Node.blocksAmong] at h
  | ⟨kind, field, text, row, flaw, below⟩ :: rest =>
    rw [Node.blocksAmong] at h
    rw [armsOf]
    rcases List.mem_append.1 h with h | h
    · refine List.mem_append_left _ ?_
      split at h
      · cases h
      · rename_i hnamed
        rw [if_neg hnamed]
        split at h
        · rename_i hblock
          rw [if_pos hblock, List.mem_singleton.1 h]
          exact List.mem_singleton_self _
        · rename_i hblock
          rw [if_neg hblock]
          split at h
          · rename_i hclause
            rw [if_pos hclause]
            exact block_mem_armsOf s below h
          · cases h
    · exact List.mem_append_right _ (block_mem_armsOf s rest h)

theorem mem_blocksAmong_of_mem {children : List Node} {b : List Node} (hc : c ∈ children)
    (h : b ∈ Node.blocksAmong [c]) : b ∈ Node.blocksAmong children := by
  induction children with
  | nil => cases hc
  | cons d rest ih =>
    obtain ⟨kind, field, text, row, flaw, below⟩ := d
    rw [Node.blocksAmong]
    rcases List.mem_cons.1 hc with rfl | hc
    · refine List.mem_append_left _ ?_
      simpa only [Node.blocksAmong, List.append_nil] using h
    · exact List.mem_append_right _ (ih hc)

theorem mem_blocks_of_mem_ownBlocks {b : List Node} (h : b ∈ n.ownBlocks) : b ∈ n.blocks := by
  obtain ⟨⟨kind, field, text, row, flaw, below⟩, hc, rfl⟩ := List.mem_map.1 h
  obtain ⟨hc, rfl, hnamed⟩ := Node.mem_ofKind.1 hc
  exact mem_blocksAmong_of_mem hc (by simp [Node.blocksAmong, hnamed])

theorem mem_blocks_of_mem_elseClauses {b : List Node} (hc : c ∈ n.elseClauses) (h : b ∈ c.blocks) :
    b ∈ n.blocks := by
  obtain ⟨kind, field, text, row, flaw, below⟩ := c
  obtain ⟨hc, rfl, hnamed⟩ := Node.mem_ofKind.1 hc
  refine mem_blocksAmong_of_mem hc ?_
  rw [Node.blocksAmong, if_neg (by simpa using hnamed), if_neg (by decide), if_pos (by decide)]
  exact List.mem_append_left _ h

/-- The parts of a `try` come clause by clause. -/
theorem partsOf_append (s : Scope) (ms ns : List Node) :
    partsOf s (ms ++ ns) = partsOf s ms ++ partsOf s ns := by
  induction ms with
  | nil => rfl
  | cons m rest ih =>
    obtain ⟨kind, field, text, row, flaw, below⟩ := m
    rw [List.cons_append, partsOf_cons, partsOf_cons, ih, List.append_assoc]

theorem partsOf_cons_body (rest : List Node) (hkind : c.kind = .block) (hnamed : c.isNamed = true) :
    partsOf s (c :: rest) = .body (ofStmts s c.children) :: partsOf s rest := by
  obtain ⟨kind, field, text, row, flaw, below⟩ := c
  obtain rfl : kind = .block := hkind
  simp [partsOf_cons, hnamed]

theorem partsOf_cons_orElse (rest : List Node) (hkind : c.kind = .elseClause)
    (hnamed : c.isNamed = true) :
    partsOf s (c :: rest) = .orElse (armsOf s c.children) :: partsOf s rest := by
  obtain ⟨kind, field, text, row, flaw, below⟩ := c
  obtain rfl : kind = .elseClause := hkind
  simp [partsOf_cons, hnamed]

theorem partsOf_cons_handler (rest : List Node) (h : c.isHandler = true) :
    partsOf s (c :: rest) = .handler (armsOf s c.children) :: partsOf s rest := by
  obtain ⟨kind, field, text, row, flaw, below⟩ := c
  simp only [Node.isHandler, Bool.and_eq_true, Bool.not_eq_true'] at h
  simp_all [partsOf_cons]

/-- The parts of a `try` around its body. -/
theorem partsOf_of_splits {body : Node} {clauses : List Node} (h : n.Splits body clauses) :
    ∃ ps, partsOf s n.children = ps ++ .body (ofStmts s body.children) :: partsOf s clauses := by
  obtain ⟨comments, hchildren⟩ := h.children
  refine ⟨partsOf s comments, ?_⟩
  rw [hchildren, partsOf_append, partsOf_cons_body _ h.block h.named]

theorem body_not_mem_partsOf {clauses : List Node} (h : ∀ c ∈ clauses, c.kind ≠ .block)
    (b : List Flow) : .body b ∉ partsOf s clauses := by
  induction clauses with
  | nil => simp [partsOf]
  | cons c rest ih =>
    obtain ⟨kind, field, text, row, flaw, below⟩ := c
    have hkind : kind ≠ .block := h _ List.mem_cons_self
    rw [partsOf_cons, List.mem_append, not_or]
    refine ⟨?_, ih fun c hc => h c (List.mem_cons_of_mem _ hc)⟩
    split
    · simp
    · split <;> simp

theorem ofStmts_append (s : Scope) (ms ns : List Node) :
    ofStmts s (ms ++ ns) = ofStmts s ms ++ ofStmts s ns := by
  induction ms with
  | nil => rfl
  | cons m rest ih => simp [ofStmts, ih]

theorem ofBlocks_eq (s : Scope) (children : List Node) :
    ofBlocks s children = ofStmts s ((Node.ofKind .block children).map Node.children).flatten := by
  induction children with
  | nil => rfl
  | cons c rest ih =>
    obtain ⟨kind, field, text, row, flaw, below⟩ := c
    rw [ofBlocks, ih, Node.ofKind_cons]
    split
    · rw [List.map_cons, List.flatten_cons, ofStmts_append]
    · rfl

/-- Of several `finally` clauses the last one counts. -/
theorem finalOf?_eq (s : Scope) (children : List Node) : finalOf? s children =
    (Node.ofKind .finallyClause children).getLast?.map fun c => ofStmts s c.ownBlocks.flatten := by
  induction children with
  | nil => rfl
  | cons c rest ih =>
    obtain ⟨kind, field, text, row, flaw, below⟩ := c
    rw [finalOf?, ih, ofBlocks_eq, Node.ofKind_cons]
    by_cases h : kind = .finallyClause ∧ Node.isNamed ⟨kind, field, text, row, flaw, below⟩ = true
    · rw [if_pos h, if_pos h, List.getLast?_cons]
      cases (Node.ofKind .finallyClause rest).getLast? <;> rfl
    · rw [if_neg h, if_neg h]
      cases (Node.ofKind .finallyClause rest).getLast? <;> rfl

theorem finalOf?_getD (s : Scope) (n : Node) :
    (finalOf? s n.children).getD [] = ofStmts s n.finalStatements := by
  rw [finalOf?_eq, Node.finalStatements]
  cases (Node.ofKind .finallyClause n.children).getLast? <;> rfl

theorem ofBlockField_eq (s : Scope) (f : Field) (children : List Node) : ofBlockField s f children =
    ((Node.withField? f children).map fun b => ofStmts s b.children).getD [] := by
  induction children with
  | nil => rfl
  | cons c rest ih =>
    obtain ⟨kind, field, text, row, flaw, below⟩ := c
    by_cases h : field = some f
    · simp [ofBlockField, Node.withField?, h]
    · simp [ofBlockField, Node.withField?, h, ih]

theorem ofDefinition_eq (s : Scope) (decorators : List String) (children : List Node) :
    ofDefinition s decorators children =
      ((Node.withField? .definition children).map (ofStmt s decorators)).getD [] := by
  induction children with
  | nil => rfl
  | cons c rest ih =>
    by_cases h : c.field = some .definition
    · simp [ofDefinition, Node.withField?, h]
    · simp [ofDefinition, Node.withField?, h, ih]

theorem ofStmt_of_withStatement {b : Node} (h : n.kind = .withStatement)
    (hb : n.child? .body = some b) :
    ofStmt s decorators n = ofWith (withItems s n) (ofStmts s b.children) := by
  obtain ⟨kind, field, text, row, flaw, children⟩ := n
  obtain rfl : kind = .withStatement := h
  rw [Node.child?] at hb
  simp only [ofStmt, ofBlockField_eq, hb, Option.map_some, Option.getD_some]

/-- A `try` runs its parts and then its `finally`. -/
theorem ofStmt_of_tryStatement (h : n.kind = .tryStatement) : ofStmt s decorators n =
    [attempt (partsOf s n.children) (ofStmts s n.finalStatements)] := by
  obtain ⟨kind, field, text, row, flaw, children⟩ := n
  obtain rfl : kind = .tryStatement := h
  rw [← finalOf?_getD]
  simp only [ofStmt]

/-- A branching statement runs one of its blocks, or none. -/
theorem ofStmt_of_isBranching (h : n.isBranching = true) :
    ofStmt s decorators n = [branch (armsOf s n.children) (isExhaustive n)] := by
  obtain ⟨kind, field, text, row, flaw, children⟩ := n
  simp only [Node.isBranching, Bool.and_eq_true, Bool.not_eq_true'] at h
  unfold ofStmt
  split <;> simp at h
  simp [h]

theorem isBranching_of_isLoop (h : n.isLoop = true) : n.isBranching = true := by
  simp only [Node.isLoop, Bool.or_eq_true, decide_eq_true_eq] at h
  rcases h with h | h <;> simp [Node.isBranching, h, isInert, isPlain]

/-- The decorators of a definition that stands as a statement. -/
def decoratorsOf (n : Node) : List String :=
  if n.kind = .decoratedDefinition then decoratorNames n else []

/-- A definition with decorators is the definition, given their names. -/
theorem ofStmt_of_isDefinition (h : n.isDefinition = true) :
    ofStmt s [] n = ofStmt s (decoratorsOf n) (defined n) := by
  by_cases hkind : n.kind = .decoratedDefinition
  · cases hchild : n.child? .definition with
    | none => simp [Node.isDefinition, defined, hkind, hchild] at h
    | some c =>
      simp only [decoratorsOf, defined, hkind, if_true, hchild, Option.getD_some]
      obtain ⟨kind, field, text, row, flaw, children⟩ := n
      obtain rfl : kind = .decoratedDefinition := hkind
      rw [Node.child?] at hchild
      simp only [ofStmt, ofDefinition_eq, hchild, Option.map_some, Option.getD_some]
  · simp [decoratorsOf, defined, hkind]

theorem runAll_ofFunction (s : Scope) (kind : RoutineKind) (n : Node) (body : Scope → List Flow) :
    (runAll mode r held (ofFunction s kind decorators n body)).2 = held := by
  unfold ofFunction
  split <;> simp [runAll, run]

theorem runAll_ofClassBody (s : Scope) (name? : Option Node) (children : List Node) :
    (runAll mode r held (ofClassBody s name? children)).2 = held := by
  induction children with
  | nil => rfl
  | cons c rest ih =>
    obtain ⟨kind, field, text, row, flaw, members⟩ := c
    simp only [ofClassBody]
    split
    · cases name? <;> simp [runAll, run]
    · exact ih

/-- A definition leaves the holds as they are: what it defines runs later. -/
theorem runAll_of_isDefinition (h : n.isDefinition = true) :
    (runAll mode r held (ofStmt s [] n)).2 = held := by
  rw [ofStmt_of_isDefinition h]
  simp only [Node.isDefinition, Bool.or_eq_true, decide_eq_true_eq] at h
  generalize defined n = m at h ⊢
  obtain ⟨kind, field, text, row, flaw, children⟩ := m
  rcases h with h | h
  · obtain rfl : kind = .functionDefinition := h
    rw [ofStmt]
    exact runAll_ofFunction ..
  · obtain rfl : kind = .classDefinition := h
    rw [ofStmt]
    exact runAll_ofClassBody ..

/-- An idle statement leaves the holds as they were. -/
theorem runAll_of_isIdle (h : n.isIdle = true) :
    (runAll mode r held (ofStmt s [] n)).2 = held := by
  by_cases hdef : n.isDefinition = true
  · exact runAll_of_isDefinition hdef
  · have hidle : n.kind = .deleteStatement ∨ isInert n.kind = true ∨ isPlain n.kind = true := by
      simpa [Node.isIdle, hdef, or_assoc] using h
    obtain ⟨kind, field, text, row, flaw, children⟩ := n
    unfold ofStmt
    split <;> simp [isInert, isPlain] at hidle
    · exact runAll_probes _
    · split
      · rfl
      · split
        · exact runAll_probes _
        · simp_all [isInert, isPlain]

end Flow

end Interlock
