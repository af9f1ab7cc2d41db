import Interlock.Flow.Statement
import Interlock.Proofs.Flow.Places

/-!
# Places in a file

The places of a file are read off its syntax tree (`placesOf`): every report with the decorators
and `with` statements around it and the explicit acquisitions before it, routine by routine. Only
where a thing stands in the text counts here, not how control gets there.

A `release` in a flow comes from a `release` statement of the text (`Flow.dropsAll_ofStmt`), so what
no statement gives back between two places is not given back on the way.
-/

namespace Interlock

open Syntax

namespace Scope

/-- The lock of a call such as `lock.acquire(…)`, given the name of the method. -/
def lockCall? (s : Scope) (method : String) (e : Node) : Option String := do
  if e.kind ≠ .call then none
  let function ← e.child? .function
  if function.kind ≠ .attr then none
  let object ← function.child? .object
  let name ← function.child? .attr
  if name.text ≠ method then none
  s.lockOf? object

mutual

/-- The locks of the `release` statements in a statement. Those in the definition of a function or
class belong to another routine. -/
def releasedIn (s : Scope) : Node → List String
  | n@⟨kind, _, _, _, _, children⟩ =>
    match kind with
    | .functionDefinition | .classDefinition => []
    | .expressionStatement => n.named.filterMap (s.lockCall? "release")
    | .withStatement | .tryStatement => releasedBelow s children
    | _ => releasedAmong s children

/-- The same for a list of statements. -/
def releasedAmong (s : Scope) : List Node → List String
  | [] => []
  | c :: rest => releasedIn s c ++ releasedAmong s rest

/-- The same for the statements directly below a list of blocks and clauses. -/
def releasedBelow (s : Scope) : List Node → List String
  | [] => []
  | ⟨_, _, _, _, _, children⟩ :: rest => releasedAmong s children ++ releasedBelow s rest

end

/-- What an expression that stands as a statement does, unless it is a call on a lock. -/
def statementProbes (s : Scope) (e : Node) : List Probe :=
  match e.kind with
  | .assignment => s.assignmentProbes e
  | .augmentedAssignment =>
    ((e.child? .left).map (s.targetProbes true)).getD [] ++
      ((e.child? .right).map (s.probes false)).getD []
  | _ => s.probes false e

/-- What the arguments of a call do. -/
def argumentProbes (s : Scope) (e : Node) : List Probe :=
  ((e.child? .arguments).map (s.probes false)).getD []

end Scope

namespace Surroundings

/-- The surroundings after an expression that stands as a statement. -/
def afterExpr (s : Scope) (σ : Surroundings) (e : Node) : Surroundings :=
  match s.lockCall? "acquire" e with
  | some lock => σ.take lock
  | none => σ.past (s.lockCall? "release" e).toList

/-- The surroundings after a statement. -/
def afterStmt (s : Scope) (σ : Surroundings) (n : Node) : Surroundings :=
  if n.isNamed then
    if n.kind = .expressionStatement then n.named.foldl (afterExpr s) σ
    else σ.past (s.releasedIn n)
  else σ

/-- The surroundings inside the items of a `with` statement. -/
def within (σ : Surroundings) : List WithItem → Surroundings
  | [] => σ
  | .lock name _ :: items => within (σ.inside name) items
  | .probes _ :: items => within σ items

end Surroundings

namespace Place

/-- Probes that all stand at one place. -/
def probesAt (s : Scope) (σ : Surroundings) (ps : List Probe) : List Place :=
  ps.map fun p => ⟨s.routine, .probe p, σ⟩

/-- The places of an expression that stands as a statement. -/
def ofExpr (s : Scope) (σ : Surroundings) (e : Node) : List Place :=
  match s.lockCall? "acquire" e, s.lockCall? "release" e with
  | some lock, _ =>
    ⟨s.routine, .take lock e.line, σ⟩ :: probesAt s (σ.afterExpr s e) (s.argumentProbes e)
  | none, some _ => probesAt s (σ.afterExpr s e) (s.argumentProbes e)
  | none, none => probesAt s σ (s.statementProbes e)

/-- The places of the expressions of a statement. -/
def ofExprs (s : Scope) (σ : Surroundings) : List Node → List Place
  | [] => []
  | e :: rest => ofExpr s σ e ++ ofExprs s (σ.afterExpr s e) rest

/-- The places of the items of a `with` statement: each item stands inside those before it. -/
def ofItems (s : Scope) (σ : Surroundings) : List WithItem → List Place
  | [] => []
  | .lock name line :: items =>
    ⟨s.routine, .take name line, σ⟩ :: ofItems s (σ.inside name) items
  | .probes ps :: items => probesAt s σ ps ++ ofItems s σ items

/-- The places of a function, given those of its body. -/
def ofFunction (s : Scope) (kind : RoutineKind) (decorators : List String) (n : Node)
    (body : Scope → Surroundings → List Place) : List Place :=
  match n.child? .name with
  | none => []
  | some name =>
    let inner := s.ofFunction kind decorators n name.text
    let locks := (Flow.decoratorLocks s decorators).map (WithItem.lock · n.line)
    ⟨inner.routine, .enter, .empty⟩ ::
      (ofItems inner .empty locks ++ body inner (Surroundings.empty.within locks))

mutual

/-- The places of a statement. The decorators are those of a definition. -/
def ofStmt (s : Scope) (σ : Surroundings) (decorators : List String) : Node → List Place
  | n@⟨kind, _, _, _, _, children⟩ =>
    match kind with
    | .expressionStatement => ofExprs s σ n.named
    | .deleteStatement => probesAt s σ (s.targetProbesAmong false children)
    | .withStatement =>
      ofItems s σ (Flow.withItems s n) ++
        ofBlockField s (σ.within (Flow.withItems s n)) .body children
    | .tryStatement =>
      let before := children.filter fun c => c.kind ≠ .finallyClause
      ofParts s σ children ++ (ofFinal? s (σ.past (s.releasedBelow before)) children).getD []
    | .functionDefinition =>
      let routineKind := if s.routine.kind = .module then .function else .closure
      ofFunction s routineKind decorators n fun inner τ => ofBlockField inner τ .body children
    | .decoratedDefinition => ofDefinition s σ (decoratorNames n) children
    | .classDefinition => ofClassBody s (n.child? .name) children
    | _ =>
      if Flow.isInert kind then []
      else if Flow.isPlain kind then probesAt s σ (s.probesAmong false children)
      else ofArms s σ children

/-- The places of a block, given its statements. -/
def ofStmts (s : Scope) (σ : Surroundings) : List Node → List Place
  | [] => []
  | c :: rest => (if c.isNamed then ofStmt s σ [] c else []) ++ ofStmts s (σ.afterStmt s c) rest

/-- The places of the block in a given role. -/
def ofBlockField (s : Scope) (σ : Surroundings) (f : Field) : List Node → List Place
  | [] => []
  | ⟨_, field, _, _, _, children⟩ :: rest =>
    if field = some f then ofStmts s σ children else ofBlockField s σ f rest

/-- The places of the definition among the parts of a decorated definition. -/
def ofDefinition (s : Scope) (σ : Surroundings) (decorators : List String) : List Node → List Place
  | [] => []
  | c :: rest =>
    if c.field = some .definition then ofStmt s σ decorators c else ofDefinition s σ decorators rest

/-- The places of the class body among the parts of a class definition. -/
def ofClassBody (s : Scope) (name? : Option Node) : List Node → List Place
  | [] => []
  | body@⟨_, field, _, _, _, members⟩ :: rest =>
    if field = some .body then
      match name? with
      | none => []
      | some name =>
        let inner := s.ofClass name.text body
        ⟨inner.routine, .enter, .empty⟩ :: ofMembers inner members
    else ofClassBody s name? rest

/-- The places of the statements of a class body. -/
def ofMembers (s : Scope) : List Node → List Place
  | [] => []
  | m :: rest => (if m.isNamed then ofMember s [] m else []) ++ ofMembers s rest

/-- The places of the definition among the parts of a decorated member of a class. -/
def ofDecoratedMember (s : Scope) (decorators : List String) : List Node → List Place
  | [] => []
  | c :: rest =>
    if c.field = some .definition then ofMember s decorators c
    else ofDecoratedMember s decorators rest

/-- The places of a member of a class. -/
def ofMember (s : Scope) (decorators : List String) : Node → List Place
  | n@⟨kind, _, _, _, _, children⟩ =>
    match kind with
    | .functionDefinition =>
      ofFunction s .method decorators n fun inner τ => ofBlockField inner τ .body children
    | .decoratedDefinition => ofDecoratedMember s (decoratorNames n) children
    | .classDefinition => ofClassBody s (n.child? .name) children
    | .expressionStatement => probesAt s .empty (n.named.flatMap s.bodyWrites)
    | _ => []

/-- The places of the parts of a branching statement. -/
def ofArms (s : Scope) (σ : Surroundings) : List Node → List Place
  | [] => []
  | c@⟨kind, _, _, _, _, children⟩ :: rest =>
    let here :=
      if ¬ c.isNamed then []
      else if kind = .block then ofStmts s σ children
      else if kind.isClause then ofArms s σ children
      else if kind = .comment then []
      else probesAt s σ (s.probes false c)
    here ++ ofArms s (σ.past (s.releasedIn c)) rest

/-- The places of the parts of a `try` statement except its `finally`. -/
def ofParts (s : Scope) (σ : Surroundings) : List Node → List Place
  | [] => []
  | c@⟨kind, _, _, _, _, children⟩ :: rest =>
    let here :=
      if ¬ c.isNamed ∨ kind = .finallyClause ∨ kind = .comment then []
      else if kind = .block then ofStmts s σ children
      else ofArms s σ children
    here ++ ofParts s (σ.past (s.releasedAmong children)) rest

/-- The places of the last `finally` among the parts of a `try` statement. -/
def ofFinal? (s : Scope) (σ : Surroundings) : List Node → Option (List Place)
  | [] => none
  | c@⟨kind, _, _, _, _, children⟩ :: rest =>
    match ofFinal? s σ rest with
    | some final => some final
    | none => if kind = .finallyClause ∧ c.isNamed then some (ofBlocks s σ children) else none

/-- The places of the blocks among a list of siblings. -/
def ofBlocks (s : Scope) (σ : Surroundings) : List Node → List Place
  | [] => []
  | c@⟨kind, _, _, _, _, children⟩ :: rest =>
    (if kind = .block ∧ c.isNamed then ofStmts s σ children else []) ++
      ofBlocks s (σ.past (s.releasedIn c)) rest

end

end Place

/-- The places of a file, in the order of the text. -/
def placesOf (names : Lock.Names) (u : SourceUnit) : List Place :=
  ⟨Scope.topLevel, .enter, .empty⟩ :: Place.ofStmts (Scope.ofUnit names u) .empty u.tree.children

/-! ## Expressions -/

namespace Flow

open Surroundings

variable {s : Scope} {e : Node}

/-- A call on a lock is an `acquire` or a `release`, and then its arguments are evaluated. -/
theorem ofLockCall?_eq (h : e.kind = .call) : ofLockCall? s e =
    match s.lockCall? "acquire" e, s.lockCall? "release" e with
    | some lock, _ => some (acquire lock e.line :: (s.argumentProbes e).map probe)
    | none, some lock => some (release lock :: (s.argumentProbes e).map probe)
    | none, none => none := by
  cases hf : e.child? .function with
  | none => simp [ofLockCall?, Scope.lockCall?, h, hf]
  | some f =>
    by_cases hattr : f.kind = .attr
    · cases ho : f.child? .object with
      | none => simp [ofLockCall?, Scope.lockCall?, h, hf, hattr, ho]
      | some object =>
        cases hm : f.child? .attr with
        | none => simp [ofLockCall?, Scope.lockCall?, h, hf, hattr, ho, hm]
        | some method =>
          by_cases hacq : method.text = "acquire"
          · cases hl : s.lockOf? object with
            | none => simp [ofLockCall?, Scope.lockCall?, h, hf, hattr, ho, hm, hl, hacq]
            | some lock =>
              simp only [ofLockCall?, Scope.lockCall?, h, hf, hattr, ho, hm, hl, hacq, bind,
                Option.bind, Scope.argumentProbes]
              cases e.child? .arguments <;> rfl
          · by_cases hrel : method.text = "release"
            · cases hl : s.lockOf? object with
              | none => simp [ofLockCall?, Scope.lockCall?, h, hf, hattr, ho, hm, hl, hrel]
              | some lock =>
                simp only [ofLockCall?, Scope.lockCall?, h, hf, hattr, ho, hm, hl, hrel, bind,
                  Option.bind, Scope.argumentProbes]
                cases e.child? .arguments <;> rfl
            · simp [ofLockCall?, Scope.lockCall?, h, hf, hattr, ho, hm, hacq, hrel]
    · simp [ofLockCall?, Scope.lockCall?, h, hf, hattr]

/-- **The three kinds of expressions that stand as statements**: an `acquire`, a `release`, and all
others. -/
theorem ofExprStmt_eq (s : Scope) (e : Node) : ofExprStmt s e =
    match s.lockCall? "acquire" e, s.lockCall? "release" e with
    | some lock, _ => acquire lock e.line :: (s.argumentProbes e).map probe
    | none, some lock => release lock :: (s.argumentProbes e).map probe
    | none, none => (s.statementProbes e).map probe := by
  by_cases h : e.kind = .call
  · simp only [ofExprStmt, h, ofLockCall?_eq h, Scope.statementProbes]
    cases s.lockCall? "acquire" e <;> cases s.lockCall? "release" e <;> rfl
  · have hnone (method : String) : s.lockCall? method e = none := by
      simp [Scope.lockCall?, h]
    simp only [hnone]
    by_cases hasg : e.kind = .assignment
    · simp [ofExprStmt, Scope.statementProbes, hasg]
    · by_cases haug : e.kind = .augmentedAssignment
      · simp only [ofExprStmt, Scope.statementProbes, haug]
        cases e.child? .left <;> cases e.child? .right <;> rfl
      · have hprobes : s.statementProbes e = s.probes false e := by
          unfold Scope.statementProbes
          split
          · exact absurd ‹_› hasg
          · exact absurd ‹_› haug
          · rfl
        unfold ofExprStmt
        split
        · exact absurd ‹_› hasg
        · exact absurd ‹_› haug
        · exact absurd ‹_› h
        · rw [hprobes]

theorem ofStmt_of_expressionStatement (s : Scope) (decorators : List String) {n : Node}
    (h : n.kind = .expressionStatement) :
    ofStmt s decorators n = n.named.flatMap (ofExprStmt s) := by
  obtain ⟨kind, field, text, row, flaw, children⟩ := n
  obtain rfl : kind = .expressionStatement := h
  rfl

/-! ## Releases -/

/-- An expression gives back no lock but that of its `release`. -/
theorem dropsAll_ofExprStmt (s : Scope) (e : Node) :
    dropsAll (ofExprStmt s e) ⊆ (s.lockCall? "release" e).toList := by
  rw [ofExprStmt_eq]
  cases s.lockCall? "acquire" e <;> cases s.lockCall? "release" e <;>
    simp [dropsAll, drops]

theorem dropsAll_exprs (s : Scope) (es : List Node) :
    dropsAll (es.flatMap (ofExprStmt s)) ⊆ es.filterMap (s.lockCall? "release") := by
  induction es with
  | nil => simp [dropsAll]
  | cons e rest ih =>
    rw [List.flatMap_cons, dropsAll_append]
    refine List.append_subset.2 ⟨fun lock hlock => ?_, fun lock hlock => ?_⟩
    · have := dropsAll_ofExprStmt s e hlock
      exact List.mem_filterMap.2 ⟨e, List.mem_cons_self, by simpa using this⟩
    · obtain ⟨e', he', hlock⟩ := List.mem_filterMap.1 (ih hlock)
      exact List.mem_filterMap.2 ⟨e', List.mem_cons_of_mem _ he', hlock⟩

theorem dropsAll_ofWith (items : List WithItem) (body : List Flow) :
    dropsAll (ofWith items body) = dropsAll body := by
  induction items with
  | nil => rfl
  | cons item items ih =>
    cases item with
    | lock name line => simp [ofWith, dropsAll, drops, ih]
    | probes ps => simp [ofWith, dropsAll_append, ih]

/-- What a function gives back belongs to another routine. -/
theorem dropsAll_ofFunction (s : Scope) (kind : RoutineKind) (decorators : List String) (n : Node)
    (body : Scope → List Flow) : dropsAll (ofFunction s kind decorators n body) = [] := by
  unfold ofFunction
  split <;> rfl

theorem dropsAll_ofClassBody (s : Scope) (name? : Option Node) (children : List Node) :
    dropsAll (ofClassBody s name? children) = [] := by
  induction children with
  | nil => rfl
  | cons c rest ih =>
    obtain ⟨kind, field, text, row, flaw, members⟩ := c
    simp only [ofClassBody]
    split
    · cases name? <;> rfl
    · exact ih

theorem releasedBelow_filter_subset (s : Scope) (p : Node → Bool) (children : List Node) :
    s.releasedBelow (children.filter p) ⊆ s.releasedBelow children := by
  induction children with
  | nil => exact List.Subset.refl _
  | cons c rest ih =>
    obtain ⟨kind, field, text, row, flaw, below⟩ := c
    rw [List.filter_cons, Scope.releasedBelow]
    split
    · rw [Scope.releasedBelow]
      exact List.append_subset.2 ⟨List.subset_append_left _ _,
        List.subset_append_of_subset_right _ ih⟩
    · exact List.subset_append_of_subset_right _ ih

/-- A part of a `try` that is no body is an `else` or a handler. -/
theorem partsOf_cons (s : Scope) (kind : Kind) (field : Option Field) (text : String) (row : Nat)
    (flaw : Option Flaw) (below rest : List Node) :
    partsOf s (⟨kind, field, text, row, flaw, below⟩ :: rest) =
      (if ¬ Node.isNamed ⟨kind, field, text, row, flaw, below⟩ ∨ kind = .finallyClause ∨
          kind = .comment then []
        else if kind = .block then [.body (ofStmts s below)]
        else if kind = .elseClause then [.orElse (armsOf s below)]
        else [.handler (armsOf s below)]) ++ partsOf s rest := by
  rw [partsOf.eq_def]
  dsimp only
  congr 1
  by_cases hnamed : Node.isNamed ⟨kind, field, text, row, flaw, below⟩
  · simp only [hnamed, not_true_eq_false, if_false, false_or]
    split <;> simp_all
  · simp [hnamed]

/-- The releases of a clause are those of its statements. -/
theorem releasedIn_of_isClause (s : Scope) {kind : Kind} {field : Option Field} {text : String}
    {row : Nat} {flaw : Option Flaw} {children : List Node} (h : kind.isClause = true) :
    s.releasedIn ⟨kind, field, text, row, flaw, children⟩ = s.releasedAmong children := by
  rw [Scope.releasedIn]
  all_goals
    rintro - rfl -
    exact absurd h (by decide)

mutual

/-- **A lock that the flow of a statement gives back has a `release` in the text of it.** -/
theorem dropsAll_ofStmt (s : Scope) (decorators : List String) (n : Node) :
    dropsAll (ofStmt s decorators n) ⊆ s.releasedIn n := by
  obtain ⟨kind, field, text, row, flaw, children⟩ := n
  unfold ofStmt
  split
  · exact dropsAll_exprs s _
  · simp
  · rw [dropsAll_ofWith]
    exact dropsAll_ofBlockField s .body children
  · simp only [dropsAll, drops, List.append_nil, Scope.releasedIn]
    refine List.append_subset.2 ⟨List.Subset.trans (dropsParts_partsOf s children)
      (releasedBelow_filter_subset s _ children), ?_⟩
    cases hfin : finalOf? s children with
    | none => exact List.nil_subset _
    | some final => exact dropsAll_finalOf? s children hfin
  · rw [dropsAll_ofFunction]
    exact List.nil_subset _
  · exact dropsAll_ofDefinition s _ children
  · rw [dropsAll_ofClassBody]
    exact List.nil_subset _
  · split
    · exact List.nil_subset _
    · split
      · simp
      · rename_i hexpr hdel hwith htry hfun hdec hclass hinert hplain
        have hrel : s.releasedIn ⟨kind, field, text, row, flaw, children⟩ =
            s.releasedAmong children := by
          rw [Scope.releasedIn]
          all_goals assumption
        rw [hrel]
        simp only [dropsAll, drops, List.append_nil]
        exact dropsArms_armsOf s children

theorem dropsAll_ofStmts (s : Scope) (children : List Node) :
    dropsAll (ofStmts s children) ⊆ s.releasedAmong children := by
  cases children with
  | nil => exact List.nil_subset _
  | cons c rest =>
    rw [ofStmts, dropsAll_append, Scope.releasedAmong]
    refine List.append_subset.2 ⟨List.subset_append_of_subset_left _ ?_,
      List.subset_append_of_subset_right _ (dropsAll_ofStmts s rest)⟩
    split
    · exact dropsAll_ofStmt s [] c
    · exact List.nil_subset _

theorem dropsAll_ofBlockField (s : Scope) (f : Field) (children : List Node) :
    dropsAll (ofBlockField s f children) ⊆ s.releasedBelow children := by
  match children with
  | [] => exact List.nil_subset _
  | ⟨kind, field, text, row, flaw, below⟩ :: rest =>
    rw [ofBlockField, Scope.releasedBelow]
    split
    · exact List.subset_append_of_subset_left _ (dropsAll_ofStmts s below)
    · exact List.subset_append_of_subset_right _ (dropsAll_ofBlockField s f rest)

theorem dropsAll_ofDefinition (s : Scope) (decorators : List String) (children : List Node) :
    dropsAll (ofDefinition s decorators children) ⊆ s.releasedAmong children := by
  cases children with
  | nil => exact List.nil_subset _
  | cons c rest =>
    rw [ofDefinition, Scope.releasedAmong]
    split
    · exact List.subset_append_of_subset_left _ (dropsAll_ofStmt s decorators c)
    · exact List.subset_append_of_subset_right _ (dropsAll_ofDefinition s decorators rest)

/-- The same for the arms of a branching statement, whose clauses may be nested. -/
theorem dropsArms_armsOf (s : Scope) (children : List Node) :
    dropsArms (armsOf s children) ⊆ s.releasedAmong children := by
  match children with
  | [] => exact List.nil_subset _
  | ⟨kind, field, text, row, flaw, below⟩ :: rest =>
    rw [armsOf, dropsArms_append, Scope.releasedAmong]
    refine List.append_subset.2 ⟨List.subset_append_of_subset_left _ ?_,
      List.subset_append_of_subset_right _ (dropsArms_armsOf s rest)⟩
    split
    · exact List.nil_subset _
    · split
      · rename_i hkind
        subst hkind
        simpa [dropsArms, Scope.releasedIn] using dropsAll_ofStmts s below
      · split
        · rename_i hclause
          rw [releasedIn_of_isClause s hclause]
          exact dropsArms_armsOf s below
        · split
          · exact List.nil_subset _
          · simp

/-- The same for the parts of a `try`, which do not include its `finally`. -/
theorem dropsParts_partsOf (s : Scope) (children : List Node) :
    dropsParts (partsOf s children) ⊆
      s.releasedBelow (children.filter fun c => c.kind ≠ .finallyClause) := by
  match children with
  | [] => exact List.nil_subset _
  | ⟨kind, field, text, row, flaw, below⟩ :: rest =>
    rw [partsOf_cons, dropsParts_append]
    by_cases hfin : kind = .finallyClause
    · subst hfin
      rw [List.filter_cons_of_neg (by simp), if_pos (.inr (.inl rfl))]
      exact dropsParts_partsOf s rest
    · rw [List.filter_cons_of_pos (by simpa using hfin), Scope.releasedBelow]
      refine List.append_subset.2 ⟨List.subset_append_of_subset_left _ ?_,
        List.subset_append_of_subset_right _ (dropsParts_partsOf s rest)⟩
      split
      · exact List.nil_subset _
      · split
        · simpa [dropsParts] using dropsAll_ofStmts s below
        · split <;> simpa [dropsParts] using dropsArms_armsOf s below

theorem dropsAll_finalOf? (s : Scope) (children : List Node) {final : List Flow}
    (h : finalOf? s children = some final) : dropsAll final ⊆ s.releasedBelow children := by
  match children with
  | [] => cases h
  | ⟨kind, field, text, row, flaw, below⟩ :: rest =>
    rw [finalOf?] at h
    rw [Scope.releasedBelow]
    cases hrest : finalOf? s rest with
    | some final' =>
      rw [hrest] at h
      cases h
      exact List.subset_append_of_subset_right _ (dropsAll_finalOf? s rest hrest)
    | none =>
      rw [hrest] at h
      simp only [Option.ite_none_right_eq_some, Option.some.injEq] at h
      obtain ⟨-, rfl⟩ := h
      exact List.subset_append_of_subset_left _ (dropsAll_ofBlocks s below)

theorem dropsAll_ofBlocks (s : Scope) (children : List Node) :
    dropsAll (ofBlocks s children) ⊆ s.releasedAmong children := by
  match children with
  | [] => exact List.nil_subset _
  | ⟨kind, field, text, row, flaw, below⟩ :: rest =>
    rw [ofBlocks, dropsAll_append, Scope.releasedAmong]
    refine List.append_subset.2 ⟨List.subset_append_of_subset_left _ ?_,
      List.subset_append_of_subset_right _ (dropsAll_ofBlocks s rest)⟩
    split
    · rename_i hkind
      obtain ⟨rfl, -⟩ := hkind
      simpa [Scope.releasedIn] using dropsAll_ofStmts s below
    · exact List.nil_subset _

end

end Flow

end Interlock
