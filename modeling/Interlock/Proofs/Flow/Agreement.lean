import Interlock.Proofs.Flow.Lexical

/-!
# The walk agrees with the text

`fits_walk`: in both modes the walk of a file reports what stands at the places of the file, in the
order of the text, and its holds fit the places. The lexical holds are exactly the locks of the
decorators and `with` items around a place, and a lock that was acquired before it and not released
since is held.

The places of a statement are compared with those of its flow first (`Flow.le_ofStmt`). The flow may
know of more acquisitions, since it forgets where a block ends that takes no lock.
-/

namespace Interlock

open Syntax Lock Surroundings

/-- The same report, with less said about what stands around it. -/
structure Place.Le (p q : Place) : Prop where
  routine : p.routine = q.routine
  mark : p.mark = q.mark
  surroundings : p.surroundings.Le q.surroundings

theorem Place.Fits.mono {p q : Place} {e : Event} (h : q.Fits e) (hle : p.Le q) : p.Fits e := by
  obtain ⟨held, hfits, rfl⟩ := h
  exact ⟨held, hfits.mono hle.surroundings, by rw [hle.routine, hle.mark]⟩

theorem Place.fits_of_le {ps qs : List Place} {es : List Event} (hle : List.Forall₂ Place.Le ps qs)
    (h : List.Forall₂ Place.Fits qs es) : List.Forall₂ Place.Fits ps es := by
  induction hle generalizing es with
  | nil => exact h
  | cons hp _ ih =>
    cases h with
    | cons hq h => exact .cons (hq.mono hp) (ih h)

/-- Every event stands at some place. -/
theorem Place.exists_fits {ps : List Place} {es : List Event} (h : List.Forall₂ Place.Fits ps es)
    {e : Event} (he : e ∈ es) : ∃ p ∈ ps, p.Fits e := by
  induction h with
  | nil => cases he
  | @cons p e' ps es hp _ ih =>
    rcases List.mem_cons.1 he with rfl | he
    · exact ⟨p, List.mem_cons_self, hp⟩
    · obtain ⟨q, hq, hfits⟩ := ih he
      exact ⟨q, List.mem_cons_of_mem _ hq, hfits⟩

namespace Surroundings

variable {σ τ : Surroundings}

theorem Le.within (h : σ.Le τ) (items : List WithItem) : (σ.within items).Le (τ.within items) := by
  induction items generalizing σ τ with
  | nil => exact h
  | cons item items ih =>
    cases item with
    | lock name line => exact ih h.inside
    | probes ps => exact ih h

theorem Le.afterExpr (h : σ.Le τ) (s : Scope) (e : Node) :
    (σ.afterExpr s e).Le (τ.afterExpr s e) := by
  unfold Surroundings.afterExpr
  split
  · exact h.take
  · exact h.past (List.Subset.refl _)

theorem around_afterAll (fs : List Flow) : (σ.afterAll fs).around = σ.around := by
  induction fs generalizing σ with
  | nil => rfl
  | cons f rest ih =>
    refine ih.trans ?_
    cases f <;> rfl

theorem afterAll_append (fs gs : List Flow) : σ.afterAll (fs ++ gs) = (σ.afterAll fs).afterAll gs :=
  List.foldl_append

/-- After an expression the text and the flow know of the same acquisitions. -/
theorem afterAll_ofExprStmt (s : Scope) (e : Node) :
    σ.afterAll (Flow.ofExprStmt s e) = σ.afterExpr s e := by
  rw [Flow.ofExprStmt_eq, afterExpr]
  cases s.lockCall? "acquire" e with
  | some lock => exact afterAll_probes _ _
  | none =>
    cases s.lockCall? "release" e with
    | some lock => exact afterAll_probes _ _
    | none => simp

end Surroundings

namespace Flow

variable {σ τ : Surroundings}

theorem le_probesAt (h : σ.Le τ) (s : Scope) (ps : List Probe) :
    List.Forall₂ Place.Le (Place.probesAt s σ ps) (Place.probesAt s τ ps) := by
  induction ps with
  | nil => exact .nil
  | cons p rest ih => exact .cons ⟨rfl, rfl, h⟩ ih

theorem placesAll_probes (s : Scope) (ps : List Probe) :
    placesAll s.routine τ (ps.map probe) = Place.probesAt s τ ps := by
  induction ps with
  | nil => rfl
  | cons p rest ih =>
    rw [List.map_cons, placesAll, after_probe, ih]
    rfl

theorem placesArms_probes (s : Scope) (ps : List Probe) :
    placesArms s.routine τ (ps.map .probe) = Place.probesAt s τ ps := by
  induction ps with
  | nil => rfl
  | cons p rest ih =>
    rw [List.map_cons, placesArms, ih]
    rfl

/-! ## Expressions and `with` items -/

/-- An expression has the same places in the text and in its flow. -/
theorem placesAll_ofExprStmt (s : Scope) (e : Node) :
    placesAll s.routine τ (ofExprStmt s e) = Place.ofExpr s τ e := by
  rw [ofExprStmt_eq, Place.ofExpr, afterExpr]
  cases s.lockCall? "acquire" e with
  | some lock => simp [placesAll, places, placesAll_probes, after]
  | none =>
    cases s.lockCall? "release" e with
    | some lock => simp [placesAll, places, placesAll_probes, after, drops]
    | none => exact placesAll_probes s _

theorem le_ofExpr (h : σ.Le τ) (s : Scope) (e : Node) :
    List.Forall₂ Place.Le (Place.ofExpr s σ e) (Place.ofExpr s τ e) := by
  unfold Place.ofExpr
  split
  · exact .cons ⟨rfl, rfl, h⟩ (le_probesAt (h.afterExpr s e) s _)
  · exact le_probesAt (h.afterExpr s e) s _
  · exact le_probesAt h s _

theorem le_ofExprs (h : σ.Le τ) (s : Scope) (es : List Node) :
    List.Forall₂ Place.Le (Place.ofExprs s σ es)
        (placesAll s.routine τ (es.flatMap (ofExprStmt s))) ∧
      (es.foldl (Surroundings.afterExpr s) σ).Le (τ.afterAll (es.flatMap (ofExprStmt s))) := by
  induction es generalizing σ τ with
  | nil => exact ⟨.nil, h⟩
  | cons e rest ih =>
    have ih := ih (h.afterExpr s e)
    rw [List.flatMap_cons, placesAll_append, afterAll_append, afterAll_ofExprStmt,
      placesAll_ofExprStmt]
    exact ⟨List.rel_append (le_ofExpr h s e) ih.1, ih.2⟩

/-- The items of a `with` statement come first, each inside those before it, and the body inside all
of them. -/
theorem placesAll_ofWith (s : Scope) (items : List WithItem) (body : List Flow) :
    placesAll s.routine τ (ofWith items body) =
      Place.ofItems s τ items ++ placesAll s.routine (τ.within items) body := by
  induction items generalizing τ with
  | nil => rfl
  | cons item items ih =>
    cases item with
    | lock name line => simp [ofWith, placesAll, places, Place.ofItems, Surroundings.within, ih]
    | probes ps =>
      simp [ofWith, placesAll_append, placesAll_probes, Place.ofItems, Surroundings.within, ih]

theorem le_ofItems (h : σ.Le τ) (s : Scope) (items : List WithItem) :
    List.Forall₂ Place.Le (Place.ofItems s σ items) (Place.ofItems s τ items) := by
  induction items generalizing σ τ with
  | nil => exact .nil
  | cons item items ih =>
    cases item with
    | lock name line => exact .cons ⟨rfl, rfl, h⟩ (ih h.inside)
    | probes ps => exact List.rel_append (le_probesAt h s ps) (ih h)

/-- A function starts anew, so all that counts is that its body agrees, whatever stands around the
definition. -/
theorem le_ofFunction (s : Scope) (kind : RoutineKind) (decorators : List String) (n : Node)
    (r : Routine) (τ : Surroundings) {places : Scope → Surroundings → List Place}
    {flow : Scope → List Flow} (h : ∀ inner ρ,
      List.Forall₂ Place.Le (places inner ρ) (placesAll inner.routine ρ (flow inner))) :
    List.Forall₂ Place.Le (Place.ofFunction s kind decorators n places)
      (placesAll r τ (ofFunction s kind decorators n flow)) := by
  unfold Place.ofFunction ofFunction
  cases n.child? .name with
  | none => exact .nil
  | some name =>
    simp only [placesAll, Flow.places, underLocks, List.append_nil, placesAll_ofWith]
    exact .cons ⟨rfl, rfl, .refl⟩ (List.rel_append (le_ofItems .refl _ _) (h _ _))

/-! ## Statements -/

/-- After a statement the text knows of no acquisition that the flow does not know of. -/
theorem afterStmt_le (h : σ.Le τ) (s : Scope) (c : Node) :
    (σ.afterStmt s c).Le (τ.afterAll (if c.isNamed then ofStmt s [] c else [])) := by
  unfold Surroundings.afterStmt
  split
  · split
    · rename_i hexpr
      rw [ofStmt_of_expressionStatement s [] hexpr]
      exact (le_ofExprs h s _).2
    · exact (h.past (dropsAll_ofStmt s [] c)).trans (past_le_afterAll τ _)
  · exact h

mutual

/-- **The places of a statement agree with those of its flow.** The induction is on the tree, with
one lemma for each way in which the flow of a node is put together. -/
theorem le_ofStmt (s : Scope) (decorators : List String) (n : Node) {σ τ : Surroundings}
    (h : σ.Le τ) : List.Forall₂ Place.Le (Place.ofStmt s σ decorators n)
      (placesAll s.routine τ (ofStmt s decorators n)) := by
  obtain ⟨kind, field, text, row, flaw, children⟩ := n
  unfold ofStmt
  split
  · exact (le_ofExprs h s _).1
  · rw [placesAll_probes]
    exact le_probesAt h s _
  · rw [placesAll_ofWith]
    exact List.rel_append (le_ofItems h s _) (le_ofBlockField s .body children (h.within _))
  · simp only [placesAll, places, List.append_nil]
    refine List.rel_append (le_ofParts s children h) ?_
    have hfin := le_ofFinal s children (h.past (dropsParts_partsOf s children))
    revert hfin
    generalize finalOf? s children = final?, Place.ofFinal? s _ children = places?
    rintro (hfin | -)
    · exact hfin
    · exact .nil
  · exact le_ofFunction s _ _ _ _ _ fun inner ρ => le_ofBlockField inner .body children .refl
  · exact le_ofDefinition s _ children h
  · exact le_ofClassBody s _ children _ τ
  · rename_i hexpr hdel hwith htry hfun hdec hclass
    rw [Place.ofStmt]
    · split
      · exact .nil
      · split
        · rw [placesAll_probes]
          exact le_probesAt h s _
        · simpa [placesAll, places] using le_ofArms s children h
    all_goals assumption

theorem le_ofStmts (s : Scope) (children : List Node) {σ τ : Surroundings} (h : σ.Le τ) :
    List.Forall₂ Place.Le (Place.ofStmts s σ children)
      (placesAll s.routine τ (ofStmts s children)) := by
  cases children with
  | nil => exact .nil
  | cons c rest =>
    rw [ofStmts, placesAll_append, Place.ofStmts]
    refine List.rel_append ?_ (le_ofStmts s rest (afterStmt_le h s c))
    split
    · exact le_ofStmt s [] c h
    · exact .nil

theorem le_ofBlockField (s : Scope) (f : Field) (children : List Node) {σ τ : Surroundings}
    (h : σ.Le τ) : List.Forall₂ Place.Le (Place.ofBlockField s σ f children)
      (placesAll s.routine τ (ofBlockField s f children)) := by
  match children with
  | [] => exact .nil
  | ⟨kind, field, text, row, flaw, below⟩ :: rest =>
    rw [ofBlockField, Place.ofBlockField]
    split
    · exact le_ofStmts s below h
    · exact le_ofBlockField s f rest h

theorem le_ofDefinition (s : Scope) (decorators : List String) (children : List Node)
    {σ τ : Surroundings} (h : σ.Le τ) :
    List.Forall₂ Place.Le (Place.ofDefinition s σ decorators children)
      (placesAll s.routine τ (ofDefinition s decorators children)) := by
  cases children with
  | nil => exact .nil
  | cons c rest =>
    rw [ofDefinition, Place.ofDefinition]
    split
    · exact le_ofStmt s decorators c h
    · exact le_ofDefinition s decorators rest h

/-- The body of a class is a routine of its own, whatever stands around it. -/
theorem le_ofClassBody (s : Scope) (name? : Option Node) (children : List Node) (r : Routine)
    (τ : Surroundings) : List.Forall₂ Place.Le (Place.ofClassBody s name? children)
      (placesAll r τ (ofClassBody s name? children)) := by
  match children with
  | [] => exact .nil
  | ⟨kind, field, text, row, flaw, members⟩ :: rest =>
    simp only [ofClassBody, Place.ofClassBody]
    split
    · cases name? with
      | none => exact .nil
      | some name =>
        simp only [placesAll, places, List.append_nil]
        exact .cons ⟨rfl, rfl, .refl⟩ (le_ofMembers _ members .refl)
    · exact le_ofClassBody s name? rest r τ

theorem le_ofMembers (s : Scope) (children : List Node) {τ : Surroundings}
    (h : Surroundings.empty.Le τ) : List.Forall₂ Place.Le (Place.ofMembers s children)
      (placesAll s.routine τ (ofMembers s children)) := by
  cases children with
  | nil => exact .nil
  | cons m rest =>
    rw [ofMembers, placesAll_append, Place.ofMembers]
    refine List.rel_append ?_ (le_ofMembers s rest ⟨?_, List.nil_subset _⟩)
    · split
      · exact le_ofMember s [] m h
      · exact .nil
    · rw [around_afterAll]
      exact h.around

theorem le_ofDecoratedMember (s : Scope) (decorators : List String) (children : List Node)
    {τ : Surroundings} (h : Surroundings.empty.Le τ) :
    List.Forall₂ Place.Le (Place.ofDecoratedMember s decorators children)
      (placesAll s.routine τ (ofDecoratedMember s decorators children)) := by
  cases children with
  | nil => exact .nil
  | cons c rest =>
    rw [ofDecoratedMember, Place.ofDecoratedMember]
    split
    · exact le_ofMember s decorators c h
    · exact le_ofDecoratedMember s decorators rest h

theorem le_ofMember (s : Scope) (decorators : List String) (n : Node) {τ : Surroundings}
    (h : Surroundings.empty.Le τ) : List.Forall₂ Place.Le (Place.ofMember s decorators n)
      (placesAll s.routine τ (ofMember s decorators n)) := by
  obtain ⟨kind, field, text, row, flaw, children⟩ := n
  unfold ofMember
  split
  · exact le_ofFunction s _ _ _ _ _ fun inner ρ => le_ofBlockField inner .body children .refl
  · exact le_ofDecoratedMember s _ children h
  · exact le_ofClassBody s _ children _ _
  · rw [placesAll_probes]
    exact le_probesAt h s _
  · rename_i hfun hdec hclass hexpr
    rw [Place.ofMember]
    · exact .nil
    all_goals assumption

/-- The arms of a branching statement, with the expressions between its blocks. -/
theorem le_ofArms (s : Scope) (children : List Node) {σ τ : Surroundings} (h : σ.Le τ) :
    List.Forall₂ Place.Le (Place.ofArms s σ children)
      (placesArms s.routine τ (armsOf s children)) := by
  match children with
  | [] => exact .nil
  | ⟨kind, field, text, row, flaw, below⟩ :: rest =>
    have hdrops := dropsArms_armsOf s [⟨kind, field, text, row, flaw, below⟩]
    simp only [armsOf, Scope.releasedAmong, List.append_nil] at hdrops
    rw [armsOf, placesArms_append, Place.ofArms]
    refine List.rel_append ?_ (le_ofArms s rest (h.past hdrops))
    split
    · exact .nil
    · split
      · simpa [placesArms] using le_ofStmts s below h
      · split
        · exact le_ofArms s below h
        · split
          · exact .nil
          · rw [placesArms_probes]
            exact le_probesAt h s _

theorem le_ofParts (s : Scope) (children : List Node) {σ τ : Surroundings} (h : σ.Le τ) :
    List.Forall₂ Place.Le (Place.ofParts s σ children)
      (placesParts s.routine τ (partsOf s children)) := by
  match children with
  | [] => exact .nil
  | ⟨kind, field, text, row, flaw, below⟩ :: rest =>
    have hdrops := List.Subset.trans (dropsParts_partsOf s [⟨kind, field, text, row, flaw, below⟩])
      (releasedBelow_filter_subset s _ _)
    rw [partsOf_cons, partsOf, List.append_nil, Scope.releasedBelow, Scope.releasedBelow,
      List.append_nil] at hdrops
    rw [partsOf_cons, placesParts_append, Place.ofParts]
    refine List.rel_append ?_ (le_ofParts s rest (h.past hdrops))
    split
    · exact .nil
    · split
      · simpa [placesParts] using le_ofStmts s below h
      · split <;> simpa [placesParts] using le_ofArms s below h

/-- There is a `finally` in the flow if there is one in the text, and they agree. -/
theorem le_ofFinal (s : Scope) (children : List Node) {σ τ : Surroundings} (h : σ.Le τ) :
    Option.Rel (fun ps final => List.Forall₂ Place.Le ps (placesAll s.routine τ final))
      (Place.ofFinal? s σ children) (finalOf? s children) := by
  match children with
  | [] => exact .none
  | ⟨kind, field, text, row, flaw, below⟩ :: rest =>
    rw [finalOf?, Place.ofFinal?]
    have hrest := le_ofFinal s rest h
    revert hrest
    generalize finalOf? s rest = final?, Place.ofFinal? s σ rest = places?
    rintro (hfin | -)
    · exact .some hfin
    · dsimp only
      split
      · exact .some (le_ofBlocks s below h)
      · exact .none

theorem le_ofBlocks (s : Scope) (children : List Node) {σ τ : Surroundings} (h : σ.Le τ) :
    List.Forall₂ Place.Le (Place.ofBlocks s σ children)
      (placesAll s.routine τ (ofBlocks s children)) := by
  match children with
  | [] => exact .nil
  | ⟨kind, field, text, row, flaw, below⟩ :: rest =>
    have hdrops := dropsAll_ofBlocks s [⟨kind, field, text, row, flaw, below⟩]
    simp only [ofBlocks, Scope.releasedAmong, List.append_nil] at hdrops
    rw [ofBlocks, placesAll_append, Place.ofBlocks]
    refine List.rel_append ?_ (le_ofBlocks s rest ((h.past hdrops).trans (past_le_afterAll τ _)))
    split
    · exact le_ofStmts s below h
    · exact .nil

end

end Flow

/-- **The walk agrees with the text**, in both modes. -/
theorem fits_walk (mode : HoldMode) (names : Names) (u : SourceUnit) :
    List.Forall₂ Place.Fits (placesOf names u) (walk mode names u) := by
  refine .cons ⟨[], fits_empty, rfl⟩ (Place.fits_of_le ?_ (Flow.fits_runAll _ _ fits_empty).1)
  exact Flow.le_ofStmts (Scope.ofUnit names u) u.tree.children .refl

end Interlock
