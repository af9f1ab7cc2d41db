import Interlock.Proofs.Flow.Statement
import Interlock.Proofs.LockOrder.Edges

/-!
# The walk covers the steady executions

The walk of what may be held follows each statement once. `Executes.covers` says what this shows of
an execution that is steady in a lock: each time the execution takes another lock while it holds
this one, the walk nests the two, and where the execution goes on, the walk holds the lock at least
as often.

The proof is by induction on the execution. What carries it through a statement with several paths
is that a steady execution leaves it with no more holds than a join keeps (`Covers.merge`), and
enters no block with more holds than the walk does.
-/

namespace Interlock

open Syntax Lock Lock.HeldLocks Interlock.Flow LockOrder

/-- Events and ends of paths that show what an execution does: all that it takes inside a lock is
nested, and if control goes on then some path holds the lock at least as often. -/
structure Covers (name : String) (τ p : List LockStep) (e : Ending) (events : List Event)
    (ends : List HeldLocks) : Prop where
  nests : ∀ before lock after, p = before ++ .take lock :: after →
    0 < holdsOf name (τ ++ before) → Nests events name lock
  kept : e = .done → ∃ fin ∈ ends, holdsOf name (τ ++ p) ≤ fin.depth name

namespace Covers

variable {name lock : String} {τ p q : List LockStep} {e e' : Ending} {events events' : List Event}
  {ends ends' : List HeldLocks} {held : HeldLocks}

theorem nil (h : e = .done → ∃ fin ∈ ends, holdsOf name τ ≤ fin.depth name) :
    Covers name τ [] e events ends :=
  ⟨by simp, by simpa using h⟩

theorem nil_of_mem (hτ : holdsOf name τ ≤ held.depth name) (h : held ∈ ends) :
    Covers name τ [] e events ends :=
  nil fun _ => ⟨held, h, hτ⟩

theorem le_depth {fin : HeldLocks} (h : Covers name τ p .done events [fin]) :
    holdsOf name (τ ++ p) ≤ fin.depth name := by
  obtain ⟨fin', hfin, hle⟩ := h.kept rfl
  exact List.mem_singleton.1 hfin ▸ hle

theorem holdsOf_take_le (lexical : Bool) (hτ : holdsOf name τ ≤ held.depth name) :
    holdsOf name (τ ++ [.take lock]) ≤ (held.push lock lexical).depth name := by
  rw [holdsOf_concat, LockStep.count, depth_push]
  split <;> omega

theorem take (r : Routine) (line : Nat) (lexical : Bool) (hτ : holdsOf name τ ≤ held.depth name) :
    Covers name τ [.take lock] .done [.acquire r held lock line] [held.push lock lexical] := by
  refine ⟨fun before l after hsplit hpos => ?_, fun _ =>
    ⟨_, List.mem_singleton_self _, holdsOf_take_le lexical hτ⟩⟩
  · obtain ⟨rfl, hcons⟩ : before = [] ∧ .take l :: after = [LockStep.take lock] := by
      cases before with
      | nil => exact ⟨rfl, hsplit.symm⟩
      | cons x rest => simp at hsplit
    obtain ⟨rfl, -⟩ : l = lock ∧ after = [] := by simpa using hcons
    rw [List.append_nil] at hpos
    exact ⟨r, held, line, List.mem_singleton_self _,
      mem_names_iff_depth_pos.2 (Nat.lt_of_lt_of_le hpos hτ)⟩

theorem drop (lexical : Bool) (hτ : e = .done → holdsOf name τ ≤ held.depth name) :
    Covers name τ [.drop lock] e events [held.release lock lexical] := by
  refine ⟨fun before l after hsplit => ?_, fun he => ⟨_, List.mem_singleton_self _, ?_⟩⟩
  · cases before <;> simp at hsplit
  · have hbefore := hτ he
    have hrelease : held.depth name ≤ (held.release lock lexical).depth name +
        if lock = name then 1 else 0 := depth_le_depth_release
    rw [holdsOf_concat, LockStep.count]
    split
    · rw [if_pos ‹_›] at hrelease
      omega
    · rw [if_neg ‹_›] at hrelease
      omega

/-- Of an execution that control does not pass, only what it takes counts. -/
theorem left (h : Covers name τ p e events ends) (hevents : events ⊆ events') (he' : e' ≠ .done) :
    Covers name τ p e' events' ends' := by
  refine ⟨fun before l after hsplit hpos => ?_, fun hdone => absurd hdone he'⟩
  exact (h.nests before l after hsplit hpos).mono hevents

theorem mono (h : Covers name τ p e events ends) (hevents : events ⊆ events')
    (hends : Kept name ends ends') : Covers name τ p e events' ends' := by
  refine ⟨fun before l after hsplit hpos => ?_, fun hdone => ?_⟩
  · exact (h.nests before l after hsplit hpos).mono hevents
  · obtain ⟨fin, hfin, hle⟩ := h.kept hdone
    obtain ⟨fin', hfin', hle'⟩ := hends fin hfin
    exact ⟨fin', hfin', Nat.le_trans hle hle'⟩

theorem append (h : Covers name τ p e events ends) (h' : Covers name (τ ++ p) q e' events' ends') :
    Covers name τ (p ++ q) e' (events ++ events') ends' := by
  refine ⟨fun before l after hsplit hpos => ?_, ?_⟩
  · have hleft (rest : List LockStep) (hp : p = before ++ .take l :: rest) :
        Nests (events ++ events') name l := by
      exact (h.nests before l rest hp hpos).mono (List.subset_append_left _ _)
    have hright (rest : List LockStep) (hbefore : before = p ++ rest)
        (hq : q = rest ++ .take l :: after) : Nests (events ++ events') name l := by
      rw [hbefore, ← List.append_assoc] at hpos
      exact (h'.nests rest l after hq hpos).mono (List.subset_append_right _ _)
    rcases List.append_eq_append_iff.1 hsplit with ⟨rest, hbefore, hq⟩ | ⟨rest, hp, hq⟩
    · exact hright rest hbefore hq
    · cases rest with
      | nil => exact hright [] (by simpa using hp.symm) (by simpa using hq.symm)
      | cons x rest =>
        obtain ⟨rfl, -⟩ : .take l = x ∧ after = rest ++ q := by simpa using hq
        exact hleft rest hp
  · simpa only [List.append_assoc] using h'.kept

/-- A join covers an execution that is steady in the lock. -/
theorem merge (h : Covers name τ p e events ends) (hτ : holdsOf name τ ≤ held.depth name)
    (hends : ∀ fin ∈ ends, fin = held ∨ fin ∈ ends')
    (hlex : ∀ fin ∈ ends', fin.lexicals = held.lexicals)
    (honward : e = .done → (Discipline.steady name).onward τ (τ ++ p)) :
    Covers name τ p e events [held.merge .may ends'] := by
  refine ⟨h.nests, fun hdone => ⟨_, List.mem_singleton_self _, ?_⟩⟩
  obtain ⟨fin, hfin, hle⟩ := h.kept hdone
  rcases hends fin hfin with rfl | hfin
  · exact Nat.le_trans hle depth_le_depth_merge
  · have honward : holdsOf name (τ ++ p) ≤ max (holdsOf name τ) 1 := honward hdone
    exact le_depth_merge hfin (hlex fin hfin) hle (by omega)

end Covers

/-! ## The walk of a piece of code -/

/-- The walk of a piece of code that starts with some locks held: its events, and the ends of its
paths. -/
def Code.walk (s : Scope) (held : HeldLocks) : Code → List Event × List HeldLocks
  | stmt n => let here := runAll .may s.routine held (ofStmt s [] n); (here.1, [here.2])
  | block ns => let here := runAll .may s.routine held (ofStmts s ns); (here.1, [here.2])
  | within items body =>
    let here := runAll .may s.routine held (ofWith items (ofStmts s body))
    (here.1, [here.2])
  | rounds body =>
    let here := runAll .may s.routine held (ofStmts s body)
    (here.1, [held, here.2])
  | tried n => runParts .may s.routine held [] none (partsOf s n.children)

variable {s : Scope} {name : String} {τ p q : List LockStep} {e : Ending} {events : List Event}
  {ends : List HeldLocks} {held : HeldLocks} {n : Node}

theorem Covers.seq {r : Routine} {fs gs : List Flow}
    (h : Covers name τ p .done (runAll .may r held fs).1 [(runAll .may r held fs).2])
    (h' : ∀ held', holdsOf name (τ ++ p) ≤ held'.depth name →
      Covers name (τ ++ p) q e (runAll .may r held' gs).1 [(runAll .may r held' gs).2]) :
    Covers name τ (p ++ q) e (runAll .may r held (fs ++ gs)).1
      [(runAll .may r held (fs ++ gs)).2] := by
  rw [runAll_append]
  exact h.append (h' _ h.le_depth)

theorem covers_probes {r : Routine} (ps : List Probe) (hτ : holdsOf name τ ≤ held.depth name) :
    Covers name τ [] .done (runAll .may r held (ps.map probe)).1
      [(runAll .may r held (ps.map probe)).2] := by
  rw [runAll_probes]
  exact .nil_of_mem hτ (List.mem_singleton_self _)

theorem covers_expr (x : Node) (hτ : holdsOf name τ ≤ held.depth name) :
    Covers name τ (s.lockStep? x).toList .done (runAll .may s.routine held (ofExprStmt s x)).1
      [(runAll .may s.routine held (ofExprStmt s x)).2] := by
  rw [ofExprStmt_eq, Scope.lockStep?]
  cases s.lockCall? "acquire" x with
  | some lock =>
    have htake : Covers name τ [.take lock] .done
        (runAll .may s.routine held [acquire lock x.line]).1
        [(runAll .may s.routine held [acquire lock x.line]).2] := .take _ _ _ hτ
    exact htake.seq fun held' => covers_probes (s.argumentProbes x)
  | none =>
    cases s.lockCall? "release" x with
    | some lock =>
      have hdrop : Covers name τ [.drop lock] .done (runAll .may s.routine held [.release lock]).1
          [(runAll .may s.routine held [.release lock]).2] := .drop _ fun _ => hτ
      exact hdrop.seq fun held' => covers_probes (s.argumentProbes x)
    | none => exact covers_probes _ hτ

theorem covers_exprs (es : List Node) (hτ : holdsOf name τ ≤ held.depth name) :
    Covers name τ (es.filterMap s.lockStep?) .done
      (runAll .may s.routine held (es.flatMap (ofExprStmt s))).1
      [(runAll .may s.routine held (es.flatMap (ofExprStmt s))).2] := by
  induction es generalizing τ held with
  | nil => exact .nil_of_mem hτ (List.mem_singleton_self _)
  | cons x rest ih =>
    have hsteps : (x :: rest).filterMap s.lockStep? =
        (s.lockStep? x).toList ++ rest.filterMap s.lockStep? := by
      rw [List.filterMap_cons]
      cases s.lockStep? x <;> rfl
    rw [hsteps, List.flatMap_cons]
    exact (covers_expr x hτ).seq fun held' => ih

/-- The walk of a branching statement covers what the walks of its blocks cover. -/
theorem covers_branch (hn : n.isBranching = true) (h : Covers name τ p e events ends)
    (hevents : events ⊆ (runArms .may s.routine held (armsOf s n.children)).1)
    (hends : ∀ fin ∈ ends, fin = held ∨ fin ∈ (runArms .may s.routine held (armsOf s n.children)).2)
    (hτ : holdsOf name τ ≤ held.depth name)
    (honward : e = .done → (Discipline.steady name).onward τ (τ ++ p)) :
    Covers name τ p e ((Code.stmt n).walk s held).1 ((Code.stmt n).walk s held).2 := by
  simp only [Code.walk, ofStmt_of_isBranching hn, runAll_singleton, Flow.run]
  refine (h.mono hevents (kept_of_subset (List.Subset.refl _))).merge hτ ?_ ?_ honward
  · intro fin hfin
    refine (hends fin hfin).imp id fun hfin => ?_
    split
    · exact hfin
    · exact List.mem_append_left _ hfin
  · intro fin hfin
    split at hfin
    · exact lexicals_runArms _ hfin
    · rcases List.mem_append.1 hfin with hfin | hfin
      · exact lexicals_runArms _ hfin
      · rw [List.mem_singleton.1 hfin]

section Try

variable {body c : Node} {clauses b : List Node}

theorem walk_body_of_splits (h : n.Splits body clauses) :
    ((Code.block body.children).walk s held).1 ⊆ ((Code.tried n).walk s held).1 ∧
      Kept name ((Code.block body.children).walk s held).2 ((Code.tried n).walk s held).2 := by
  obtain ⟨ps, hparts⟩ : ∃ ps, partsOf s n.children = _ := partsOf_of_splits h
  obtain ⟨hevents, hends⟩ : _ ∧ Kept name _ _ :=
    runParts_split ps (partsOf s clauses) (.body (ofStmts s body.children))
  rw [← hparts] at hevents hends
  exact ⟨hevents, (kept_of_subset (List.subset_append_right _ _)).trans hends⟩

theorem walk_handler_of_splits (h : n.Splits body clauses) (hc : c ∈ clauses)
    (hhandler : c.isHandler = true) (hb : b ∈ c.blocks) :
    ((Code.block b).walk s held).1 ⊆ ((Code.tried n).walk s held).1 ∧
      Kept name ((Code.block b).walk s held).2 ((Code.tried n).walk s held).2 := by
  obtain ⟨ps, hparts⟩ : ∃ ps, partsOf s n.children = _ := partsOf_of_splits h
  obtain ⟨ms, ns, rfl⟩ := List.append_of_mem hc
  rw [partsOf_append, partsOf_cons_handler _ hhandler, ← List.cons_append, ← List.append_assoc]
    at hparts
  obtain ⟨hevents, hends⟩ : _ ∧ Kept name _ _ := runParts_split _ _ (.handler (armsOf s c.children))
  rw [← hparts] at hevents hends
  obtain ⟨hblock, hend⟩ := runAll_of_block_mem (block_mem_armsOf s _ hb)
  exact ⟨List.Subset.trans hblock hevents,
    (kept_singleton (List.mem_append_right _ hend)).trans hends⟩

theorem exists_walk_orElse_of_splits (h : n.Splits body clauses) (hc : c ∈ clauses)
    (hkind : c.kind = .elseClause) (hnamed : c.isNamed = true) (held : HeldLocks) :
    ∃ start,
      (runAll .may s.routine held (ofStmts s body.children)).2.depth name ≤ start.depth name ∧
      (runArms .may s.routine start (armsOf s c.children)).1 ⊆ ((Code.tried n).walk s held).1 ∧
      Kept name [start.merge .may (runArms .may s.routine start (armsOf s c.children)).2]
        ((Code.tried n).walk s held).2 := by
  obtain ⟨ps, hparts⟩ : ∃ ps, partsOf s n.children = _ := partsOf_of_splits h
  obtain ⟨ms, ns, rfl⟩ := List.append_of_mem hc
  rw [partsOf_append, partsOf_cons_orElse _ hkind hnamed] at hparts
  rw [Code.walk, hparts]
  refine exists_start_of_orElse (body_not_mem_partsOf fun m hm => ?_) _ _
  exact h.clauses m (List.mem_append_left _ hm)

end Try

/-- **The walk covers every execution that is steady in a lock.** -/
theorem Executes.covers {code : Code} (h : Executes (.steady name) s code τ p e) :
    ∀ held, holdsOf name τ ≤ held.depth name →
      Covers name τ p e (code.walk s held).1 (code.walk s held).2 := by
  induction h with
  | nil => exact fun held hτ => .nil_of_mem hτ (List.mem_singleton_self _)
  | raise => exact fun held hτ => .nil nofun
  | pause => exact fun held hτ => .nil nofun
  | next named _ _ ih ih' =>
    intro held hτ
    simp only [Code.walk, ofStmts, named, if_true]
    exact (ih held hτ).seq ih'
  | leave named _ left ih =>
    intro held hτ
    simp only [Code.walk, ofStmts, named, if_true, runAll_append]
    exact (ih held hτ).left (List.subset_append_left _ _) left
  | idle idle =>
    intro held hτ
    simp only [Code.walk, runAll_of_isIdle idle]
    exact .nil_of_mem hτ (List.mem_singleton_self _)
  | expression kind =>
    intro held hτ
    simp only [Code.walk, ofStmt_of_expressionStatement s [] kind]
    exact covers_exprs _ hτ
  | enter kind body _ ih =>
    intro held hτ
    simp only [Code.walk, ofStmt_of_withStatement kind body]
    exact ih held hτ
  | inside _ ih => exact ih
  | context _ ih =>
    intro held hτ
    exact (covers_probes _ hτ).seq (by simpa only [List.append_nil, Code.walk] using ih)
  | @lock τ p l line items body e _ left ih =>
    intro held hτ
    have hin := ih _ (Covers.holdsOf_take_le true hτ)
    have hout : Covers name (τ ++ [.take l] ++ p) [.drop l] e [] _ := .drop true fun hdone => by
      subst hdone
      exact hin.le_depth
    simpa [Code.walk, ofWith, Flow.run] using
      (Covers.take s.routine line true hτ).append (hin.append hout)
  | @lockPaused τ p l line items body _ ih =>
    intro held hτ
    have hin := ih _ (Covers.holdsOf_take_le true hτ)
    refine ((Covers.take s.routine line true hτ).append hin).left ?_ nofun
    simp [Code.walk, ofWith, Flow.run]
  | skip branching =>
    intro held hτ
    exact covers_branch branching (.nil_of_mem hτ (List.mem_singleton_self _)) (List.nil_subset _)
      (by simp) hτ fun _ => by simp [Discipline.steady]
  | choose branching once mem _ onward ih =>
    intro held hτ
    obtain ⟨hevents, hend⟩ := runAll_of_block_mem (block_mem_armsOf s _ mem)
    exact covers_branch branching (ih held hτ) hevents (by simp [Code.walk, hend]) hτ onward
  | noRound => exact fun held hτ => .nil_of_mem hτ List.mem_cons_self
  | round _ again _ ih ih' =>
    -- the one walk of the body covers this round too, which starts with no more holds
    intro held hτ
    refine ((ih held hτ).append (ih' held (Nat.le_trans again hτ))).mono ?_ (kept_of_subset ?_)
    · simp [Code.walk]
    · simp [Code.walk]
  | loop loop mem _ onward ih =>
    intro held hτ
    obtain ⟨hevents, hend⟩ :=
      runAll_of_block_mem (block_mem_armsOf s _ (mem_blocks_of_mem_ownBlocks mem))
    exact covers_branch (isBranching_of_isLoop loop) (ih held hτ) hevents
      (by simp [Code.walk, hend]) hτ onward
  | loopElse loop mem _ again clause mem' _ onward ih ih' =>
    intro held hτ
    obtain ⟨hbody, -⟩ :=
      runAll_of_block_mem (block_mem_armsOf s _ (mem_blocks_of_mem_ownBlocks mem))
    obtain ⟨helse, hend⟩ :=
      runAll_of_block_mem (block_mem_armsOf s _ (mem_blocks_of_mem_elseClauses clause mem'))
    exact covers_branch (isBranching_of_isLoop loop)
      ((ih held hτ).append (ih' held (Nat.le_trans again hτ)))
      (List.append_subset.2 ⟨hbody, helse⟩) (by simp [Code.walk, hend]) hτ onward
  | attempt splits _ _ ih =>
    intro held hτ
    obtain ⟨hevents, hends⟩ := walk_body_of_splits splits
    exact (ih held hτ).mono hevents hends
  | orElse splits _ clause named kind mem _ onward ih ih' =>
    -- the `else` is walked from the end of the body, and its paths are joined to that end
    intro held hτ
    obtain ⟨hbody, -⟩ : _ ∧ Kept name _ _ := walk_body_of_splits splits
    obtain ⟨start, hstart, hevents, hends⟩ :=
      exists_walk_orElse_of_splits splits clause kind named held
    have hle := Nat.le_trans (ih held hτ).le_depth hstart
    obtain ⟨hblock, hend⟩ := runAll_of_block_mem (block_mem_armsOf s _ mem)
    have helse := (ih' start hle).merge hle
      (fun fin hfin => .inr (List.mem_singleton.1 hfin ▸ hend))
      (fun fin hfin => lexicals_runArms _ hfin) (by simpa only [List.append_assoc] using onward)
    refine ((ih held hτ).append helse).mono (List.append_subset.2 ⟨hbody, ?_⟩) hends
    exact List.Subset.trans hblock hevents
  | handle splits _ again clause handler mem _ ih ih' =>
    intro held hτ
    obtain ⟨hbody, -⟩ : _ ∧ Kept name _ _ := walk_body_of_splits splits
    obtain ⟨hevents, hends⟩ := walk_handler_of_splits splits clause handler mem
    exact ((ih held hτ).append (ih' held (Nat.le_trans again hτ))).mono
      (List.append_subset.2 ⟨hbody, hevents⟩) hends
  | finish kind _ onward _ ih ih' =>
    intro held hτ
    have hjoin := (ih held hτ).merge hτ (fun fin hfin => .inr hfin)
      (fun fin hfin => lexicals_runParts _ hfin) fun _ => onward
    simp only [Code.walk, ofStmt_of_tryStatement kind, runAll_singleton, Flow.run]
    exact hjoin.append (ih' _ hjoin.le_depth)
  | abandon kind _ again _ ih ih' =>
    intro held hτ
    simp only [Code.walk, ofStmt_of_tryStatement kind, runAll_singleton, Flow.run]
    refine ((ih held hτ).append (ih' _ ?_)).left (List.Subset.refl _) ?_
    · exact Nat.le_trans (Nat.le_trans again hτ) depth_le_depth_merge
    · exact Ending.reraise_ne_done _
  | tryPaused kind _ ih =>
    intro held hτ
    simp only [Code.walk, ofStmt_of_tryStatement kind, runAll_singleton, Flow.run]
    exact (ih held hτ).left (List.subset_append_left _ _) nofun

end Interlock
