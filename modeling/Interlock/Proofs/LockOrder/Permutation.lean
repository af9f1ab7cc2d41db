import Interlock.Proofs.LockOrder.Cycles
import Interlock.Proofs.LockOrder.Edges
import Interlock.Proofs.Syntax.Build

/-!
# The order of the units

A lock-order graph keeps its locks and edges in the order in which they were seen, and of each edge
the site that was seen first. Which locks and edges it has does not depend on that order
(`LockGraph.hasEdge_addAll_of_perm`, `LockGraph.mem_locks_addAll_of_perm`), and the search for
cycles looks at the locks by name only. So graphs with the same locks and edges have the same
cycles, found in the same order, whether or not the search ends early (`LockGraph.cycles_eq`).

`LockOrder.run_perm` draws the conclusion for an analysis of units in any order.
-/

namespace Interlock

open Syntax Lock

namespace LockGraph

variable {g g' : LockGraph}

/-! ## Graphs with the same locks and edges -/

theorem sortedLocks_eq (h : g.locks.Nodup) (h' : g'.locks.Nodup)
    (hmem : ∀ a, a ∈ g.locks ↔ a ∈ g'.locks) : g.sortedLocks = g'.sortedLocks := by
  refine (pairwise_sortedLocks h).eq_of_mem_iff (pairwise_sortedLocks h') fun a => ?_
  rw [mem_sortedLocks, mem_sortedLocks, hmem]

/-- The cycles of a graph depend on the names of its locks and on its edges only. -/
theorem cycles_eq (h : g.WellFormed) (h' : g'.WellFormed) (hlocks : g.sortedLocks = g'.sortedLocks)
    (hedge : ∀ a b, g.hasEdge a b = g'.hasEdge a b) : g.cycles = g'.cycles := by
  simp only [cycles, hlocks, adjacency_eq h h' hlocks hedge]

/-! ## Observations in any order -/

variable {observations observations' : List Observation}

theorem hasEdge_addAll_of_perm (h : observations.Perm observations') (a b : String) :
    (g.addAll observations).2.hasEdge a b = (g.addAll observations').2.hasEdge a b := by
  rw [Bool.eq_iff_iff, hasEdge_addAll, hasEdge_addAll]
  simp only [h.mem_iff]

theorem mem_locks_addAll_of_perm (h : observations.Perm observations') (a : String) :
    a ∈ (g.addAll observations).2.locks ↔ a ∈ (g.addAll observations').2.locks := by
  rw [mem_locks_addAll, mem_locks_addAll]
  simp only [h.mem_iff]

theorem sortedLocks_addAll_of_perm (hg : g.WellFormed) (h : observations.Perm observations') :
    (g.addAll observations).2.sortedLocks = (g.addAll observations').2.sortedLocks :=
  sortedLocks_eq (hg.addAll _).nodup (hg.addAll _).nodup (mem_locks_addAll_of_perm h)

end LockGraph

/-- What a deadlock says apart from where its locks are taken. -/
def Deadlock.outline (d : Deadlock) : List String × Severity × String :=
  (d.locks, d.severity, d.suggestion)

namespace LockOrder

variable {units units' : List SourceUnit}

theorem locks_deadlock (g : LockGraph) (locks : List String) : (deadlock g locks).locks = locks :=
  rfl

theorem outline_deadlock (g g' : LockGraph) (locks : List String) :
    (deadlock g locks).outline = (deadlock g' locks).outline := by
  simp only [Deadlock.outline, deadlock]

theorem map_locks_deadlocks (g : LockGraph) : (deadlocks g).map Deadlock.locks = g.cycles := by
  rw [deadlocks, List.map_map]
  exact (List.map_congr_left fun locks _ => locks_deadlock g locks).trans (List.map_id _)

theorem map_outline_deadlocks {g g' : LockGraph} (h : g.cycles = g'.cycles) :
    (deadlocks g).map Deadlock.outline = (deadlocks g').map Deadlock.outline := by
  simp only [deadlocks, List.map_map, h]
  exact List.map_congr_left fun locks _ => outline_deadlock g g' locks

/-- The observations of units in another order are the same, in another order. -/
theorem exists_observations_perm (settings : LockOrderSettings) (h : units.Perm units') :
    ∃ observations observations' : List Observation, observations.Perm observations' ∧
      (run settings units).2 = (LockGraph.empty.addAll observations).2 ∧
      (run settings units').2 = (LockGraph.empty.addAll observations').2 :=
  ⟨_, _, (accepted_perm h).flatMap fun _ _ => .refl _, graph_run _ _, graph_run _ _⟩

/-- **An analysis does not depend on the order of its units**: whatever the order, the graph has the
same locks and edges, and the deadlocks are the same in the same order but for the sites that they
name, even where there are too many to list them all. The units are counted alike, and the
diagnostics come in the order of the units. -/
theorem run_perm (settings : LockOrderSettings) (h : units.Perm units') :
    let before := run settings units
    let after := run settings units'
    before.2.sortedLocks = after.2.sortedLocks ∧ before.2.edges = after.2.edges ∧
      before.1.findings.map Deadlock.locks = after.1.findings.map Deadlock.locks ∧
      before.1.findings.map Deadlock.outline = after.1.findings.map Deadlock.outline ∧
      before.1.analyzed = after.1.analyzed ∧ before.1.skipped = after.1.skipped ∧
      before.1.diagnostics.Perm after.1.diagnostics := by
  intro before after
  obtain ⟨os, os', hos, hg, hg'⟩ := exists_observations_perm settings h
  have hlocks : before.2.sortedLocks = after.2.sortedLocks := by
    rw [hg, hg']
    exact LockGraph.sortedLocks_addAll_of_perm LockGraph.wellFormed_empty hos
  have hedge (a b : String) : before.2.hasEdge a b = after.2.hasEdge a b := by
    rw [hg, hg']
    exact LockGraph.hasEdge_addAll_of_perm hos a b
  have hcycles : before.2.cycles = after.2.cycles :=
    LockGraph.cycles_eq (wellFormed_graph_run _ _) (wellFormed_graph_run _ _) hlocks hedge
  have hbefore : before.1 = _ := run_eq settings units
  have hafter : after.1 = _ := run_eq settings units'
  rw [hbefore, hafter]
  refine ⟨hlocks, ?_, ?_, map_outline_deadlocks hcycles, (accepted_perm h).length_eq,
    (refused_perm h).length_eq, (refused_perm h).map _⟩
  · ext e
    rw [LockGraph.edges, LockGraph.edges, Set.mem_ofPred_eq, Set.mem_ofPred_eq, hedge]
  · exact (map_locks_deadlocks _).trans (hcycles.trans (map_locks_deadlocks _).symm)

open Node

/-- Takes one lock inside another. -/
def nested (path outer inner : String) : SourceUnit :=
  .ofStatements path
    [function (ident 0 "f") [] [withOn (ident 1 outer) [withOn (ident 2 inner) [pass 3]]]]

/-- A file whose tree is no module. -/
def torn : SourceUnit := { path := "torn.py", source := "", tree := tree .block 0 [] }

/-- Two files that take two locks in opposite orders. -/
def crossed : List SourceUnit :=
  [nested "a.py" "lock_a" "lock_b", torn, nested "b.py" "lock_b" "lock_a",
    nested "c.py" "lock_a" "lock_b"]

theorem graph_crossed : (run {} crossed).2 = ⟨["lock_a", "lock_b"],
    [⟨"lock_a", "lock_b", "a.py", 3, "f"⟩, ⟨"lock_b", "lock_a", "b.py", 3, "f"⟩]⟩ := by
  decide +kernel

theorem graph_reverse_crossed : (run {} crossed.reverse).2 = ⟨["lock_a", "lock_b"],
    [⟨"lock_a", "lock_b", "c.py", 3, "f"⟩, ⟨"lock_b", "lock_a", "b.py", 3, "f"⟩]⟩ := by
  decide +kernel

theorem cycles_crossed : (run {} crossed).2.cycles = [["lock_a", "lock_b"]] := by
  rw [graph_crossed]
  cbv

/-- The sites change with the order, the deadlock does not. -/
theorem run_perm_crossed : crossed.Perm crossed.reverse ∧
    (run {} crossed).2 ≠ (run {} crossed.reverse).2 ∧
    (run {} crossed.reverse).1.findings.map Deadlock.locks = [["lock_a", "lock_b"]] ∧
    (run {} crossed.reverse).1.analyzed = 3 ∧ (run {} crossed.reverse).1.skipped = 1 := by
  have hperm : crossed.Perm crossed.reverse := (List.reverse_perm _).symm
  obtain ⟨-, -, hlocks, -, hanalyzed, hskipped, -⟩ := run_perm {} hperm
  refine ⟨hperm, ?_, ?_, hanalyzed.symm, hskipped.symm⟩
  · rw [graph_crossed, graph_reverse_crossed]
    decide
  · exact hlocks.symm.trans ((map_locks_deadlocks _).trans cycles_crossed)

end LockOrder

end Interlock
