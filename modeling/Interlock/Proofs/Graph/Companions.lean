import Interlock.Proofs.Graph.Component
import Mathlib.Data.List.Cycle
import Mathlib.Order.Bounds.Basic

/-!
# The component of a start and the cycles it begins

`Adjacency.component?` lists the companions of a start: the vertices that it reaches and is reached
from by walks on which no vertex is below it (`Adjacency.companions`). There is a component just if
the start has a companion besides itself, and this is so just if some cycle has the start as its
least vertex (`Adjacency.component_eq_companions`).

A walk on which no vertex is below the start is a path of `Adjacency.EdgeFrom`
(`Adjacency.reachesFrom_iff`), so the companions are the vertices that the searches find. A path can
be freed of its detours (`exists_simple_path`), so a second companion gives an elementary circuit
through the start (`Adjacency.Linked.exists_isCircuit`). The other way round, a cycle through the
start can be entered there (`exists_cons_eq_of_mem`), and its next vertex is a second companion.
-/

namespace Interlock.Graph

/-- A walk from `v` to `w`: each vertex leads to the next. -/
structure IsWalk (next : Nat → List Nat) (v w : Nat) (walk : List Nat) : Prop where
  head : walk.head? = some v
  last : walk.getLast? = some w
  chain : walk.IsChain (Edge next)

/-- A path can be freed of its detours. -/
theorem exists_simple_path {α : Type*} {r : α → α → Prop} {a b : α}
    (h : Relation.ReflTransGen r a b) :
    ∃ l, (l ++ [b]).head? = some a ∧ (l ++ [b]).Nodup ∧ (l ++ [b]).IsChain r := by
  induction h using Relation.ReflTransGen.head_induction_on with
  | refl => exact ⟨[], rfl, List.nodup_singleton b, List.isChain_singleton b⟩
  | @head a c hac _ ih =>
    obtain ⟨l, hhead, hnd, hchain⟩ := ih
    by_cases hb : a = b
    · subst hb
      exact ⟨[], rfl, List.nodup_singleton a, List.isChain_singleton a⟩
    by_cases hl : a ∈ l
    · -- the path comes back to where it set out from
      obtain ⟨l₁, l₂, rfl⟩ := List.append_of_mem hl
      rw [List.append_assoc] at hnd hchain
      exact ⟨a :: l₂, rfl, hnd.of_append_right, hchain.right_of_append⟩
    · refine ⟨a :: l, rfl, List.nodup_cons.2 ⟨?_, hnd⟩, hchain.cons fun y hy => ?_⟩
      · simp [hl, hb]
      · obtain rfl : c = y := by simpa [hhead] using hy
        exact hac

/-- A cycle can be entered at each of its elements. -/
theorem exists_cons_eq_of_mem {α : Type*} {c : Cycle α} {a : α} (ha : a ∈ c) :
    ∃ l, ((a :: l : List α) : Cycle α) = c := by
  induction c using Quotient.inductionOn' with
  | h l =>
    obtain ⟨l₁, l₂, rfl⟩ := List.append_of_mem ha
    exact ⟨l₂ ++ l₁, Cycle.coe_eq_coe.2 (List.isRotated_append (l := a :: l₂))⟩

namespace Adjacency

variable {adj : Adjacency} {start v w : Nat}

/-- There is a walk from `v` to `w` on which no vertex is below `start`. -/
def ReachesFrom (adj : Adjacency) (start v w : Nat) : Prop :=
  ∃ walk, IsWalk adj.next v w walk ∧ ∀ u ∈ walk, start ≤ u

/-- The vertices not below `start` that reach it and are reached from it by walks on which no vertex
is below `start`. -/
def companions (adj : Adjacency) (start : Nat) : Set Nat :=
  {v ∈ Set.Ico start adj.length | adj.ReachesFrom start v start ∧ adj.ReachesFrom start start v}

/-- The cycles whose least vertex is `start`, up to where they are entered. They may come to a
vertex more than once. -/
def leastCycles (adj : Adjacency) (start : Nat) : Set (Cycle Nat) :=
  {c | c.Chain (Edge adj.next) ∧ IsLeast {v | v ∈ c} start}

/-! ## Walks -/

theorem reachesFrom_iff :
    adj.ReachesFrom start v w ↔ start ≤ v ∧ Relation.ReflTransGen (adj.EdgeFrom start) v w := by
  constructor
  · rintro ⟨walk, ⟨hhead, hlast, hchain⟩, hle⟩
    cases walk with
    | nil => simp at hhead
    | cons u rest =>
      obtain rfl : u = v := by simpa using hhead
      have hu : start ≤ u := hle u List.mem_cons_self
      have hchain' := (isChain_edgeFrom_iff (by simpa using hu)).2 ⟨hchain, hle⟩
      rw [List.getLast?_eq_some_getLast (List.cons_ne_nil u rest), Option.some.injEq] at hlast
      exact ⟨hu, List.relationReflTransGen_of_exists_isChain_cons rest hchain' hlast⟩
  · rintro ⟨hv, h⟩
    obtain ⟨l, hchain, hlast⟩ := List.exists_isChain_cons_of_relationReflTransGen h
    obtain ⟨hchain', hle⟩ := (isChain_edgeFrom_iff (by simpa using hv)).1 hchain
    exact ⟨v :: l, ⟨rfl, by rw [List.getLast?_eq_some_getLast (List.cons_ne_nil v l), hlast],
      hchain'⟩, hle⟩

theorem mem_companions (hs : start < adj.length) :
    v ∈ adj.companions start ↔ adj.Linked start v := by
  constructor
  · rintro ⟨-, hback, hforth⟩
    exact ⟨(reachesFrom_iff.1 hforth).2, (reachesFrom_iff.1 hback).2⟩
  · intro h
    have hforth : adj.ReachesFrom start start v := reachesFrom_iff.2 ⟨le_refl start, h.forth⟩
    refine ⟨⟨h.le, ?_⟩, reachesFrom_iff.2 ⟨h.le, h.back⟩, hforth⟩
    -- a vertex with a way back has a successor, unless it is the start
    cases h.back using Relation.ReflTransGen.head_induction_on with
    | refl => exact hs
    | head hvu _ => exact lt_length_of_mem_next (mem_nextFrom.1 hvu).2.1

theorem component?_eq_none_iff_companions (hadj : adj.Within) (hs : start < adj.length) :
    adj.component? start = none ↔ ¬ (adj.companions start).Nontrivial := by
  rw [component?_eq_none_iff hadj hs,
    Set.nontrivial_iff_exists_ne ((mem_companions hs).2 linked_start)]
  simp only [mem_companions hs, not_exists, not_and, not_not]

theorem setOf_mem_component? (hadj : adj.Within) (hs : start < adj.length) {component : List Nat}
    (h : adj.component? start = some component) : {v | v ∈ component} = adj.companions start := by
  ext v
  rw [mem_companions hs]
  exact mem_component? hadj hs h

/-! ## Cycles -/

/-- A second companion gives an elementary circuit through the start. -/
theorem Linked.exists_isCircuit (h : adj.Linked start v) (hne : v ≠ start) :
    ∃ c, IsCircuit adj.next start c ∧ ∀ u ∈ c, start ≤ u := by
  obtain heq | ⟨w, hstep, hw⟩ := h.forth.cases_head
  · exact absurd heq.symm hne
  obtain ⟨l, hhead, hnd, hchain⟩ := exists_simple_path (hw.trans h.back)
  have hclosed : (start :: l ++ [start]).IsChain (adj.EdgeFrom start) := by
    refine List.IsChain.cons hchain fun u hu => ?_
    obtain rfl : w = u := by simpa [hhead] using hu
    exact hstep
  obtain ⟨hchain', hle⟩ := (isChain_edgeFrom_iff (by simp)).1 hclosed
  refine ⟨start :: l, ⟨rfl, ?_, hchain'⟩, fun u hu => hle u (List.mem_append_left _ hu)⟩
  exact (List.perm_append_singleton start l).nodup_iff.1 hnd

theorem coe_mem_leastCycles {c : List Nat} (hc : IsCircuit adj.next start c)
    (hle : ∀ v ∈ c, start ≤ v) : (c : Cycle Nat) ∈ adj.leastCycles start := by
  obtain ⟨rest, rfl⟩ := hc.eq_cons
  refine ⟨(Cycle.chain_coe_cons _ _ _).2 hc.chain, ?_, fun v hv => hle v hv⟩
  exact List.mem_cons_self

theorem nontrivial_companions_of_mem_leastCycles (hloop : ∀ v, v ∉ adj.next v)
    (hs : start < adj.length) {c : Cycle Nat} (hc : c ∈ adj.leastCycles start) :
    (adj.companions start).Nontrivial := by
  obtain ⟨hchain, hmem, hle⟩ := hc
  obtain ⟨rest, rfl⟩ := exists_cons_eq_of_mem hmem
  obtain ⟨v, hne, hv⟩ :=
    exists_linked_of_closed ((Cycle.chain_coe_cons _ _ _).1 hchain) (fun u hu => hle hu) hloop
  exact ⟨v, (mem_companions hs).2 hv, start, (mem_companions hs).2 linked_start, hne⟩

theorem exists_mem_leastCycles (hs : start < adj.length) (h : (adj.companions start).Nontrivial) :
    ∃ c ∈ adj.leastCycles start, c.Nodup := by
  obtain ⟨v, hv, hne⟩ := h.exists_ne start
  obtain ⟨c, hc, hle⟩ := ((mem_companions hs).1 hv).exists_isCircuit hne
  exact ⟨c, coe_mem_leastCycles hc hle, Cycle.nodup_coe_iff.2 hc.nodup⟩

/-- **The component of a start in a graph without loops.**

* If the start is not alone among the vertices that reach it and are reached from it without going
  below it, the component lists these vertices, each once.
* If it is alone, there is no component.
* There is no component just if no cycle has the start as its least vertex, and where there is such
  a cycle there is one that comes to no vertex twice. -/
theorem component_eq_companions (hadj : adj.Within) (hloop : ∀ v, v ∉ adj.next v)
    (hs : start < adj.length) :
    ((adj.companions start).Nontrivial → ∃ component, adj.component? start = some component ∧
      component.Nodup ∧ {v | v ∈ component} = adj.companions start) ∧
    (¬ (adj.companions start).Nontrivial → adj.component? start = none) ∧
    (adj.component? start = none ↔ adj.leastCycles start = ∅) ∧
    ((adj.leastCycles start).Nonempty → ∃ c ∈ adj.leastCycles start, c.Nodup) := by
  have hnone := component?_eq_none_iff_companions hadj hs
  have hcycle {c : Cycle Nat} (hc : c ∈ adj.leastCycles start) :=
    nontrivial_companions_of_mem_leastCycles hloop hs hc
  refine ⟨fun h => ?_, hnone.2, ?_, fun ⟨c, hc⟩ => exists_mem_leastCycles hs (hcycle hc)⟩
  · obtain ⟨component, hcomp⟩ := Option.ne_none_iff_exists'.1 fun h' => hnone.1 h' h
    exact ⟨component, hcomp, nodup_component? hcomp, setOf_mem_component? hadj hs hcomp⟩
  · rw [hnone, Set.eq_empty_iff_forall_notMem]
    constructor
    · exact fun h c hc => h (hcycle hc)
    · intro h hmany
      obtain ⟨c, hc, -⟩ := exists_mem_leastCycles hs hmany
      exact h c hc

/-- In this graph vertex 2 leads back to vertex 1 by way of vertex 0 only. So it is not in the
component of 1, and although it lies on a cycle it is the least vertex of none. -/
theorem component_eq_companions_detour :
    let adj : Adjacency := [[1], [2, 3], [0], [1]]
    adj.Within ∧ (∀ v, v ∉ adj.next v) ∧
    adj.component? 1 = some [1, 3] ∧ adj.companions 1 = {1, 3} ∧
    (∃ c ∈ adj.leastCycles 1, c.Nodup) ∧
    adj.component? 2 = none ∧ adj.leastCycles 2 = ∅ := by
  intro adj
  have hadj : adj.Within := by
    rw [within_iff]
    decide
  have hloop : ∀ v, v ∉ adj.next v := fun v hv =>
    (by decide : ∀ v < adj.length, v ∉ adj.next v) v (lt_length_of_mem_next hv) hv
  have hone : adj.component? 1 = some [1, 3] := by decide
  have htwo : adj.component? 2 = none := by decide
  have h₁ : 1 < adj.length := by decide
  have h₂ : 2 < adj.length := by decide
  obtain ⟨hsome, hnone, hempty, hsimple⟩ := component_eq_companions hadj hloop h₁
  refine ⟨hadj, hloop, hone, ?_, hsimple ?_, htwo, ?_⟩
  · have hmany : (adj.companions 1).Nontrivial := by
      by_contra h
      simp [hnone h] at hone
    obtain ⟨component, hcomp, -, hmem⟩ := hsome hmany
    obtain rfl : component = [1, 3] := by simpa [hcomp] using hone
    rw [← hmem]
    ext v
    simp
  · rw [Set.nonempty_iff_ne_empty]
    intro h
    simp [hempty.2 h] at hone
  · exact (component_eq_companions hadj hloop h₂).2.2.1.1 htwo

end Adjacency

end Interlock.Graph
