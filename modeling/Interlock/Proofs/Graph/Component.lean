import Interlock.Graph.Circuit
import Interlock.Proofs.Graph.Reach
import Mathlib.Data.List.Chain
import Mathlib.Data.List.GetD

/-!
# The component of a start

`Adjacency.component?` keeps the vertices that a start reaches and is reached from without going
below it (`mem_component?`), each once (`nodup_component?`), and there is no component just if the
start is alone among them (`component?_eq_none_iff`). The circuits whose least vertex is the start
are the circuits through it within the component (`isCircuit_component_iff`).
-/

namespace Interlock.Graph

/-- An elementary circuit, written from `start` on: no vertex twice, each leads to the next, and
the last leads back to the start. -/
structure IsCircuit (next : Nat → List Nat) (start : Nat) (c : List Nat) : Prop where
  head : c.head? = some start
  nodup : c.Nodup
  chain : (c ++ [start]).IsChain (Edge next)

theorem IsCircuit.eq_cons {next : Nat → List Nat} {start : Nat} {c : List Nat}
    (h : IsCircuit next start c) : ∃ rest, c = start :: rest := by
  obtain ⟨head, -, -⟩ := h
  cases c with
  | nil => simp at head
  | cons v rest => exact ⟨rest, by simpa using head⟩

/-- In a chain every element but the last is related to another. -/
theorem exists_rel_of_mem_chain {α : Type*} {R : α → α → Prop} {l : List α} {a b : α}
    (h : (l ++ [b]).IsChain R) (ha : a ∈ l) : ∃ x, R a x := by
  obtain ⟨l₁, l₂, rfl⟩ := List.append_of_mem ha
  rw [List.append_assoc] at h
  have h' := h.right_of_append
  cases l₂ with
  | nil => exact ⟨b, (List.isChain_cons_cons.1 h').1⟩
  | cons x l₂ => exact ⟨x, (List.isChain_cons_cons.1 h').1⟩

namespace Adjacency

variable {adj : Adjacency} {start v w : Nat}

/-- The successors of every vertex are vertices. -/
def Within (adj : Adjacency) : Prop := ∀ v, ∀ w ∈ adj.next v, w < adj.length

/-- A step between two vertices that are not below `start`. -/
abbrev EdgeFrom (adj : Adjacency) (start : Nat) : Nat → Nat → Prop := Edge (adj.nextFrom start)

/-- `v` is reached from `start` and reaches it by steps between vertices that are not below it. -/
structure Linked (adj : Adjacency) (start v : Nat) : Prop where
  forth : Relation.ReflTransGen (adj.EdgeFrom start) start v
  back : Relation.ReflTransGen (adj.EdgeFrom start) v start

/-- The vertices that the searches from `start` in both directions find. -/
def common (adj : Adjacency) (start : Nat) : List Nat :=
  (reachable (adj.nextFrom start) adj.length start).filter
    (reachable (adj.previousFrom start) adj.length start).contains

theorem lt_length_of_mem_next (h : w ∈ adj.next v) : v < adj.length := by
  by_contra hv
  rw [next, List.getD_eq_default _ _ (not_lt.1 hv)] at h
  exact absurd h List.not_mem_nil

theorem within_iff : adj.Within ↔ ∀ successors ∈ adj, ∀ w ∈ successors, w < adj.length := by
  constructor
  · intro h successors hmem w hw
    obtain ⟨v, hv, rfl⟩ := List.mem_iff_getElem.1 hmem
    exact h v w (by rwa [next, List.getD_eq_getElem _ _ hv])
  · intro h v w hw
    have hv := lt_length_of_mem_next hw
    rw [next, List.getD_eq_getElem _ _ hv] at hw
    exact h _ (List.getElem_mem hv) w hw

theorem length_filter_next_le (hadj : adj.Within) (hnd : ∀ v, (adj.next v).Nodup)
    (component : List Nat) (v : Nat) :
    ((adj.next v).filter component.contains).length ≤ adj.length := by
  have hsub : (adj.next v).filter component.contains ⊆ List.range adj.length := fun w hw =>
    List.mem_range.2 (hadj v w (List.mem_of_mem_filter hw))
  simpa using (List.subperm_of_subset ((hnd v).filter _) hsub).length_le

theorem mem_nextFrom : w ∈ adj.nextFrom start v ↔ start ≤ v ∧ w ∈ adj.next v ∧ start ≤ w := by
  unfold nextFrom
  split <;> simp [*]

theorem mem_previousFrom : v ∈ adj.previousFrom start w ↔ w ∈ adj.nextFrom start v := by
  simp only [previousFrom, List.mem_filter, List.mem_range, List.contains_iff_mem,
    and_iff_right_iff_imp]
  exact fun h => lt_length_of_mem_next (mem_nextFrom.1 h).2.1

theorem linked_start : adj.Linked start start := ⟨.refl, .refl⟩

theorem Linked.le (h : adj.Linked start v) : start ≤ v := by
  cases h.forth with
  | refl => exact le_refl _
  | tail _ h => exact (mem_nextFrom.1 h).2.2

theorem mem_forward_iff (hadj : adj.Within) (hs : start < adj.length) :
    v ∈ reachable (adj.nextFrom start) adj.length start ↔
      Relation.ReflTransGen (adj.EdgeFrom start) start v := by
  refine mem_reachable_iff (List.range adj.length) ?_ (List.mem_range.2 hs) (by simp)
  exact fun u _ w hw => List.mem_range.2 (hadj u w (mem_nextFrom.1 hw).2.1)

theorem mem_backward_iff (hs : start < adj.length) :
    v ∈ reachable (adj.previousFrom start) adj.length start ↔
      Relation.ReflTransGen (adj.EdgeFrom start) v start := by
  have hswap : Edge (adj.previousFrom start) = Function.swap (adj.EdgeFrom start) := by
    funext a b
    exact propext mem_previousFrom
  rw [mem_reachable_iff (List.range adj.length) ?_ (List.mem_range.2 hs) (by simp), hswap,
    Relation.reflTransGen_swap]
  exact fun u _ w hw => List.mem_range.2 (lt_length_of_mem_next (mem_nextFrom.1
    (mem_previousFrom.1 hw)).2.1)

theorem mem_common (hadj : adj.Within) (hs : start < adj.length) :
    v ∈ adj.common start ↔ adj.Linked start v := by
  rw [common, List.mem_filter, List.contains_iff_mem, mem_forward_iff hadj hs, mem_backward_iff hs]
  exact ⟨fun h => ⟨h.1, h.2⟩, fun h => ⟨h.forth, h.back⟩⟩

theorem nodup_common : (adj.common start).Nodup :=
  (nodup_reach _ (List.nodup_singleton start)).filter _

theorem component?_eq_some_iff {component : List Nat} : adj.component? start = some component ↔
    1 < (adj.common start).length ∧ adj.common start = component := by
  simp only [component?, common, Option.ite_none_right_eq_some, Option.some.injEq, gt_iff_lt]

theorem nodup_component? {component : List Nat} (h : adj.component? start = some component) :
    component.Nodup := by
  obtain ⟨-, rfl⟩ := component?_eq_some_iff.1 h
  exact nodup_common

theorem mem_component? (hadj : adj.Within) (hs : start < adj.length) {component : List Nat}
    (h : adj.component? start = some component) : v ∈ component ↔ adj.Linked start v := by
  obtain ⟨-, rfl⟩ := component?_eq_some_iff.1 h
  exact mem_common hadj hs

/-- There is no component just if the start is alone. -/
theorem component?_eq_none_iff (hadj : adj.Within) (hs : start < adj.length) :
    adj.component? start = none ↔ ∀ v, adj.Linked start v → v = start := by
  have hlen : adj.component? start = none ↔ (adj.common start).length ≤ 1 := by
    simp only [component?, common, ite_eq_right_iff, reduceCtorEq, imp_false, not_lt, gt_iff_lt]
  have hstart : start ∈ adj.common start := (mem_common hadj hs).2 linked_start
  rw [hlen]
  constructor
  · intro h v hv
    obtain ⟨u, hu⟩ := List.length_eq_one_iff.1 (h.antisymm (List.length_pos_of_mem hstart))
    have hv' := (mem_common hadj hs).2 hv
    rw [hu, List.mem_singleton] at hv' hstart
    rw [hv', hstart]
  · intro hall
    have hsub : adj.common start ⊆ [start] := fun v hv =>
      List.mem_singleton.2 (hall v ((mem_common hadj hs).1 hv))
    exact (List.subperm_of_subset nodup_common hsub).length_le

/-! ## Circuits and components -/

/-- A walk that sets out from a vertex not below `start` is made of steps between such vertices just
if none of its vertices is below `start`. -/
theorem isChain_edgeFrom_iff {l : List Nat} (hl : ∀ v ∈ l.head?, start ≤ v) :
    l.IsChain (adj.EdgeFrom start) ↔ l.IsChain (Edge adj.next) ∧ ∀ v ∈ l, start ≤ v := by
  constructor
  · intro h
    refine ⟨h.imp fun v w hw => (mem_nextFrom.1 hw).2.1, ?_⟩
    exact h.induction (start ≤ ·) l (fun v w hw _ => (mem_nextFrom.1 hw).2.2)
      fun hne => hl _ (List.head_mem_head? hne)
  · rintro ⟨h, hle⟩
    exact h.imp_of_mem_imp fun v w hv hw hvw => mem_nextFrom.2 ⟨hle v hv, hvw, hle w hw⟩

section Closed

variable {rest : List Nat} (hc : (start :: rest ++ [start]).IsChain (Edge adj.next))
  (hle : ∀ v ∈ start :: rest, start ≤ v)

include hc hle

/-- The vertices of a closed walk that stays not below its start reach the start and are reached
from it. -/
theorem linked_of_mem_closed (hv : v ∈ start :: rest) : adj.Linked start v := by
  have hle' : ∀ v ∈ start :: rest ++ [start], start ≤ v := fun v hv =>
    (List.mem_append.1 hv).elim (hle v) fun h => (List.mem_singleton.1 h).ge
  have hchain := (isChain_edgeFrom_iff (by simp)).2 ⟨hc, hle'⟩
  refine ⟨?_, ?_⟩
  · exact hchain.induction (Relation.ReflTransGen (adj.EdgeFrom start) start) _
      (fun _ _ h h' => h'.tail h) (fun _ => .refl) v (List.mem_append_left _ hv)
  · exact hchain.backwards_concat_induction (Relation.ReflTransGen (adj.EdgeFrom start) · start) _
      (fun _ _ h h' => h'.head h) .refl v hv

/-- Without loops such a walk leaves its start. -/
theorem exists_linked_of_closed (hloop : ∀ v, v ∉ adj.next v) :
    ∃ v ≠ start, adj.Linked start v := by
  cases rest with
  | nil => exact absurd (List.isChain_cons_cons.1 hc).1 (hloop start)
  | cons v rest =>
    refine ⟨v, ?_, linked_of_mem_closed hc hle (by simp)⟩
    rintro rfl
    exact hloop v (List.isChain_cons_cons.1 hc).1

end Closed

/-- The circuits within the component are the circuits on which no vertex is below the start. -/
theorem isCircuit_component_iff (hadj : adj.Within) (hs : start < adj.length)
    {component : List Nat} (h : adj.component? start = some component) {c : List Nat} :
    IsCircuit (fun v => (adj.next v).filter component.contains) start c ↔
      IsCircuit adj.next start c ∧ ∀ v ∈ c, start ≤ v := by
  constructor
  · intro hc
    refine ⟨⟨hc.head, hc.nodup, hc.chain.imp fun v w hw => (List.mem_filter.1 hw).1⟩, ?_⟩
    -- each vertex but the first is the end of a step into the component
    obtain ⟨rest, rfl⟩ := hc.eq_cons
    have hmem := hc.chain.induction (start ≤ ·) _ (fun v w hw _ => ?_) (fun _ => le_refl _)
    · exact fun v hv => hmem v (List.mem_append_left _ hv)
    · have hw' := (mem_component? hadj hs h).1 (List.contains_iff_mem.1 (List.mem_filter.1 hw).2)
      exact hw'.le
  · rintro ⟨hc, hle⟩
    have hmem : ∀ v ∈ c ++ [start], v ∈ component := by
      intro v hv
      obtain ⟨rest, rfl⟩ := hc.eq_cons
      rcases List.mem_append.1 hv with hv | hv
      · exact (mem_component? hadj hs h).2 (linked_of_mem_closed hc.chain hle hv)
      · rw [List.mem_singleton.1 hv]
        exact (mem_component? hadj hs h).2 linked_start
    exact ⟨hc.head, hc.nodup, hc.chain.imp_of_mem_imp fun v w _ hw hvw =>
      List.mem_filter.2 ⟨hvw, List.contains_iff_mem.2 (hmem w hw)⟩⟩

/-- Without a component there is no circuit whose least vertex is the start. -/
theorem not_isCircuit_of_component?_eq_none (hadj : adj.Within) (hloop : ∀ v, v ∉ adj.next v)
    (hs : start < adj.length) (h : adj.component? start = none) {c : List Nat}
    (hc : IsCircuit adj.next start c) (hle : ∀ v ∈ c, start ≤ v) : False := by
  obtain ⟨rest, rfl⟩ := hc.eq_cons
  obtain ⟨v, hne, hv⟩ := exists_linked_of_closed hc.chain hle hloop
  exact hne ((component?_eq_none_iff hadj hs).1 h v hv)

end Adjacency

end Interlock.Graph
