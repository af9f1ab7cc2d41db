import Interlock.Proofs.Graph.Circuits
import Interlock.Proofs.Graph.Companions
import Interlock.Proofs.LockOrder.Graph
import Interlock.Proofs.Order
import Interlock.Proofs.Text.Bytes
import Mathlib.Data.Set.Card

/-!
# The cycles of a lock-order graph

`LockGraph.cycles` lists the elementary cycles of the graph, each once, from its least lock on and
shorter ones first; it lists all of them, or a thousand if there are more (`cycles_enumerate`).

The circuits are searched on the ranks of the locks in their order. Of the sites that the graph
keeps, only the edges count there, and not the order in which they were seen
(`LockGraph.adjacency_eq`). Ranks and names are ordered alike (`LockGraph.nameAt_lt_nameAt`), so a
circuit that is written from its least vertex on becomes a cycle that is written from its least lock
on, and every cycle arises in this way (`LockGraph.mem_elementaryCycles_map`,
`LockGraph.exists_circuit_of_mem_elementaryCycles`).
-/

namespace Interlock.LockGraph

open Interlock.Graph

/-- The elementary cycles of a graph, up to where they are entered: two locks or more, none of them
twice, each with an edge to the next. -/
def elementaryCycles (g : LockGraph) : Set (Cycle String) :=
  {c | 2 ≤ c.length ∧ c.Nodup ∧ c.Chain fun a b => g.hasEdge a b = true}

/-- A cycle is written from its least lock on. -/
def StartsLeast (l : List String) : Prop := ∀ a ∈ l.head?, ∀ b ∈ l, Text.bytes a ≤ Text.bytes b

/-- Shorter cycles come first, those of one length by the names of their locks. -/
def Precedes (a b : List String) : Prop :=
  a.length < b.length ∨ a.length = b.length ∧ a.map Text.bytes < b.map Text.bytes

variable {g : LockGraph}

/-! ## Ranks and names -/

/-- The lock of a rank in the order of the locks. -/
def nameAt (g : LockGraph) (i : Nat) : String := g.sortedLocks.getD i ""

/-- The rank of a lock in the order of the locks. -/
def rank (g : LockGraph) (name : String) : Nat := g.sortedLocks.idxOf name

theorem mem_sortedLocks {a : String} : a ∈ g.sortedLocks ↔ a ∈ g.locks :=
  List.mem_mergeSort

theorem pairwise_sortedLocks (h : g.locks.Nodup) : g.sortedLocks.Pairwise (· < ·) := by
  have hnd : g.sortedLocks.Nodup := (List.mergeSort_perm _ _).nodup_iff.2 h
  have hle : g.sortedLocks.Pairwise fun a b => Text.le a b = true := by
    refine List.pairwise_mergeSort (fun a b c hab hbc => ?_) (fun a b => ?_) _
    · simp only [Text.le, decide_eq_true_eq] at hab hbc ⊢
      exact hab.trans hbc
    · simp only [Text.le, Bool.or_eq_true, decide_eq_true_eq]
      exact le_total a b
  refine (hle.and hnd).imp fun hab => ?_
  simp only [Text.le, decide_eq_true_eq] at hab
  exact lt_of_le_of_ne hab.1 hab.2

theorem nameAt_eq_getElem {i : Nat} (h : i < g.sortedLocks.length) :
    g.nameAt i = g.sortedLocks[i] :=
  List.getD_eq_getElem _ _ h

theorem nameAt_lt_nameAt (h : g.locks.Nodup) {i j : Nat} (hij : i < j)
    (hj : j < g.sortedLocks.length) : g.nameAt i < g.nameAt j := by
  rw [nameAt_eq_getElem (hij.trans hj), nameAt_eq_getElem hj]
  exact List.pairwise_iff_getElem.1 (pairwise_sortedLocks h) i j _ hj hij

theorem nameAt_inj (h : g.locks.Nodup) {i j : Nat} (hi : i < g.sortedLocks.length)
    (hj : j < g.sortedLocks.length) (e : g.nameAt i = g.nameAt j) : i = j := by
  rcases lt_trichotomy i j with hij | hij | hij
  · exact absurd e (nameAt_lt_nameAt h hij hj).ne
  · exact hij
  · exact absurd e (nameAt_lt_nameAt h hij hi).ne'

theorem rank_lt {a : String} (ha : a ∈ g.locks) : g.rank a < g.sortedLocks.length :=
  List.idxOf_lt_length_iff.2 (mem_sortedLocks.2 ha)

theorem nameAt_rank {a : String} (ha : a ∈ g.locks) : g.nameAt (g.rank a) = a := by
  rw [nameAt_eq_getElem (rank_lt ha)]
  exact List.getElem_idxOf (rank_lt ha)

theorem rank_inj {a b : String} (ha : a ∈ g.locks) (hb : b ∈ g.locks) (e : g.rank a = g.rank b) :
    a = b := by
  rw [← nameAt_rank ha, e, nameAt_rank hb]

theorem rank_nameAt (h : g.locks.Nodup) {i : Nat} (hi : i < g.sortedLocks.length) :
    g.rank (g.nameAt i) = i := by
  have hmem : g.nameAt i ∈ g.locks :=
    mem_sortedLocks.1 (nameAt_eq_getElem hi ▸ List.getElem_mem hi)
  exact nameAt_inj h (rank_lt hmem) hi (nameAt_rank hmem)

theorem nameAt_le_iff (h : g.locks.Nodup) {i j : Nat} (hi : i < g.sortedLocks.length)
    (hj : j < g.sortedLocks.length) : g.nameAt i ≤ g.nameAt j ↔ i ≤ j := by
  refine ⟨fun hle => not_lt.1 fun hji => ?_, fun hle => ?_⟩
  · exact absurd hle (not_le.2 (nameAt_lt_nameAt h hji hi))
  · rcases hle.lt_or_eq with hij | rfl
    · exact (nameAt_lt_nameAt h hij hj).le
    · exact le_rfl

/-! ## The graph on the ranks -/

/-- Sites are entered behind what is there, each under the rank of the lock that is held. -/
theorem getElem?_foldl_enter (names : List String) (sites : List AcquisitionSite) {adj : Adjacency}
    {i : Nat} {successors : List Nat} (h : adj[i]? = some successors) :
    (sites.foldl (enter names) adj)[i]? = some (successors ++
      (sites.filter fun s => names.idxOf s.held = i).map fun s => names.idxOf s.acquired) := by
  induction sites generalizing adj successors with
  | nil => simpa using h
  | cons s rest ih =>
    have hnext : (enter names adj s)[i]? = some (successors ++
        if names.idxOf s.held = i then [names.idxOf s.acquired] else []) := by
      rw [enter, List.getElem?_modify, h]
      split <;> simp
    rw [List.foldl_cons, ih hnext, List.filter_cons]
    split <;> simp_all

theorem length_foldl_enter (names : List String) (sites : List AcquisitionSite) (adj : Adjacency) :
    (sites.foldl (enter names) adj).length = adj.length := by
  induction sites generalizing adj with
  | nil => rfl
  | cons s rest ih => rw [List.foldl_cons, ih, enter, List.length_modify]

theorem length_adjacency : g.adjacency.length = g.sortedLocks.length := by
  rw [adjacency, List.length_map, length_foldl_enter, List.length_replicate]

theorem next_adjacency {i : Nat} (hi : i < g.sortedLocks.length) : g.adjacency.next i =
    ((g.sites.filter fun s => g.rank s.held = i).map fun s => g.rank s.acquired).mergeSort
      fun j k => decide (j ≤ k) := by
  have hempty : (List.replicate g.sortedLocks.length ([] : List Nat))[i]? = some [] := by
    rw [List.getElem?_replicate, if_pos hi]
  rw [Adjacency.next, List.getD_eq_getElem?_getD, adjacency, List.getElem?_map,
    getElem?_foldl_enter _ _ hempty]
  rfl

theorem next_adjacency_of_le {i : Nat} (hi : g.sortedLocks.length ≤ i) : g.adjacency.next i = [] :=
  List.getD_eq_default _ _ (length_adjacency ▸ hi)

theorem lt_length_of_mem_next {i j : Nat} (h : j ∈ g.adjacency.next i) :
    i < g.sortedLocks.length :=
  length_adjacency ▸ Adjacency.lt_length_of_mem_next h

/-- **The successors of a lock are those that its edges lead to.** -/
theorem mem_next_adjacency (h : g.WellFormed) {i j : Nat} : j ∈ g.adjacency.next i ↔
    i < g.sortedLocks.length ∧ j < g.sortedLocks.length ∧
      g.hasEdge (g.nameAt i) (g.nameAt j) = true := by
  constructor
  · intro hj
    have hi := lt_length_of_mem_next hj
    rw [next_adjacency hi, List.mem_mergeSort, List.mem_map] at hj
    obtain ⟨s, hmem, rfl⟩ := hj
    obtain ⟨hs, hrank⟩ := List.mem_filter.1 hmem
    obtain ⟨hheld, hacquired, -⟩ := h.ends_of_mem hs
    refine ⟨hi, rank_lt hacquired, ?_⟩
    rw [← of_decide_eq_true hrank, nameAt_rank hheld, nameAt_rank hacquired]
    exact hasEdge_iff.2 ⟨s, hs, rfl, rfl⟩
  · rintro ⟨hi, hj, hedge⟩
    obtain ⟨s, hs, hheld, hacquired⟩ := hasEdge_iff.1 hedge
    rw [next_adjacency hi, List.mem_mergeSort]
    refine List.mem_map.2 ⟨s, List.mem_filter.2 ⟨hs, ?_⟩, ?_⟩
    · rw [hheld, rank_nameAt h.nodup hi]
      exact decide_eq_true rfl
    · rw [hacquired, rank_nameAt h.nodup hj]

theorem within_adjacency (h : g.WellFormed) : g.adjacency.Within := fun _ _ hw =>
  length_adjacency ▸ ((mem_next_adjacency h).1 hw).2.1

theorem nodup_next_adjacency (h : g.WellFormed) (i : Nat) : (g.adjacency.next i).Nodup := by
  by_cases hi : i < g.sortedLocks.length
  · rw [next_adjacency hi, (List.mergeSort_perm _ _).nodup_iff]
    refine List.pairwise_map.2 (((List.pairwise_map.1 h.once).filter _).imp_of_mem ?_)
    intro s t hs ht hne hacquired
    obtain ⟨hs, hs'⟩ := List.mem_filter.1 hs
    obtain ⟨ht, ht'⟩ := List.mem_filter.1 ht
    have hheld : g.rank s.held = g.rank t.held :=
      (of_decide_eq_true hs').trans (of_decide_eq_true ht').symm
    -- both ends of the two edges have the same ranks, so they are the same
    have hsends := h.ends_of_mem hs
    have htends := h.ends_of_mem ht
    exact hne (Prod.ext (rank_inj hsends.1 htends.1 hheld)
      (rank_inj hsends.2.1 htends.2.1 hacquired))
  · rw [next_adjacency_of_le (not_lt.1 hi)]
    exact List.nodup_nil

theorem pairwise_next_adjacency (h : g.WellFormed) (i : Nat) :
    (g.adjacency.next i).Pairwise (· < ·) := by
  by_cases hi : i < g.sortedLocks.length
  · have hnodup := nodup_next_adjacency h i
    rw [next_adjacency hi] at hnodup ⊢
    have hle := List.pairwise_mergeSort' (· ≤ ·)
      ((g.sites.filter fun s => g.rank s.held = i).map fun s => g.rank s.acquired)
    exact (hle.and hnodup).imp fun ⟨hjk, hne⟩ => lt_of_le_of_ne hjk hne
  · rw [next_adjacency_of_le (not_lt.1 hi)]
    exact List.Pairwise.nil

theorem not_mem_next_adjacency (h : g.WellFormed) (i : Nat) : i ∉ g.adjacency.next i := fun hi =>
  (h.ends _ _ ((mem_next_adjacency h).1 hi).2.2).2.2 rfl

/-- **Only the locks and the edges count**, not the order in which they were seen. -/
theorem adjacency_eq {g' : LockGraph} (h : g.WellFormed) (h' : g'.WellFormed)
    (hlocks : g.sortedLocks = g'.sortedLocks) (hedge : ∀ a b, g.hasEdge a b = g'.hasEdge a b) :
    g.adjacency = g'.adjacency := by
  have hlength : g.adjacency.length = g'.adjacency.length := by
    rw [length_adjacency, length_adjacency, hlocks]
  have hname (i : Nat) : g.nameAt i = g'.nameAt i := by
    rw [nameAt, nameAt, hlocks]
  have hnext (i : Nat) : g.adjacency.next i = g'.adjacency.next i := by
    refine (pairwise_next_adjacency h i).eq_of_mem_iff (pairwise_next_adjacency h' i) fun j => ?_
    rw [mem_next_adjacency h, mem_next_adjacency h', hlocks, hname, hname, hedge]
  refine List.ext_getElem hlength fun i hi hi' => ?_
  rw [← List.getD_eq_getElem _ [] hi, ← List.getD_eq_getElem _ [] hi']
  exact hnext i

/-- All vertices of a circuit are ranks. -/
theorem lt_length_of_mem_circuit {start : Nat} {c : List Nat}
    (hc : IsCircuit g.adjacency.next start c) {i : Nat} (hi : i ∈ c) :
    i < g.sortedLocks.length := by
  obtain ⟨j, hj⟩ := exists_rel_of_mem_chain hc.chain hi
  exact lt_length_of_mem_next hj

/-! ## Circuits and cycles -/

/-- A circuit gives an elementary cycle. -/
theorem mem_elementaryCycles_map (h : g.WellFormed) {start : Nat} {c : List Nat}
    (hc : IsCircuit g.adjacency.next start c) :
    (c.map g.nameAt : Cycle String) ∈ g.elementaryCycles := by
  have hlt {i : Nat} (hi : i ∈ c) := lt_length_of_mem_circuit hc hi
  have hnd : (c.map g.nameAt).Nodup :=
    hc.nodup.map_on fun i hi j hj e => nameAt_inj h.nodup (hlt hi) (hlt hj) e
  have hedges : ((c ++ [start]).map g.nameAt).IsChain fun a b => g.hasEdge a b = true :=
    (List.isChain_map g.nameAt).2 (hc.chain.imp fun i j hij => ((mem_next_adjacency h).1 hij).2.2)
  have hloop := not_mem_next_adjacency h start
  have hchain := hc.chain
  obtain ⟨rest, rfl⟩ := hc.eq_cons
  refine ⟨?_, Cycle.nodup_coe_iff.2 hnd, ?_⟩
  · -- a circuit of one vertex would be a loop
    cases rest with
    | nil => exact absurd (List.isChain_cons_cons.1 hchain).1 hloop
    | cons i rest => simp
  · rw [List.map_cons, Cycle.chain_coe_cons]
    simpa using hedges

/-- A circuit that is written from its least vertex on gives a cycle written from its least lock
on. -/
theorem startsLeast_map (h : g.WellFormed) {start : Nat} {c : List Nat}
    (hc : IsLeastCircuit g.adjacency start c) : StartsLeast (c.map g.nameAt) := by
  have hlt {i : Nat} (hi : i ∈ c) := lt_length_of_mem_circuit hc.1 hi
  obtain ⟨hc, hle⟩ := hc
  obtain ⟨rest, rfl⟩ := hc.eq_cons
  intro a ha b hb
  obtain ⟨i, hi, rfl⟩ := List.mem_map.1 hb
  obtain rfl : g.nameAt start = a := by simpa using ha
  exact Text.bytes_le_iff.2 ((nameAt_le_iff h.nodup (hlt (by simp)) (hlt hi)).2 (hle i hi))

/-- Every cycle can be written from its least lock on. -/
theorem exists_least_rotation (c : Cycle String) (hc : 2 ≤ c.length) :
    ∃ a m, ((a :: m : List String) : Cycle String) = c ∧ ∀ b ∈ a :: m, a ≤ b := by
  obtain ⟨a, ha, hmin⟩ : ∃ a ∈ c, ∀ b ∈ c, a ≤ b := by
    induction c using Quotient.inductionOn' with
    | h l =>
      have hne : l ≠ [] := by
        rintro rfl
        simp at hc
      exact ⟨l.min hne, List.min_mem hne, fun b hb => List.min_le_of_mem hb⟩
  obtain ⟨m, rfl⟩ := exists_cons_eq_of_mem ha
  exact ⟨a, m, rfl, hmin⟩

/-- Every elementary cycle is given by a circuit that is written from its least vertex on. -/
theorem exists_circuit_of_mem_elementaryCycles (h : g.WellFormed) {c : Cycle String}
    (hc : c ∈ g.elementaryCycles) : ∃ start < g.sortedLocks.length, ∃ c', IsLeastCircuit g.adjacency
      start c' ∧ (c'.map g.nameAt : Cycle String) = c := by
  obtain ⟨a, m, rfl, hmin⟩ := exists_least_rotation c hc.1
  obtain ⟨-, hnd, hchain⟩ := hc
  rw [Cycle.chain_coe_cons] at hchain
  rw [Cycle.nodup_coe_iff] at hnd
  have hmem : ∀ b ∈ a :: m, b ∈ g.locks := fun b hb => by
    obtain ⟨d, hd⟩ := exists_rel_of_mem_chain (l := a :: m) hchain hb
    exact (h.ends b d hd).1
  have hmap : ((a :: m).map g.rank).map g.nameAt = a :: m := by
    rw [List.map_map]
    exact (List.map_congr_left fun b hb => nameAt_rank (hmem b hb)).trans (List.map_id _)
  have ha : a ∈ g.locks := hmem a List.mem_cons_self
  refine ⟨g.rank a, rank_lt ha, (a :: m).map g.rank, ⟨⟨rfl, ?_, ?_⟩, ?_⟩, by rw [hmap]⟩
  · exact List.Nodup.of_map g.nameAt (hmap.symm ▸ hnd)
  · have hends : (a :: m).map g.rank ++ [g.rank a] = (a :: m ++ [a]).map g.rank := by simp
    have hmem' : ∀ b ∈ a :: m ++ [a], b ∈ g.locks := fun b hb =>
      hmem b (by simpa [or_comm] using hb)
    rw [hends, List.isChain_map]
    refine List.IsChain.imp_of_mem_imp (fun b d hb hd hbd => ?_) hchain
    refine (mem_next_adjacency h).2 ⟨rank_lt (hmem' b hb), rank_lt (hmem' d hd), ?_⟩
    rwa [nameAt_rank (hmem' b hb), nameAt_rank (hmem' d hd)]
  · intro i hi
    obtain ⟨b, hb, rfl⟩ := List.mem_map.1 hi
    rw [← nameAt_le_iff h.nodup (rank_lt ha) (rank_lt (hmem b hb)), nameAt_rank ha,
      nameAt_rank (hmem b hb)]
    exact hmin b hb

/-- Two ways to write one cycle from its least lock on are the same. -/
theorem eq_of_startsLeast {l l' : List String} (hrot : l ~r l') (hnd : l.Nodup)
    (hl : StartsLeast l) (hl' : StartsLeast l') : l = l' := by
  obtain ⟨n, hn, rfl⟩ := List.isRotated_iff_mod.1 hrot
  rcases hn.lt_or_eq with hn | rfl
  · have hhead := List.head?_rotate hn
    rw [List.getElem?_eq_getElem hn] at hhead
    have h₀ : l.head? = some l[0] := by
      rw [List.head?_eq_getElem?, List.getElem?_eq_getElem (by omega)]
    -- both first locks are least, so they are one
    have h₁ := Text.bytes_le_iff.1 (hl _ h₀ l[n] (List.getElem_mem hn))
    have h₂ := Text.bytes_le_iff.1 (hl' _ hhead l[0] (by simp))
    have heq : 0 = n := hnd.getElem_inj_iff.1 (h₁.antisymm h₂)
    rw [← heq, List.rotate_zero]
  · exact (List.rotate_length l).symm

/-! ## The order of the list -/

theorem ordersBy_compareNames : OrdersBy compareNames id := by
  have h : OrdersBy compareNames (List.map id) :=
    (ordersBy_compare id).list rfl (fun _ _ => rfl) (fun _ _ => rfl) fun _ _ _ _ => rfl
  rwa [List.map_id_fun] at h

theorem map_bytes_lt_iff {a b : List String} : a.map Text.bytes < b.map Text.bytes ↔ a < b := by
  induction a generalizing b with
  | nil => cases b <;> simp
  | cons x a ih =>
    cases b with
    | nil => simp
    | cons y b =>
      rw [List.map_cons, List.map_cons, List.cons_lt_cons_iff, List.cons_lt_cons_iff, ih,
        Text.lt_iff_bytes_lt, Text.bytes_inj]

/-- What cycles are sorted by. -/
def sortKey (l : List String) : Nat ×ₗ List String := toLex (l.length, l)

theorem precedes_iff {a b : List String} : Precedes a b ↔ sortKey a < sortKey b := by
  rw [Precedes, map_bytes_lt_iff, sortKey, sortKey, Prod.Lex.toLex_lt_toLex]

theorem ordersBy_sortKey : OrdersBy compareCycles sortKey :=
  (ordersBy_compare List.length).andThen ordersBy_compareNames

/-! ## The list of cycles -/

theorem cycles_perm :
    g.cycles.Perm ((circuits g.adjacency maxCycles).map fun c => c.map g.nameAt) :=
  List.mergeSort_perm _ _

theorem found_cycles (h : g.WellFormed) :
    Found g.adjacency maxCycles g.adjacency.length (circuits g.adjacency maxCycles) :=
  circuits_found (within_adjacency h) (nodup_next_adjacency h) (not_mem_next_adjacency h) maxCycles

theorem nodup_cycles (h : g.WellFormed) : g.cycles.Nodup := by
  have hback : ∀ c ∈ circuits g.adjacency maxCycles,
      (c.map g.nameAt).map g.rank = c := fun c hc => by
    obtain ⟨start, -, hcirc, -⟩ := (found_cycles h).sound c hc
    rw [List.map_map]
    exact (List.map_congr_left fun i hi => rank_nameAt h.nodup
      (lt_length_of_mem_circuit hcirc hi)).trans (List.map_id _)
  refine cycles_perm.nodup_iff.2 ((found_cycles h).nodup.map_on fun c hc c' hc' e => ?_)
  rw [← hback c hc, ← hback c' hc', e]

theorem mem_cycles (h : g.WellFormed) {l : List String} (hl : l ∈ g.cycles) :
    (l : Cycle String) ∈ g.elementaryCycles ∧ StartsLeast l := by
  obtain ⟨c, hc, rfl⟩ := List.mem_map.1 (cycles_perm.mem_iff.1 hl)
  obtain ⟨start, -, hcirc⟩ := (found_cycles h).sound c hc
  exact ⟨mem_elementaryCycles_map h hcirc.1, startsLeast_map h hcirc⟩

theorem pairwise_cycles (h : g.WellFormed) : g.cycles.Pairwise Precedes := by
  have hle : g.cycles.Pairwise fun a b => sortKey a ≤ sortKey b :=
    ordersBy_sortKey.pairwise_mergeSort _
  refine (hle.and (nodup_cycles h)).imp fun ⟨hab, hne⟩ => ?_
  refine precedes_iff.2 (lt_of_le_of_ne hab fun e => hne ?_)
  exact congrArg (fun k => (ofLex k).2) e

/-- Below the limit every cycle is listed. -/
theorem exists_mem_cycles_of_length_lt (h : g.WellFormed) (hlt : g.cycles.length < maxCycles)
    {c : Cycle String} (hc : c ∈ g.elementaryCycles) : ∃ l ∈ g.cycles, (l : Cycle String) = c := by
  obtain ⟨start, hstart, c', hc', rfl⟩ := exists_circuit_of_mem_elementaryCycles h hc
  have hlen : (circuits g.adjacency maxCycles).length < maxCycles := by
    have := cycles_perm (g := g).length_eq
    rw [List.length_map] at this
    omega
  have hmem := (found_cycles h).complete hlen start (length_adjacency ▸ hstart) c' hc'
  exact ⟨_, cycles_perm.mem_iff.2 (List.mem_map.2 ⟨c', hmem, rfl⟩), rfl⟩

/-- As many cycles as there are in the list are elementary cycles of the graph. -/
theorem encard_image_cycles (h : g.WellFormed) :
    ((fun l : List String => (l : Cycle String)) '' {l | l ∈ g.cycles}).encard =
      g.cycles.length := by
  have hinj : Set.InjOn (fun l : List String => (l : Cycle String)) {l | l ∈ g.cycles} := by
    intro l hl l' hl' e
    obtain ⟨hmem, hleast⟩ := mem_cycles h hl
    exact eq_of_startsLeast (Cycle.coe_eq_coe.1 e) (Cycle.nodup_coe_iff.1 hmem.2.1) hleast
      (mem_cycles h hl').2
  rw [hinj.encard_image, ← List.coe_toFinset, Set.encard_coe_eq_coe_finsetCard,
    List.toFinset_card_of_nodup (nodup_cycles h)]

/-- **The listed cycles are the elementary cycles of the graph**, or a thousand of them if there are
more: each once, from its least lock on, and in increasing order. -/
theorem cycles_enumerate (observations : List Observation) :
    let g := (empty.addAll observations).2
    g.cycles.Nodup ∧
      (∀ l ∈ g.cycles, (l : Cycle String) ∈ g.elementaryCycles ∧ StartsLeast l) ∧
      g.cycles.Pairwise Precedes ∧
      (g.elementaryCycles.encard ≤ 1000 →
        ∀ c ∈ g.elementaryCycles, ∃ l ∈ g.cycles, (l : Cycle String) = c) ∧
      (1000 < g.elementaryCycles.encard → g.cycles.length = 1000) := by
  intro g
  have h : g.WellFormed := wellFormed_empty.addAll observations
  have hsub : (fun l : List String => (l : Cycle String)) '' {l | l ∈ g.cycles} ⊆
      g.elementaryCycles := by
    rintro - ⟨l, hl, rfl⟩
    exact (mem_cycles h hl).1
  have hle : g.cycles.length ≤ 1000 := by
    rw [cycles_perm.length_eq, List.length_map]
    exact (found_cycles h).length_le
  refine ⟨nodup_cycles h, fun l hl => mem_cycles h hl, pairwise_cycles h, fun hfew c hc => ?_,
    fun hmany => ?_⟩
  · rcases hle.lt_or_eq with hlt | heq
    · exact exists_mem_cycles_of_length_lt h hlt hc
    · -- a thousand cycles are listed, and there are no more
      have hfin := (Set.encard_le_coe_iff.1 hfew).1
      have hall := (hfin.subset hsub).eq_of_subset_of_encard_le hsub (by
        rw [encard_image_cycles h, heq]
        exact hfew)
      rw [← hall] at hc
      exact hc
  · refine hle.antisymm (not_lt.1 fun hlt => ?_)
    have hall : g.elementaryCycles ⊆
        (fun l : List String => (l : Cycle String)) '' {l | l ∈ g.cycles} := fun c hc =>
      exists_mem_cycles_of_length_lt h hlt hc
    have hcard := (Set.encard_le_encard hall).trans (encard_image_cycles h).le
    exact absurd (hmany.trans_le hcard) (by simpa using hle)

end Interlock.LockGraph
