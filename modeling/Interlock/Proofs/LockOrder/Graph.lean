import Interlock.LockOrder.Graph
import Mathlib.Data.List.Nodup

/-!
# What observations add to a lock-order graph

An observation never takes anything away. A lock adds itself, and a site adds its edge and its two
locks unless it would be a loop (`LockGraph.hasEdge_addAll`, `LockGraph.mem_locks_addAll`). So the
locks of a graph are distinct and every edge joins two of them (`LockGraph.WellFormed`). The number
of edges grows by what is answered (`LockGraph.edgeCount_addAll`).
-/

namespace Interlock

/-- The edge that an observation shows. -/
def Observation.Shows (a b : String) : Observation → Prop
  | .lock _ => False
  | .site s => s.held = a ∧ s.acquired = b

/-- The locks that an observation adds: those of a site only if they differ. -/
def Observation.Names (a : String) : Observation → Prop
  | .lock name => a = name
  | .site s => s.held ≠ s.acquired ∧ (a = s.held ∨ a = s.acquired)

namespace LockGraph

variable {g : LockGraph} {name a b : String} {s : AcquisitionSite}

/-! ## Single additions -/

theorem hasEdge_iff : g.hasEdge a b = true ↔ ∃ s ∈ g.sites, s.held = a ∧ s.acquired = b := by
  simp [hasEdge, site?]

theorem place?_of_mem (h : name ∈ g.locks) : g.place? name = some (g.locks.idxOf name) := by
  obtain ⟨i, hi⟩ := Option.isSome_iff_exists.1 (List.isSome_idxOf?.2 h)
  rw [place?, List.idxOf_eq_getD_idxOf?, hi, Option.getD_some]

theorem place?_of_notMem (h : name ∉ g.locks) : g.place? name = none :=
  List.idxOf?_eq_none_iff.2 h

theorem addLock_eq : g.addLock name =
    if name ∈ g.locks then (g.locks.idxOf name, g)
    else (g.locks.length, { g with locks := g.locks ++ [name] }) := by
  unfold addLock
  by_cases h : name ∈ g.locks
  · rw [if_pos h, place?_of_mem h]
  · rw [if_neg h, place?_of_notMem h]

@[simp] theorem sites_addLock : (g.addLock name).2.sites = g.sites := by
  rw [addLock_eq]
  split <;> rfl

@[simp] theorem hasEdge_addLock : (g.addLock name).2.hasEdge a b = g.hasEdge a b := by
  simp [hasEdge, site?]

theorem mem_locks_addLock : a ∈ (g.addLock name).2.locks ↔ a ∈ g.locks ∨ a = name := by
  rw [addLock_eq]
  split
  · rename_i h
    exact ⟨.inl, fun h' => h'.elim id fun e => e ▸ h⟩
  · simp

theorem nodup_locks_addLock (h : g.locks.Nodup) : (g.addLock name).2.locks.Nodup := by
  rw [addLock_eq]
  split
  · exact h
  · rename_i hn
    have := h.concat hn
    rwa [List.concat_eq_append] at this

/-- The graph after both locks of a site have been added. -/
def withEnds (g : LockGraph) (s : AcquisitionSite) : LockGraph :=
  ((g.addLock s.held).2.addLock s.acquired).2

@[simp] theorem sites_withEnds : (g.withEnds s).sites = g.sites := by
  simp [withEnds]

@[simp] theorem hasEdge_withEnds : (g.withEnds s).hasEdge a b = g.hasEdge a b := by
  simp [withEnds]

theorem mem_locks_withEnds :
    a ∈ (g.withEnds s).locks ↔ a ∈ g.locks ∨ a = s.held ∨ a = s.acquired := by
  rw [withEnds, mem_locks_addLock, mem_locks_addLock, or_assoc]

theorem addSite_of_loop (h : s.held = s.acquired) : g.addSite s = (false, g) := if_pos h

theorem addSite_of_ne (h : s.held ≠ s.acquired) : g.addSite s =
    if g.hasEdge s.held s.acquired then (false, g.withEnds s)
    else (true, { g.withEnds s with sites := g.sites ++ [s] }) := by
  simp [addSite, h, withEnds]

theorem locks_addSite (h : s.held ≠ s.acquired) :
    (g.addSite s).2.locks = (g.withEnds s).locks := by
  rw [addSite_of_ne h]
  split <;> rfl

theorem hasEdge_addSite : (g.addSite s).2.hasEdge a b = true ↔
    g.hasEdge a b = true ∨ a ≠ b ∧ s.held = a ∧ s.acquired = b := by
  by_cases h : s.held = s.acquired
  · rw [addSite_of_loop h]
    refine ⟨.inl, fun h' => h'.elim id fun ⟨hne, ha, hb⟩ => absurd ?_ hne⟩
    rw [← ha, ← hb, h]
  · rw [addSite_of_ne h]
    split
    · rename_i hedge
      simp only [hasEdge_withEnds, iff_self_or]
      rintro ⟨-, rfl, rfl⟩
      exact hedge
    · simp only [hasEdge_iff, List.mem_append, List.mem_singleton]
      constructor
      · rintro ⟨t, ht | rfl, ha, hb⟩
        · exact .inl ⟨t, ht, ha, hb⟩
        · exact .inr ⟨ha ▸ hb ▸ h, ha, hb⟩
      · rintro (⟨t, ht, hab⟩ | ⟨-, hab⟩)
        · exact ⟨t, .inl ht, hab⟩
        · exact ⟨s, .inr rfl, hab⟩

/-! ## Many additions -/

@[simp] theorem add_lock : g.add (.lock name) = (0, (g.addLock name).2) := rfl

@[simp] theorem add_site : g.add (.site s) = ((g.addSite s).1.toNat, (g.addSite s).2) := rfl

theorem addAll_cons (o : Observation) (rest : List Observation) : g.addAll (o :: rest) =
    ((g.add o).1 + ((g.add o).2.addAll rest).1, ((g.add o).2.addAll rest).2) :=
  rfl

theorem hasEdge_add {o : Observation} : (g.add o).2.hasEdge a b = true ↔
    g.hasEdge a b = true ∨ a ≠ b ∧ o.Shows a b := by
  cases o with
  | lock name => simp [Observation.Shows]
  | site s => exact hasEdge_addSite

theorem mem_locks_add {o : Observation} : a ∈ (g.add o).2.locks ↔ a ∈ g.locks ∨ o.Names a := by
  cases o with
  | lock name => exact mem_locks_addLock
  | site s =>
    by_cases h : s.held = s.acquired
    · simp [addSite_of_loop h, Observation.Names, h]
    · simp only [add_site, locks_addSite h, mem_locks_withEnds, Observation.Names, h, ne_eq,
        not_false_eq_true, true_and]

/-- **The edges of a graph are those that some observation shows**, loops left out. -/
theorem hasEdge_addAll {observations : List Observation} :
    (g.addAll observations).2.hasEdge a b = true ↔
      g.hasEdge a b = true ∨ a ≠ b ∧ ∃ o ∈ observations, o.Shows a b := by
  induction observations generalizing g with
  | nil => simp [addAll]
  | cons o rest ih =>
    rw [addAll_cons, ih, hasEdge_add]
    simp only [List.mem_cons, exists_eq_or_imp, and_or_left, or_assoc]

/-- **The locks of a graph are those that some observation adds.** -/
theorem mem_locks_addAll {observations : List Observation} :
    a ∈ (g.addAll observations).2.locks ↔ a ∈ g.locks ∨ ∃ o ∈ observations, o.Names a := by
  induction observations generalizing g with
  | nil => simp [addAll]
  | cons o rest ih =>
    rw [addAll_cons, ih, mem_locks_add]
    simp only [List.mem_cons, exists_eq_or_imp, or_assoc]

theorem addAll_append (os os' : List Observation) : (g.addAll (os ++ os')).2 =
    ((g.addAll os).2.addAll os').2 := by
  induction os generalizing g with
  | nil => rfl
  | cons o rest ih => exact ih

/-! ## What is answered -/

theorem edgeCount_addSite :
    (g.addSite s).2.edgeCount = g.edgeCount + (g.addSite s).1.toNat := by
  by_cases hs : s.held = s.acquired
  · rw [addSite_of_loop hs]
    rfl
  · rw [addSite_of_ne hs]
    split <;> simp [edgeCount]

theorem edgeCount_add (o : Observation) : (g.add o).2.edgeCount = g.edgeCount + (g.add o).1 := by
  cases o with
  | lock name => simp [edgeCount]
  | site s => exact edgeCount_addSite

/-- **Every new edge is counted once.** -/
theorem edgeCount_addAll (observations : List Observation) :
    (g.addAll observations).2.edgeCount = g.edgeCount + (g.addAll observations).1 := by
  induction observations generalizing g with
  | nil => rfl
  | cons o rest ih => rw [addAll_cons, ih, edgeCount_add, Nat.add_assoc]

/-! ## Well-formed graphs -/

/-- The ends of an edge, in order. -/
def pairOf (s : AcquisitionSite) : String × String := (s.held, s.acquired)

/-- The locks are distinct, every edge joins two of them, and no edge is kept twice. -/
structure WellFormed (g : LockGraph) : Prop where
  nodup : g.locks.Nodup
  ends : ∀ a b, g.hasEdge a b = true → a ∈ g.locks ∧ b ∈ g.locks ∧ a ≠ b
  once : (g.sites.map pairOf).Nodup

theorem WellFormed.ends_of_mem (h : g.WellFormed) (hs : s ∈ g.sites) :
    s.held ∈ g.locks ∧ s.acquired ∈ g.locks ∧ s.held ≠ s.acquired :=
  h.ends _ _ (hasEdge_iff.2 ⟨s, hs, rfl, rfl⟩)

theorem wellFormed_empty : WellFormed .empty :=
  ⟨List.nodup_nil, by simp [hasEdge_iff, empty], List.nodup_nil⟩

theorem nodup_map_pairOf_addSite (h : (g.sites.map pairOf).Nodup) :
    ((g.addSite s).2.sites.map pairOf).Nodup := by
  by_cases hs : s.held = s.acquired
  · rwa [addSite_of_loop hs]
  · rw [addSite_of_ne hs]
    split
    · simpa using h
    · rename_i hnew
      simp only [List.map_append, List.map_cons, List.map_nil]
      refine List.nodup_append.2 ⟨h, List.nodup_singleton _, fun e he e' he' heq => hnew ?_⟩
      obtain ⟨t, ht, rfl⟩ := List.mem_map.1 he
      rw [List.mem_singleton.1 he', pairOf, pairOf, Prod.mk.injEq] at heq
      exact hasEdge_iff.2 ⟨t, ht, heq⟩

theorem WellFormed.add (h : g.WellFormed) (o : Observation) : (g.add o).2.WellFormed := by
  constructor
  · cases o with
    | lock name => exact nodup_locks_addLock h.nodup
    | site s =>
      by_cases hs : s.held = s.acquired
      · rw [add_site, addSite_of_loop hs]
        exact h.nodup
      · rw [add_site, locks_addSite hs]
        exact nodup_locks_addLock (nodup_locks_addLock h.nodup)
  · intro a b hedge
    simp only [mem_locks_add]
    rcases hasEdge_add.1 hedge with hedge | ⟨hne, hshows⟩
    · obtain ⟨ha, hb, hne⟩ := h.ends a b hedge
      exact ⟨.inl ha, .inl hb, hne⟩
    · cases o with
      | lock name => exact hshows.elim
      | site s =>
        obtain ⟨rfl, rfl⟩ := hshows
        exact ⟨.inr ⟨hne, .inl rfl⟩, .inr ⟨hne, .inr rfl⟩, hne⟩
  · cases o with
    | lock name => simpa using h.once
    | site s => exact nodup_map_pairOf_addSite h.once

theorem WellFormed.addAll (h : g.WellFormed) (observations : List Observation) :
    (g.addAll observations).2.WellFormed := by
  induction observations generalizing g with
  | nil => exact h
  | cons o rest ih => exact ih (h.add o)

end LockGraph

end Interlock
