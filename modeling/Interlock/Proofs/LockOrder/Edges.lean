import Interlock.LockOrder.Analysis
import Interlock.Proofs.Finding.Across
import Interlock.Proofs.Flow.Taken
import Interlock.Proofs.LockOrder.Graph
import Mathlib.Data.Set.Card

/-!
# Which edges and locks the lock-order graph has

The graph of an analysis has an edge exactly where the walk of an accepted unit takes a lock while
another is held (`LockOrder.Nests`), or calls, with a lock held, an own method that takes the other
(`LockOrder.CallsInto`); its locks are the locks taken (`LockOrder.Takes`), and a scan returns the
number of new edges. This is `LockOrder.run_graph`.
-/

namespace Interlock

open Syntax Lock Lock.HeldLocks

namespace LockGraph

variable {g : LockGraph}

/-- The edges of a graph. -/
def edges (g : LockGraph) : Set (String × String) := {e | g.hasEdge e.1 e.2 = true}

theorem mem_edges {e : String × String} : e ∈ g.edges ↔ e ∈ g.sites.map pairOf := by
  simp only [edges, Set.mem_ofPred_eq, hasEdge_iff, List.mem_map, pairOf, Prod.ext_iff]

theorem encard_edges (h : g.WellFormed) : g.edges.encard = g.edgeCount := by
  have hcoe : g.edges = ↑(g.sites.map pairOf).toFinset := by
    ext e
    rw [mem_edges, List.coe_toFinset, Set.mem_ofPred_eq]
  rw [hcoe, Set.encard_coe_eq_coe_finsetCard, List.toFinset_card_of_nodup h.once, List.length_map,
    edgeCount]

/-- Observations add as many edges as is answered. -/
theorem encard_edges_addAll_sdiff (h : g.WellFormed) (observations : List Observation) :
    ((g.addAll observations).2.edges \ g.edges).encard = (g.addAll observations).1 := by
  have hsub : g.edges ⊆ (g.addAll observations).2.edges := fun e he => hasEdge_addAll.2 (.inl he)
  have hfin : g.edges.Finite := by
    refine Set.encard_ne_top_iff.1 ?_
    rw [encard_edges h]
    exact ENat.natCast_ne_top _
  rw [Set.encard_sdiff hsub hfin, encard_edges h, encard_edges (h.addAll observations),
    edgeCount_addAll, ← ENat.natCast_sub, Nat.add_sub_cancel_left]

end LockGraph

namespace LockOrder

variable {settings : LockOrderSettings} {path : String} {events : List Event} {a b lock : String}

/-! ## What the events of a walk say -/

/-- Some event takes the lock. -/
def Takes (events : List Event) (lock : String) : Prop :=
  ∃ r held line, .acquire r held lock line ∈ events

/-- Some event takes `inner` while `outer` is held. -/
def Nests (events : List Event) (outer inner : String) : Prop :=
  ∃ r held line, .acquire r held inner line ∈ events ∧ outer ∈ held.names

theorem Nests.mono {events' : List Event} (h : Nests events a b) (hsub : events ⊆ events') :
    Nests events' a b := by
  obtain ⟨r, held, line, he, hheld⟩ := h
  exact ⟨r, held, line, hsub he, hheld⟩

/-- Some event calls a method of its own class while `outer` is held, and somewhere that method
takes `inner`. -/
def CallsInto (events : List Event) (outer inner : String) : Prop :=
  ∃ r held method line c, .ownCall r held method line ∈ events ∧ r.owner = some c ∧
    outer ∈ held.names ∧
    ∃ r' held' line', .acquire r' held' inner line' ∈ events ∧ r'.kind = .method ∧
      r'.name = s!"{c}.{method}"

theorem takes_iff : Takes events lock ↔ ∃ e ∈ events, e.taken? = some lock := by
  constructor
  · rintro ⟨r, held, line, he⟩
    exact ⟨_, he, rfl⟩
  · rintro ⟨e, he, hlock⟩
    cases e with
    | acquire r held lock' line =>
      obtain rfl : lock' = lock := Option.some.inj hlock
      exact ⟨r, held, line, he⟩
    | enter | access | ownCall => cases hlock

theorem mem_locksTakenBy {method : String} : lock ∈ locksTakenBy events method ↔
    ∃ r held line, .acquire r held lock line ∈ events ∧ r.kind = .method ∧ r.name = method := by
  rw [locksTakenBy, List.mem_eraseDups, List.mem_filterMap]
  constructor
  · rintro ⟨e, he, htaken⟩
    cases e with
    | acquire r held lock' line =>
      simp only [takenIn?, Option.ite_none_right_eq_some, Option.some.injEq] at htaken
      obtain ⟨hr, rfl⟩ := htaken
      exact ⟨r, held, line, he, hr⟩
    | enter | access | ownCall => cases htaken
  · rintro ⟨r, held, line, he, hr⟩
    exact ⟨_, he, by simp [takenIn?, hr]⟩

/-! ## What the observations show -/

theorem exists_direct_shows (path : String) :
    (∃ o ∈ events.flatMap (direct path), o.Shows a b) ↔ Nests events a b := by
  constructor
  · rintro ⟨o, ho, hshows⟩
    obtain ⟨e, he, ho⟩ := List.mem_flatMap.1 ho
    cases e with
    | acquire r held lock line =>
      rcases List.mem_cons.1 ho with rfl | ho
      · exact hshows.elim
      · obtain ⟨outer, houter, rfl⟩ := List.mem_map.1 ho
        obtain ⟨rfl, rfl⟩ := hshows
        exact ⟨r, held, line, he, houter⟩
    | enter | access | ownCall => cases ho
  · rintro ⟨r, held, line, he, hmem⟩
    exact ⟨_, List.mem_flatMap.2 ⟨_, he, List.mem_cons_of_mem _ (List.mem_map_of_mem hmem)⟩,
      rfl, rfl⟩

theorem exists_byCall_shows (path : String) :
    (∃ o ∈ events.flatMap (byCall path events), o.Shows a b) ↔ CallsInto events a b := by
  constructor
  · rintro ⟨o, ho, hshows⟩
    obtain ⟨e, he, ho⟩ := List.mem_flatMap.1 ho
    cases e with
    | ownCall r held method line =>
      cases hc : r.owner with
      | none => simp [byCall, hc] at ho
      | some c =>
        simp only [byCall, hc, List.mem_flatMap, List.mem_map] at ho
        obtain ⟨outer, houter, lock, hlock, rfl⟩ := ho
        obtain ⟨rfl, rfl⟩ := hshows
        exact ⟨r, held, method, line, c, he, hc, houter, mem_locksTakenBy.1 hlock⟩
    | enter | access | acquire => cases ho
  · rintro ⟨r, held, method, line, c, he, hc, houter, htaken⟩
    let callee := s!"{c}.{method}"
    refine ⟨.site ⟨a, b, path, line, s!"{r.name} -> {callee}"⟩, List.mem_flatMap.2 ⟨_, he, ?_⟩, rfl,
      rfl⟩
    simp only [byCall, hc, List.mem_flatMap, List.mem_map]
    exact ⟨a, houter, b, mem_locksTakenBy.2 htaken, rfl⟩

theorem exists_observation_shows (settings : LockOrderSettings) (path : String) :
    (∃ o ∈ observations settings path events, o.Shows a b) ↔
      Nests events a b ∨ settings.followOwnCalls = true ∧ CallsInto events a b := by
  rw [observations, ← exists_direct_shows path, ← exists_byCall_shows path]
  simp only [List.mem_append, or_and_right, exists_or]
  cases settings.followOwnCalls <;> simp

/-- A lock that is observed by itself is taken. -/
theorem takes_of_lock_mem (h : .lock lock ∈ observations settings path events) :
    Takes events lock := by
  rcases List.mem_append.1 h with h | h
  · obtain ⟨e, he, h⟩ := List.mem_flatMap.1 h
    cases e with
    | acquire r held name line =>
      simp only [direct, List.mem_cons, Observation.lock.injEq, List.mem_map, reduceCtorEq,
        and_false, exists_false, or_false] at h
      exact ⟨r, held, line, h ▸ he⟩
    | enter | access | ownCall => cases h
  · split at h
    · obtain ⟨e, he, h⟩ := List.mem_flatMap.1 h
      cases e with
      | ownCall r held method line => cases hc : r.owner <;> simp [byCall, hc] at h
      | enter | access | acquire => cases h
    · cases h

/-- What is held at some event is taken at some event, so a site names no lock but those taken. -/
theorem exists_observation_names (settings : LockOrderSettings) (path : String)
    (hheld : ∀ e ∈ events, ∀ name ∈ e.held.names, Takes events name) :
    (∃ o ∈ observations settings path events, o.Names lock) ↔ Takes events lock := by
  have hnest (outer inner : String) (h : Nests events outer inner) :
      Takes events outer ∧ Takes events inner := by
    obtain ⟨r, held, line, he, houter⟩ := h
    exact ⟨hheld _ he outer houter, r, held, line, he⟩
  have hcall (outer inner : String) (h : CallsInto events outer inner) :
      Takes events outer ∧ Takes events inner := by
    obtain ⟨r, held, method, line, c, he, -, houter, r', held', line', he', -⟩ := h
    exact ⟨hheld _ he outer houter, r', held', line', he'⟩
  constructor
  · rintro ⟨o, ho, hname⟩
    cases o with
    | lock name =>
      obtain rfl : lock = name := hname
      exact takes_of_lock_mem ho
    | site s =>
      have hends : Takes events s.held ∧ Takes events s.acquired :=
        ((exists_observation_shows settings path).1 ⟨_, ho, rfl, rfl⟩).elim (hnest _ _)
          fun h => hcall _ _ h.2
      rcases hname.2 with rfl | rfl
      · exact hends.1
      · exact hends.2
  · rintro ⟨r, held, line, he⟩
    exact ⟨.lock lock, List.mem_append_left _ (List.mem_flatMap.2 ⟨_, he, List.mem_cons_self⟩), rfl⟩

/-! ## The graph of an analysis -/

section

variable (settings) (g : LockGraph) {u : SourceUnit}

theorem scan_of_ok (hu : u.check = .ok ()) : scan settings g u =
    let after := g.addAll (observations settings u.path (walk .may ⟨settings.lockNames⟩ u))
    (.ok after.1, after.2) := by
  rw [scan, hu]

/-- **A refused unit leaves the graph as it is.** -/
theorem scan_of_error {refusal : Refusal} (hu : u.check = .error refusal) :
    scan settings g u = (.error refusal, g) := by
  rw [scan, hu]

end

theorem checksFirst_visit (settings : LockOrderSettings) :
    Run.ChecksFirst (visit settings) (fun _ => []) fun g u =>
      (g.addAll (observations settings u.path (walk .may ⟨settings.lockNames⟩ u))).2 where
  of_ok g u hu := by
    rw [visit, scan_of_ok settings g hu]
    rfl
  of_error g u refusal hu := by
    rw [visit, scan_of_error settings g hu]
    rfl

theorem foldl_addAll (f : SourceUnit → List Observation) (g : LockGraph)
    (units : List SourceUnit) :
    units.foldl (fun g u => (g.addAll (f u)).2) g = (g.addAll (units.flatMap f)).2 := by
  induction units generalizing g with
  | nil => rfl
  | cons u rest ih => rw [List.foldl_cons, ih, List.flatMap_cons, LockGraph.addAll_append]

/-- **The graph of an analysis is built from what the accepted units show**, one after another. -/
theorem graph_run (settings : LockOrderSettings) (units : List SourceUnit) :
    (run settings units).2 = (LockGraph.empty.addAll ((accepted units).flatMap fun u =>
      observations settings u.path (walk .may ⟨settings.lockNames⟩ u))).2 := by
  rw [run, (checksFirst_visit settings).across_eq]
  exact foldl_addAll _ _ _

theorem run_eq (settings : LockOrderSettings) (units : List SourceUnit) :
    (run settings units).1 = ⟨deadlocks (run settings units).2,
      (refused units).map .ofRefusal, (accepted units).length, (refused units).length⟩ := by
  rw [run, (checksFirst_visit settings).across_eq]

theorem wellFormed_graph_run (settings : LockOrderSettings) (units : List SourceUnit) :
    (run settings units).2.WellFormed := by
  rw [graph_run]
  exact LockGraph.wellFormed_empty.addAll _

/-- What each edge of the graph of an analysis stands for. -/
theorem hasEdge_run_iff (settings : LockOrderSettings) (units : List SourceUnit) (a b : String) :
    (run settings units).2.hasEdge a b = true ↔ ∃ u ∈ units, u.check = .ok () ∧ a ≠ b ∧
      (Nests (walk .may ⟨settings.lockNames⟩ u) a b ∨
        settings.followOwnCalls = true ∧ CallsInto (walk .may ⟨settings.lockNames⟩ u) a b) := by
  rw [graph_run, LockGraph.hasEdge_addAll, exists_mem_flatMap_accepted]
  simp only [exists_observation_shows, LockGraph.hasEdge_iff, LockGraph.empty, List.not_mem_nil,
    false_and, exists_false, false_or]
  constructor
  · rintro ⟨hne, u, hu, hok, h⟩
    exact ⟨u, hu, hok, hne, h⟩
  · rintro ⟨u, hu, hok, hne, h⟩
    exact ⟨hne, u, hu, hok, h⟩

/-- **The lock-order graph of an analysis.** An edge is there exactly if an accepted unit takes its
second lock while it holds the first, itself or through a call of an own method; the locks are the
locks taken, each once; and a scan adds the edges of its unit and answers with how many of them are
new, or refuses the unit and leaves the graph as it was. -/
theorem run_graph (settings : LockOrderSettings) (units : List SourceUnit) :
    let g := (run settings units).2
    let events := walk .may ⟨settings.lockNames⟩
    let Orders (u : SourceUnit) (a b : String) := a ≠ b ∧
      (Nests (events u) a b ∨ settings.followOwnCalls = true ∧ CallsInto (events u) a b)
    (∀ a b, g.hasEdge a b = true ↔ ∃ u ∈ units, u.check = .ok () ∧ Orders u a b) ∧
    (g.locks.Nodup ∧ ∀ lock, lock ∈ g.locks ↔
      ∃ u ∈ units, u.check = .ok () ∧ Takes (events u) lock) ∧
    ∀ (observed : List Observation) (u : SourceUnit),
      let builder := (LockGraph.empty.addAll observed).2
      (u.check = .ok () ∧ ∃ added after, scan settings builder u = (.ok added, after) ∧
        (∀ a b, after.hasEdge a b = true ↔ builder.hasEdge a b = true ∨ Orders u a b) ∧
        (after.edges \ builder.edges).encard = added) ∨
      ∃ refusal, u.check = .error refusal ∧ scan settings builder u = (.error refusal, builder) := by
  intro g events Orders
  have hheld (u : SourceUnit) : ∀ e ∈ events u, ∀ name ∈ e.held.names, Takes (events u) name :=
    fun e he name hname => takes_iff.2 (exists_taken_of_mem_held he hname)
  refine ⟨hasEdge_run_iff settings units, ⟨(wellFormed_graph_run settings units).nodup,
    fun lock => ?_⟩, ?_⟩
  · have hg : g = (LockGraph.empty.addAll ((accepted units).flatMap fun u =>
        observations settings u.path (events u))).2 := graph_run settings units
    rw [hg, LockGraph.mem_locks_addAll, exists_mem_flatMap_accepted]
    simp only [exists_observation_names _ _ (hheld _), LockGraph.empty, List.not_mem_nil, false_or]
  · intro observed u builder
    cases hu : u.check with
    | error refusal => exact .inr ⟨refusal, rfl, scan_of_error settings builder hu⟩
    | ok =>
      refine .inl ⟨rfl, _, _, scan_of_ok settings builder hu, fun a b => ?_, ?_⟩
      · rw [LockGraph.hasEdge_addAll, exists_observation_shows]
      · exact LockGraph.encard_edges_addAll_sdiff (LockGraph.wellFormed_empty.addAll observed) _

end LockOrder

end Interlock
