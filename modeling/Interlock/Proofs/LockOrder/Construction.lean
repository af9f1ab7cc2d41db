import Interlock.Proofs.LockOrder.Edges

/-!
# How a lock-order graph is built

A graph grows by single additions, of a lock or of a site, and by scans of units, each of which is a
run of such additions (`BuildStep.foldl_apply`). Three things follow from what one addition does.

* The site of an edge is that of the first addition which shows the edge, and it is never replaced
  (`LockGraph.site?_addAll`).
* An addition is answered with yes exactly if no addition before it shows the same edge
  (`LockGraph.answer_addSite_iff`), and only then an edge is added (`LockGraph.edgeCount_addSite`).
* Locks are listed in the order in which they are first named, so the place that is answered when a
  lock is added never changes (`LockGraph.place?_addLock`, `LockGraph.place?_addAll`).

`LockGraph.records_build` puts them together for a graph that is built in any number of steps.
-/

namespace Interlock

open Syntax

/-- The site at which an observation shows an edge, loops left out. -/
def Observation.siteOf? (a b : String) : Observation → Option AcquisitionSite
  | .lock _ => none
  | .site s => if a ≠ b ∧ s.held = a ∧ s.acquired = b then some s else none

namespace Observation

variable {a b : String} {o : Observation} {s : AcquisitionSite}

theorem siteOf?_eq_some : o.siteOf? a b = some s ↔ a ≠ b ∧ o = .site s ∧ s.held = a ∧
    s.acquired = b := by
  cases o with
  | lock name => simp [siteOf?]
  | site t =>
    simp only [siteOf?, Option.ite_none_right_eq_some, Option.some.injEq, site.injEq]
    constructor
    · rintro ⟨⟨hne, hends⟩, rfl⟩
      exact ⟨hne, rfl, hends⟩
    · rintro ⟨hne, rfl, hends⟩
      exact ⟨⟨hne, hends⟩, rfl⟩

theorem siteOf?_eq_none : o.siteOf? a b = none ↔ ¬ (a ≠ b ∧ o.Shows a b) := by
  cases o with
  | lock name => simp [siteOf?, Shows]
  | site t => simp [siteOf?, Shows]

end Observation

namespace LockGraph

variable {g : LockGraph} {name a b : String} {s : AcquisitionSite}

/-! ## What a graph keeps -/

theorem prefix_addLock : g.locks <+: (g.addLock name).2.locks := by
  rw [addLock_eq]
  split
  · exact List.prefix_rfl
  · exact List.prefix_append _ _

theorem prefix_add (o : Observation) :
    g.locks <+: (g.add o).2.locks ∧ g.sites <+: (g.add o).2.sites := by
  cases o with
  | lock name => exact ⟨prefix_addLock, by simp⟩
  | site s =>
    by_cases h : s.held = s.acquired
    · simp [addSite_of_loop h]
    · refine ⟨?_, ?_⟩
      · rw [add_site, locks_addSite h]
        exact prefix_addLock.trans prefix_addLock
      · rw [add_site, addSite_of_ne h]
        split <;> simp

/-- Additions only add at the end. -/
theorem prefix_addAll (observations : List Observation) :
    g.locks <+: (g.addAll observations).2.locks ∧
      g.sites <+: (g.addAll observations).2.sites := by
  induction observations generalizing g with
  | nil => exact ⟨List.prefix_rfl, List.prefix_rfl⟩
  | cons o rest ih =>
    obtain ⟨hlocks, hsites⟩ := prefix_add (g := g) o
    obtain ⟨hlocks', hsites'⟩ := ih (g := (g.add o).2)
    exact ⟨hlocks.trans hlocks', hsites.trans hsites'⟩

theorem edgeCount_le_addAll (observations : List Observation) :
    g.edgeCount ≤ (g.addAll observations).2.edgeCount :=
  (prefix_addAll observations).2.length_le

/-! ## Places -/

theorem place?_eq_some {i : Nat} :
    g.place? name = some i ↔ name ∈ g.locks ∧ g.locks.idxOf name = i := by
  by_cases h : name ∈ g.locks
  · simp [place?_of_mem h, h]
  · simp [place?_of_notMem h, h]

/-- The place of a lock never changes. -/
theorem place?_addAll (observations : List Observation) {i : Nat} (h : g.place? name = some i) :
    (g.addAll observations).2.place? name = some i := by
  obtain ⟨hmem, rfl⟩ := place?_eq_some.1 h
  obtain ⟨later, hlater⟩ := (prefix_addAll (g := g) observations).1
  refine place?_eq_some.2 ⟨hlater ▸ List.mem_append_left _ hmem, ?_⟩
  rw [← hlater]
  exact List.idxOf_append_of_mem hmem

/-- **Adding a lock is answered with its place.** -/
theorem place?_addLock : (g.addLock name).2.place? name = some (g.addLock name).1 := by
  rw [addLock_eq]
  split
  · rename_i h
    exact place?_of_mem h
  · rename_i h
    refine place?_eq_some.2 ⟨by simp, ?_⟩
    rw [List.idxOf_append_of_notMem h, List.idxOf_cons_self, Nat.add_zero]

theorem getElem?_locks_iff (h : g.locks.Nodup) {i : Nat} :
    g.locks[i]? = some name ↔ g.place? name = some i := by
  rw [place?_eq_some]
  constructor
  · intro hi
    obtain ⟨hlt, rfl⟩ := List.getElem?_eq_some_iff.1 hi
    exact ⟨List.getElem_mem hlt, h.idxOf_getElem i hlt⟩
  · rintro ⟨hmem, rfl⟩
    have hlt : g.locks.idxOf name < g.locks.length := List.idxOf_lt_length_iff.2 hmem
    rw [List.getElem?_eq_getElem hlt, List.getElem_idxOf hlt]

/-! ## The first site of an edge -/

@[simp] theorem site?_withEnds : (g.withEnds s).site? a b = g.site? a b := by
  simp [site?]

theorem site?_addSite :
    (g.addSite s).2.site? a b = (g.site? a b).or ((Observation.site s).siteOf? a b) := by
  by_cases hs : s.held = s.acquired
  · have hnone : (Observation.site s).siteOf? a b = none := by
      refine Observation.siteOf?_eq_none.2 ?_
      rintro ⟨hne, rfl, rfl⟩
      exact hne hs
    rw [addSite_of_loop hs, hnone, Option.or_none]
  · rw [addSite_of_ne hs]
    split
    · rename_i hedge
      rw [site?_withEnds]
      -- if the site shows the edge asked for, the graph has a site for it already
      cases ho : (Observation.site s).siteOf? a b with
      | none => rw [Option.or_none]
      | some t =>
        obtain ⟨-, ht, rfl, rfl⟩ := Observation.siteOf?_eq_some.1 ho
        obtain rfl : s = t := Observation.site.inj ht
        rw [Option.or_of_isSome hedge]
    · have hlast : [s].find? (fun t => t.held = a && t.acquired = b) =
          (Observation.site s).siteOf? a b := by
        by_cases hends : s.held = a ∧ s.acquired = b
        · obtain ⟨rfl, rfl⟩ := hends
          simp [Observation.siteOf?, hs]
        · simp [Observation.siteOf?, hends]
      simp only [site?, List.find?_append, hlast]

theorem site?_add (o : Observation) :
    (g.add o).2.site? a b = (g.site? a b).or (o.siteOf? a b) := by
  cases o with
  | lock name => simp [site?, Observation.siteOf?]
  | site s => exact site?_addSite

/-- **The first site of an edge is kept.** -/
theorem site?_addAll (observations : List Observation) : (g.addAll observations).2.site? a b =
    (g.site? a b).or (observations.findSome? (Observation.siteOf? a b)) := by
  induction observations generalizing g with
  | nil => simp [addAll]
  | cons o rest ih =>
    rw [addAll_cons, ih, site?_add, Option.or_assoc, List.findSome?_cons]
    cases o.siteOf? a b <;> rfl

@[simp] theorem site?_empty : empty.site? a b = none := rfl

/-- Of a graph that is built from nothing, the site of an edge is that of the first addition that
shows it. -/
theorem site?_addAll_empty_iff {observations : List Observation} :
    (empty.addAll observations).2.site? a b = some s ↔ a ≠ b ∧ ∃ before after,
      observations = before ++ .site s :: after ∧ (Observation.site s).Shows a b ∧
        ∀ o ∈ before, ¬ o.Shows a b := by
  rw [site?_addAll, site?_empty, Option.none_or, List.findSome?_eq_some_iff]
  simp only [Observation.siteOf?_eq_some, Observation.siteOf?_eq_none]
  constructor
  · rintro ⟨before, o, after, hsplit, ⟨hne, rfl, hshows⟩, hbefore⟩
    exact ⟨hne, before, after, hsplit, hshows, fun o ho hs => hbefore o ho ⟨hne, hs⟩⟩
  · rintro ⟨hne, before, after, hsplit, hshows, hbefore⟩
    exact ⟨before, _, after, hsplit, ⟨hne, rfl, hshows⟩, fun o ho hs => hbefore o ho hs.2⟩

/-! ## New edges -/

theorem answer_addSite : (g.addSite s).1 = true ↔
    s.held ≠ s.acquired ∧ ¬ g.hasEdge s.held s.acquired = true := by
  by_cases hs : s.held = s.acquired
  · simp [addSite_of_loop hs, hs]
  · rw [addSite_of_ne hs]
    split <;> simp_all

/-- An addition is answered with yes exactly if no addition before it shows the same edge. -/
theorem answer_addSite_iff {before : List Observation} :
    ((empty.addAll before).2.addSite s).1 = true ↔
      s.held ≠ s.acquired ∧ ∀ o ∈ before, ¬ o.Shows s.held s.acquired := by
  rw [answer_addSite, hasEdge_addAll]
  simp only [hasEdge, site?_empty, Option.isSome_none, Bool.false_eq_true, false_or, not_and,
    not_exists]
  exact and_congr_right fun hne => ⟨fun h => h hne, fun h _ => h⟩

end LockGraph

/-! ## Building in steps -/

/-- What is done to a graph while it is built: something is added, or a unit is scanned. -/
inductive BuildStep where
  | add (o : Observation)
  | scan (settings : LockOrderSettings) (u : SourceUnit)

namespace BuildStep

/-- The graph after a step. -/
def apply (g : LockGraph) : BuildStep → LockGraph
  | add o => (g.add o).2
  | scan settings u => (LockOrder.scan settings g u).2

/-- The single additions that a step makes, in order. -/
def additions : BuildStep → List Observation
  | add o => [o]
  | scan settings u =>
    match u.check with
    | .ok _ => LockOrder.observations settings u.path (walk .may ⟨settings.lockNames⟩ u)
    | .error _ => []

theorem apply_eq (g : LockGraph) (step : BuildStep) :
    apply g step = (g.addAll step.additions).2 := by
  cases step with
  | add o => rfl
  | scan settings u =>
    cases hu : u.check with
    | ok =>
      rw [apply, LockOrder.scan_of_ok settings g hu, additions, hu]
    | error refusal =>
      rw [apply, LockOrder.scan_of_error settings g hu, additions, hu]
      rfl

theorem foldl_apply (g : LockGraph) (steps : List BuildStep) :
    steps.foldl apply g = (g.addAll (steps.flatMap additions)).2 := by
  induction steps generalizing g with
  | nil => rfl
  | cons step rest ih =>
    rw [List.foldl_cons, ih, apply_eq, List.flatMap_cons, LockGraph.addAll_append]

end BuildStep

namespace LockGraph

/-- What a graph that is built from nothing says of the additions that were made to it. -/
structure Records (additions : List Observation) (g : LockGraph) : Prop where
  /-- No lock is listed twice. -/
  nodup : g.locks.Nodup
  /-- Each lock has its own place. -/
  index : ∀ name i, g.locks[i]? = some name ↔ g.place? name = some i
  /-- The locks are those that some addition names. -/
  named : ∀ name, name ∈ g.locks ↔ ∃ o ∈ additions, o.Names name
  /-- Every edge joins two different locks. -/
  ends : ∀ s ∈ g.sites, s.held ∈ g.locks ∧ s.acquired ∈ g.locks ∧ s.held ≠ s.acquired
  /-- No two edges join the same locks in the same order. -/
  once : (g.sites.map pairOf).Nodup
  /-- The edges are those that some addition shows. -/
  edge : ∀ a b, g.hasEdge a b = true ↔ a ≠ b ∧ ∃ o ∈ additions, o.Shows a b
  /-- The site of an edge is that of the first addition that shows it. -/
  first : ∀ a b s, g.site? a b = some s ↔ a ≠ b ∧ ∃ before after,
    additions = before ++ .site s :: after ∧ (Observation.site s).Shows a b ∧
      ∀ o ∈ before, ¬ o.Shows a b
  /-- The edges are counted, each once. -/
  count : {e : String × String | e.1 ≠ e.2 ∧ ∃ o ∈ additions, o.Shows e.1 e.2}.encard = g.edgeCount
  /-- An addition of a lock is answered with its place. -/
  placed : ∀ before name after, additions = before ++ .lock name :: after →
    g.place? name = some ((empty.addAll before).2.addLock name).1
  /-- An addition of a site is answered with yes exactly if it is the first to show its edge, and
  only then the number of edges grows. -/
  answer : ∀ before s after, additions = before ++ .site s :: after →
    (((empty.addAll before).2.addSite s).1 = true ↔
      s.held ≠ s.acquired ∧ ∀ o ∈ before, ¬ o.Shows s.held s.acquired) ∧
    ((empty.addAll before).2.addSite s).2.edgeCount =
      (empty.addAll before).2.edgeCount + ((empty.addAll before).2.addSite s).1.toNat
  /-- What the graph said at any time before, it still says. -/
  lasting : ∀ before after, additions = before ++ after →
    (empty.addAll before).2.edgeCount ≤ g.edgeCount ∧
    (∀ name i, (empty.addAll before).2.place? name = some i → g.place? name = some i) ∧
    ∀ a b s, (empty.addAll before).2.site? a b = some s → g.site? a b = some s

/-- **A graph records how it was built**, whatever is added to it and scanned for it in whatever
order. -/
theorem records_build (steps : List BuildStep) :
    Records (steps.flatMap BuildStep.additions) (steps.foldl BuildStep.apply empty) := by
  rw [BuildStep.foldl_apply]
  generalize steps.flatMap BuildStep.additions = additions
  have hwf : (empty.addAll additions).2.WellFormed := wellFormed_empty.addAll additions
  have hedge (a b : String) : (empty.addAll additions).2.hasEdge a b = true ↔
      a ≠ b ∧ ∃ o ∈ additions, o.Shows a b := by
    rw [hasEdge_addAll]
    simp [hasEdge]
  refine ⟨hwf.nodup, fun name i => getElem?_locks_iff hwf.nodup, fun name => ?_,
    fun s hs => hwf.ends_of_mem hs, hwf.once, hedge, fun a b s => site?_addAll_empty_iff, ?_, ?_,
    fun before s after _ => ⟨answer_addSite_iff, edgeCount_addSite⟩, ?_⟩
  · rw [mem_locks_addAll]
    simp [empty]
  · rw [← encard_edges hwf]
    congr 1
    ext e
    exact (hedge e.1 e.2).symm
  · rintro before name after rfl
    rw [addAll_append, addAll_cons]
    exact place?_addAll after place?_addLock
  · rintro before after rfl
    rw [addAll_append]
    refine ⟨edgeCount_le_addAll after, fun name i => place?_addAll after, ?_⟩
    intro a b s hs
    rw [site?_addAll, hs, Option.some_or]

end LockGraph

end Interlock
