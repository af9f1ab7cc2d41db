import Interlock.Proofs.LockOrder.Construction
import Interlock.Proofs.LockOrder.Permutation

/-!
# The sites of a deadlock

A deadlock names, for each lock of its cycle, a site where this lock is held and the next one is
taken. None is missing: a cycle has an edge from each of its locks to the next
(`LockOrder.hasEdge_of_mem_cyclePairs`), and every edge has a site.

Which site it is can be read off the walks (`LockOrder.firstSite?`). The units come in order, and in
a unit every acquisition under a lock comes before every call into a method. The graph keeps that
site (`LockOrder.site?_run`), and `LockOrder.sites_of_mem_findings` says that a deadlock reports it.
-/

namespace Interlock

open Syntax Lock

namespace LockOrder

variable {settings : LockOrderSettings} {path a b : String} {events : List Event}

/-! ## The first site of an edge -/

/-- The site at which an event takes `b` while `a` is held. -/
def nestingSite? (path a b : String) : Event → Option AcquisitionSite
  | .acquire r held lock line =>
    if lock = b ∧ a ∈ held.names then some ⟨a, b, path, line, r.name⟩ else none
  | _ => none

/-- The site at which an event calls, while `a` is held, an own method that takes `b`. -/
def callSite? (path : String) (events : List Event) (a b : String) : Event → Option AcquisitionSite
  | .ownCall r held method line =>
    match r.owner with
    | none => none
    | some c =>
      let callee := s!"{c}.{method}"
      if a ∈ held.names ∧ ∃ e ∈ events, takenIn? callee e = some b then
        some ⟨a, b, path, line, s!"{r.name} -> {callee}"⟩
      else none
  | _ => none

/-- The first site of an edge in a unit: the first acquisition that shows it, or else the first
call. -/
def firstSiteIn? (settings : LockOrderSettings) (a b : String) (u : SourceUnit) :
    Option AcquisitionSite :=
  let events := walk .may ⟨settings.lockNames⟩ u
  (events.findSome? (nestingSite? u.path a b)).or
    (if settings.followOwnCalls then events.findSome? (callSite? u.path events a b) else none)

/-- The first site of an edge in some units, those left out that cannot be analysed. -/
def firstSite? (settings : LockOrderSettings) (units : List SourceUnit) (a b : String) :
    Option AcquisitionSite :=
  (accepted units).findSome? (firstSiteIn? settings a b)

/-! ## The graph keeps it -/

theorem findSome?_flatMap {α β γ : Type} (f : α → List β) (p : β → Option γ) (xs : List α) :
    (xs.flatMap f).findSome? p = xs.findSome? fun x => (f x).findSome? p := by
  induction xs with
  | nil => rfl
  | cons x xs ih =>
    rw [List.flatMap_cons, List.findSome?_append, ih, List.findSome?_cons]
    cases (f x).findSome? p <;> rfl

/-- If only one of some observations shows an edge, that one is the first. -/
theorem findSome?_siteOf? {observations : List Observation} {t : AcquisitionSite} (hab : a ≠ b)
    (hends : t.held = a ∧ t.acquired = b)
    (honly : ∀ s, .site s ∈ observations → s.held = a → s.acquired = b → s = t) :
    observations.findSome? (Observation.siteOf? a b) =
      if .site t ∈ observations then some t else none := by
  cases hfirst : observations.findSome? (Observation.siteOf? a b) with
  | none =>
    refine (if_neg fun ht => ?_).symm
    have hnone := List.findSome?_eq_none_iff.1 hfirst _ ht
    exact Observation.siteOf?_eq_none.1 hnone ⟨hab, hends⟩
  | some s =>
    obtain ⟨o, ho, hs⟩ := List.exists_of_findSome?_eq_some hfirst
    obtain ⟨-, rfl, hheld, hacquired⟩ := Observation.siteOf?_eq_some.1 hs
    obtain rfl := honly s ho hheld hacquired
    exact (if_pos ho).symm

theorem findSome?_direct (hab : a ≠ b) (e : Event) :
    (direct path e).findSome? (Observation.siteOf? a b) = nestingSite? path a b e := by
  cases e with
  | acquire r held lock line =>
    have hmem (s : AcquisitionSite) : .site s ∈ direct path (.acquire r held lock line) ↔
        ∃ outer ∈ held.names, ⟨outer, lock, path, line, r.name⟩ = s := by
      simp [direct]
    rw [findSome?_siteOf? (t := ⟨a, b, path, line, r.name⟩) hab ⟨rfl, rfl⟩]
    · rw [nestingSite?]
      congr 1
      rw [hmem, eq_iff_iff]
      constructor
      · rintro ⟨outer, houter, heq⟩
        obtain ⟨rfl, rfl, -⟩ := AcquisitionSite.mk.injEq .. ▸ heq
        exact ⟨rfl, houter⟩
      · rintro ⟨rfl, ha⟩
        exact ⟨a, ha, rfl⟩
    · intro s hs hheld hacquired
      obtain ⟨outer, -, rfl⟩ := (hmem s).1 hs
      obtain rfl : outer = a := hheld
      obtain rfl : lock = b := hacquired
      rfl
  | enter | access | ownCall => rfl

theorem mem_locksTakenBy_iff {method lock : String} :
    lock ∈ locksTakenBy events method ↔ ∃ e ∈ events, takenIn? method e = some lock := by
  rw [locksTakenBy, List.mem_eraseDups, List.mem_filterMap]

theorem findSome?_byCall (hab : a ≠ b) (e : Event) :
    (byCall path events e).findSome? (Observation.siteOf? a b) = callSite? path events a b e := by
  cases e with
  | ownCall r held method line =>
    cases hc : r.owner with
    | none => simp [byCall, callSite?, hc]
    | some c =>
      let callee := s!"{c}.{method}"
      have hmem (s : AcquisitionSite) :
          .site s ∈ byCall path events (.ownCall r held method line) ↔
            ∃ outer ∈ held.names, ∃ lock ∈ locksTakenBy events callee,
              ⟨outer, lock, path, line, s!"{r.name} -> {callee}"⟩ = s := by
        simp [byCall, hc, callee]
      rw [findSome?_siteOf? (t := ⟨a, b, path, line, s!"{r.name} -> {callee}"⟩) hab ⟨rfl, rfl⟩]
      · simp only [callSite?, hc]
        congr 1
        rw [hmem, eq_iff_iff, ← mem_locksTakenBy_iff]
        constructor
        · rintro ⟨outer, houter, lock, hlock, heq⟩
          obtain ⟨rfl, rfl, -⟩ := AcquisitionSite.mk.injEq .. ▸ heq
          exact ⟨houter, hlock⟩
        · rintro ⟨ha, hb⟩
          exact ⟨a, ha, b, hb, rfl⟩
      · intro s hs hheld hacquired
        obtain ⟨outer, -, lock, -, rfl⟩ := (hmem s).1 hs
        obtain rfl : outer = a := hheld
        obtain rfl : lock = b := hacquired
        rfl
  | enter | access | acquire => rfl

theorem findSome?_observations (hab : a ≠ b) (u : SourceUnit) :
    (observations settings u.path (walk .may ⟨settings.lockNames⟩ u)).findSome?
      (Observation.siteOf? a b) = firstSiteIn? settings a b u := by
  rw [observations, List.findSome?_append, findSome?_flatMap, firstSiteIn?]
  simp only [findSome?_direct hab]
  cases settings.followOwnCalls with
  | false => rfl
  | true => simp only [if_true, findSome?_flatMap, findSome?_byCall hab]

/-- **The graph of an analysis keeps the first site of each edge.** -/
theorem site?_run (settings : LockOrderSettings) (units : List SourceUnit) (hab : a ≠ b) :
    (run settings units).2.site? a b = firstSite? settings units a b := by
  rw [graph_run, LockGraph.site?_addAll, LockGraph.site?_empty, Option.none_or,
    findSome?_flatMap, firstSite?]
  simp only [findSome?_observations hab]

/-! ## Cycles have no gaps -/

/-- Each lock of a cycle leads to the next by an edge. -/
theorem hasEdge_of_mem_cyclePairs {g : LockGraph} (hg : g.WellFormed) {locks : List String}
    (hlocks : locks ∈ g.cycles) {p : String × String} (hp : p ∈ cyclePairs locks) :
    g.hasEdge p.1 p.2 = true := by
  obtain ⟨hlen, -, hchain⟩ := (LockGraph.mem_cycles hg hlocks).1
  cases locks with
  | nil => simp at hlen
  | cons a rest =>
    rw [Cycle.chain_coe_cons, List.isChain_iff_forall₂, ← List.cons_append,
      List.dropLast_concat] at hchain
    exact (List.forall₂_iff_zip.1 hchain).2 hp

theorem getElem?_cyclePairs {locks : List String} {i : Nat} {p : String × String}
    (hi : i < locks.length) : (cyclePairs locks)[i]? = some p ↔
      locks[i]? = some p.1 ∧ locks[(i + 1) % locks.length]? = some p.2 := by
  rw [cyclePairs, ← List.rotate_eq_drop_append_take (by omega), List.getElem?_zip_eq_some,
    List.getElem?_rotate hi]

theorem length_cyclePairs (locks : List String) : (cyclePairs locks).length = locks.length := by
  simp only [cyclePairs, List.length_zip, List.length_append, List.length_drop, List.length_take]
  omega

theorem sites_deadlock (g : LockGraph) (locks : List String) : (deadlock g locks).sites =
    (cyclePairs locks).filterMap fun p => g.site? p.1 p.2 :=
  rfl

/-- No edge of a cycle is left out of its deadlock. -/
theorem map_some_sites_deadlock {g : LockGraph} (hg : g.WellFormed) {locks : List String}
    (hlocks : locks ∈ g.cycles) : (deadlock g locks).sites.map some =
      (cyclePairs locks).map fun p => g.site? p.1 p.2 := by
  rw [sites_deadlock, List.map_filterMap, List.filterMap_eq_map_iff_forall_eq_some]
  intro p hp
  obtain ⟨s, hs⟩ := Option.isSome_iff_exists.1 (hasEdge_of_mem_cyclePairs hg hlocks hp)
  rw [hs, Option.map_some]

/-- **A deadlock has a site for each of its locks**, where this lock is held and the next one is
taken. It is the first such site, units in order and acquisitions before calls. -/
theorem sites_of_mem_findings (settings : LockOrderSettings) (units : List SourceUnit) (d : Deadlock)
    (hd : d ∈ (run settings units).1.findings) :
    d.sites.length = d.locks.length ∧
      ∀ i < d.locks.length, ∃ s, d.sites[i]? = some s ∧ d.locks[i]? = some s.held ∧
        d.locks[(i + 1) % d.locks.length]? = some s.acquired ∧
        firstSite? settings units s.held s.acquired = some s := by
  have hwf := wellFormed_graph_run settings units
  rw [run_eq] at hd
  obtain ⟨locks, hlocks, rfl⟩ := List.mem_map.1 hd
  have hsites := map_some_sites_deadlock hwf hlocks
  rw [locks_deadlock]
  constructor
  · have hlength := congrArg List.length hsites
    rwa [List.length_map, List.length_map, length_cyclePairs] at hlength
  · intro i hi
    have hlt : (i + 1) % locks.length < locks.length := Nat.mod_lt _ (by omega)
    let p := (locks[i], locks[(i + 1) % locks.length])
    have hpair : (cyclePairs locks)[i]? = some p :=
      (getElem?_cyclePairs hi).2 ⟨List.getElem?_eq_getElem hi, List.getElem?_eq_getElem hlt⟩
    have hedge := hasEdge_of_mem_cyclePairs hwf hlocks (List.mem_of_getElem? hpair)
    obtain ⟨s, hs⟩ := Option.isSome_iff_exists.1 hedge
    obtain ⟨hheld, hacquired⟩ : s.held = p.1 ∧ s.acquired = p.2 := by
      simpa using List.find?_some hs
    have hsite : (deadlock (run settings units).2 locks).sites[i]?.map some = some (some s) := by
      rw [← List.getElem?_map, hsites, List.getElem?_map, hpair, Option.map_some, hs]
    refine ⟨s, by simpa using hsite, ?_, ?_, ?_⟩
    · rw [hheld, List.getElem?_eq_getElem hi]
    · rw [hacquired, List.getElem?_eq_getElem hlt]
    · rw [hheld, hacquired, ← site?_run settings units (hwf.ends _ _ hedge).2.2]
      exact hs

open Node

/-- Takes two locks in both orders. The edge from the first lock to the second is shown twice, by a
call in `swap` and then by `copy` itself, and the edge back by a call only. -/
def box : SourceUnit :=
  .ofStatements "box.py"
    [classOf (ident 0 "Box")
      [function (ident 1 "swap") ["self"]
        [withOn ((ident 2 "self").dot "lock_a") [invoke (ident 3 "self") "fill"]],
      function (ident 4 "fill") ["self"] [withOn ((ident 5 "self").dot "lock_b") [pass 6]],
      function (ident 7 "copy") ["self"]
        [withOn ((ident 8 "self").dot "lock_a")
          [withOn ((ident 9 "self").dot "lock_b") [pass 10]]],
      function (ident 11 "drop") ["self"]
        [withOn ((ident 12 "self").dot "lock_b") [invoke (ident 13 "self") "take"]],
      function (ident 14 "take") ["self"] [withOn ((ident 15 "self").dot "lock_a") [pass 16]]]]

theorem graph_box : (run {} [torn, box]).2 = ⟨["Box.lock_a", "Box.lock_b"],
    [⟨"Box.lock_a", "Box.lock_b", "box.py", 10, "Box.copy"⟩,
      ⟨"Box.lock_b", "Box.lock_a", "box.py", 14, "Box.drop -> Box.take"⟩]⟩ := by
  decide +kernel

theorem cycles_box : (run {} [torn, box]).2.cycles = [["Box.lock_a", "Box.lock_b"]] := by
  rw [graph_box]
  cbv

/-- The acquisition in `copy` counts as the first site, though the call in `swap` comes before
it. -/
theorem sites_of_mem_findings_box : ∃ d ∈ (run {} [torn, box]).1.findings,
    d.locks = ["Box.lock_a", "Box.lock_b"] ∧
    d.sites = [⟨"Box.lock_a", "Box.lock_b", "box.py", 10, "Box.copy"⟩,
      ⟨"Box.lock_b", "Box.lock_a", "box.py", 14, "Box.drop -> Box.take"⟩] := by
  have hlocks : (run {} [torn, box]).1.findings.map Deadlock.locks =
      [["Box.lock_a", "Box.lock_b"]] := (map_locks_deadlocks _).trans cycles_box
  obtain ⟨d, hd, hd'⟩ := List.mem_map.1 (hlocks ▸ List.mem_singleton_self _)
  obtain ⟨hlength, hsites⟩ := sites_of_mem_findings {} [torn, box] d hd
  rw [hd'] at hlength hsites
  obtain ⟨s, t, hst⟩ := List.length_eq_two.1 hlength
  rw [hst] at hsites
  obtain ⟨s', hs', hheld, hacquired, hs⟩ := hsites 0 (by decide)
  obtain ⟨t', ht', hheld', hacquired', ht⟩ := hsites 1 (by decide)
  obtain rfl : s = s' := Option.some.inj hs'
  obtain rfl : t = t' := Option.some.inj ht'
  rw [← Option.some.inj hheld, ← Option.some.inj hacquired] at hs
  rw [← Option.some.inj hheld', ← Option.some.inj hacquired'] at ht
  have hab : firstSite? {} [torn, box] "Box.lock_a" "Box.lock_b" =
      some ⟨"Box.lock_a", "Box.lock_b", "box.py", 10, "Box.copy"⟩ := by decide +kernel
  have hba : firstSite? {} [torn, box] "Box.lock_b" "Box.lock_a" =
      some ⟨"Box.lock_b", "Box.lock_a", "box.py", 14, "Box.drop -> Box.take"⟩ := by decide +kernel
  refine ⟨d, hd, hd', ?_⟩
  rw [hst, Option.some.inj (hs.symm.trans hab), Option.some.inj (ht.symm.trans hba)]

end LockOrder

end Interlock
