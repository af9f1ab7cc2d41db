import Interlock.Proofs.Graph.Reach
import Interlock.Race.Analysis
import Mathlib.Data.List.Induction

/-!
# The table of shared states

The table of a walk has one entry for each attribute that is accessed, in the order of the first
accesses, and an entry lists the accesses to its attribute in the order of the events
(`StateTable.entries_ofEvents`). One event at a time, this is `StateTable.insert_grouped`: an access
is put at the end of its group, or opens a new group at the end.

An access that is listed comes from an access event, with the innermost lock held there
(`StateTable.exists_event`).
-/

namespace Interlock

/-- The access that an event records, with the name of the attribute. -/
def Event.recorded? : Event → Option (String × RecordedAccess)
  | .access r held a => r.owner.map fun c => (s!"{c}.{a.attr}", ⟨r, held.innermost?, a⟩)
  | .enter _ | .acquire _ _ _ _ | .ownCall _ _ _ _ => none

theorem Event.recorded?_eq_some {e : Event} {name : String} {r : RecordedAccess}
    (h : e.recorded? = some (name, r)) :
    ∃ held c, e = .access r.routine held r.access ∧ r.routine.owner = some c ∧
      s!"{c}.{r.access.attr}" = name ∧ r.lock = held.innermost? := by
  cases e with
  | access routine held a =>
    obtain ⟨c, hc, heq⟩ := Option.map_eq_some_iff.1 h
    obtain ⟨rfl, rfl⟩ := Prod.mk.inj heq
    exact ⟨held, c, rfl, hc, rfl, rfl⟩
  | enter | acquire | ownCall => cases h

namespace StateTable

/-- The names of the attributes that events access, in the order of their first accesses. -/
def namesIn (events : List Event) : List String :=
  ((events.filterMap Event.recorded?).map Prod.fst).eraseDups

/-- The accesses to one attribute, in the order of the events. -/
def accessesTo (events : List Event) (name : String) : List RecordedAccess :=
  ((events.filterMap Event.recorded?).filter fun x => x.1 = name).map Prod.snd

theorem nodup_namesIn (events : List Event) : (namesIn events).Nodup := Graph.nodup_eraseDups _

variable {name : String} {r : RecordedAccess}

/-- **Every recorded access comes from an event.** -/
theorem exists_event {events : List Event} (h : r ∈ accessesTo events name) :
    ∃ held c, .access r.routine held r.access ∈ events ∧ r.routine.owner = some c ∧
      s!"{c}.{r.access.attr}" = name ∧ r.lock = held.innermost? := by
  obtain ⟨⟨name', r'⟩, hx, rfl⟩ := List.mem_map.1 h
  obtain ⟨hx, hname⟩ := List.mem_filter.1 hx
  obtain ⟨e, he, hrecorded⟩ := List.mem_filterMap.1 hx
  obtain ⟨held, c, rfl, hc, hname', hlock⟩ := Event.recorded?_eq_some hrecorded
  exact ⟨held, c, he, hc, hname'.trans (of_decide_eq_true hname), hlock⟩

/-! ## One access -/

theorem entries_record (t : StateTable) (e : Event) :
    (t.record e).entries = e.recorded?.elim t.entries fun x => insert x.1 x.2 t.entries := by
  cases e with
  | access r held a => cases hc : r.owner <;> simp [record, Event.recorded?, hc]
  | enter | acquire | ownCall => rfl

theorem insert_of_not_mem {names : List String} {f : String → List RecordedAccess}
    (h : name ∉ names) : insert name r (names.map fun n => (n, f n)) =
      names.map (fun n => (n, f n)) ++ [(name, [r])] := by
  induction names with
  | nil => rfl
  | cons n names ih =>
    obtain ⟨hn, hnames⟩ := not_or.1 (mt List.mem_cons.2 h)
    rw [List.map_cons, insert, if_neg (Ne.symm hn), ih hnames, List.cons_append]

theorem insert_of_mem {names : List String} {f : String → List RecordedAccess}
    (hnodup : names.Nodup) (h : name ∈ names) : insert name r (names.map fun n => (n, f n)) =
      names.map fun n => (n, if n = name then f n ++ [r] else f n) := by
  induction names with
  | nil => cases h
  | cons n names ih =>
    obtain ⟨hn, hnames⟩ := List.nodup_cons.1 hnodup
    rw [List.map_cons, List.map_cons, insert]
    split
    · -- the group is here, so it is nowhere else
      rename_i heq
      subst heq
      refine congrArg _ (List.map_congr_left fun m hm => ?_)
      rw [if_neg (ne_of_mem_of_not_mem hm hn)]
    · rename_i hne
      rw [ih hnames ((List.mem_cons.1 h).resolve_left (Ne.symm hne))]

/-! ## Groups -/

/-- Named accesses, grouped by their names. -/
def grouped (xs : List (String × RecordedAccess)) : List (String × List RecordedAccess) :=
  (xs.map Prod.fst).eraseDups.map fun name => (name, (xs.filter fun x => x.1 = name).map Prod.snd)

/-- A further access joins its group, or opens a new one at the end. -/
theorem insert_grouped (xs : List (String × RecordedAccess)) :
    insert name r (grouped xs) = grouped (xs ++ [(name, r)]) := by
  have hgroup (n : String) : ((xs ++ [(name, r)]).filter fun x => x.1 = n).map Prod.snd =
      (xs.filter fun x => x.1 = n).map Prod.snd ++ if name = n then [r] else [] := by
    by_cases hn : name = n <;> simp [hn]
  simp only [grouped, hgroup, List.map_append, List.map_cons, List.map_nil, List.eraseDups_append]
  by_cases h : name ∈ xs.map Prod.fst
  · have hlast : [name].removeAll (xs.map Prod.fst) = [] := by
      simpa [List.removeAll] using h
    rw [insert_of_mem (Graph.nodup_eraseDups _) (List.mem_eraseDups.2 h), hlast, List.eraseDups_nil,
      List.map_nil, List.append_nil]
    refine List.map_congr_left fun n _ => ?_
    by_cases hn : n = name <;> simp [hn, Ne.symm]
  · have hlast : [name].removeAll (xs.map Prod.fst) = [name] := by
      simpa [List.removeAll] using h
    have hempty : (xs.filter fun x => x.1 = name) = [] :=
      List.filter_eq_nil_iff.2 fun x hx hname =>
        h (List.mem_map.2 ⟨x, hx, of_decide_eq_true hname⟩)
    rw [insert_of_not_mem (mt List.mem_eraseDups.1 h), hlast]
    congr 1
    · refine List.map_congr_left fun n hn => ?_
      rw [if_neg (ne_of_mem_of_not_mem (List.mem_eraseDups.1 hn) h).symm, List.append_nil]
    · simp [List.eraseDups_cons, hempty]

/-- **The table of a walk groups its accesses by name.** -/
theorem entries_ofEvents (events : List Event) : (ofEvents events).entries =
    (namesIn events).map fun name => (name, accessesTo events name) := by
  change _ = grouped (events.filterMap Event.recorded?)
  induction events using List.reverseRecOn with
  | nil => rfl
  | append_singleton before e ih =>
    rw [ofEvents, List.foldl_append, List.foldl_cons, List.foldl_nil, ← ofEvents, entries_record, ih,
      List.filterMap_append]
    cases he : e.recorded? with
    | none => simp [he]
    | some x =>
      rw [Option.elim_some, insert_grouped]
      simp [he]

end StateTable

end Interlock
