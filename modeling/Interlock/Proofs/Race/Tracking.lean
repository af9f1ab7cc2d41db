import Interlock.Proofs.Race.Table
import Mathlib.Algebra.BigOperators.Group.List.Lemmas
import Mathlib.Algebra.Order.Ring.Nat
import Mathlib.Data.List.Forall2

/-!
# Every access is tracked once

Whatever events are fed to the table, each access made in a class ends up in exactly one shared
state, next to what protects it (`StateTable.states_ofEvents`). The states stand in the order of the
first accesses to them, and the points of a state in the order of the events (`Event.Shown`), so
that the points and the protections of a state go together entry by entry.

The table is a grouping of the accesses by name (`StateTable.entries_ofEvents`); what is left is to
follow one access from its event to its group (`StateTable.forall₂_accessesTo`) and to count
(`StateTable.sum_length_accessesTo`).
-/

namespace Interlock

open Lock

namespace Event

/-- The name of the attribute that an event accesses, if the access is made in a class. -/
def stateName? : Event → Option String
  | access r _ a => r.owner.map fun c => s!"{c}.{a.attr}"
  | enter _ | acquire _ _ _ _ | ownCall _ _ _ _ => none

/-- An access with the point that reports it and with what protects it, given the innermost lock
held at the event. -/
inductive Shown (path : String) (concurrent : Bool) :
    Event → AccessPoint × Option Protection → Prop
  | access {r : Routine} {held : HeldLocks} {a : AttrAccess} {protection : Option Protection}
    (classified : protection = Protection.classify r held.innermost? a concurrent) :
    Shown path concurrent (access r held a)
      ({ kind := a.kind
         path
         line := a.line
         lockHeld := held.innermost?.isSome
         routine := r.name
         readModifyWrite := a.readModifyWrite
         receiver := some a.receiver
         protection := protection.map Protection.label },
        protection)

variable {e : Event} {name : String} {r : RecordedAccess}

theorem map_fst_recorded? (e : Event) : e.recorded?.map Prod.fst = e.stateName? := by
  cases e with
  | access r held a => cases h : r.owner <;> simp [recorded?, stateName?, h]
  | enter | acquire | ownCall => rfl

theorem shown_of_recorded? (path : String) (concurrent : Bool) (h : e.recorded? = some (name, r)) :
    e.Shown path concurrent (r.point path concurrent, r.protection concurrent) := by
  obtain ⟨held, c, rfl, -, -, hlock⟩ := recorded?_eq_some h
  obtain ⟨routine, lock, a⟩ := r
  obtain rfl : lock = held.innermost? := hlock
  exact .access rfl

end Event

namespace StateTable

variable (events : List Event) (name : String)

theorem namesIn_eq : namesIn events = (events.filterMap Event.stateName?).eraseDups := by
  rw [namesIn, List.map_filterMap]
  simp only [Event.map_fst_recorded?]

/-- The accesses to an attribute are recorded one by one, in the order of the events. -/
theorem forall₂_accessesTo :
    List.Forall₂ (fun e r => e.recorded? = some (name, r))
      (events.filter fun e => e.stateName? = some name) (accessesTo events name) := by
  induction events with
  | nil => exact .nil
  | cons e rest ih =>
    have hname := e.map_fst_recorded?
    rw [accessesTo] at ih ⊢
    cases hrecorded : e.recorded? with
    | none =>
      rw [hrecorded] at hname
      rw [List.filter_cons_of_neg (by simp [← hname]), List.filterMap_cons_none hrecorded]
      exact ih
    | some x =>
      rw [hrecorded, Option.map_some] at hname
      rw [List.filterMap_cons_some hrecorded]
      by_cases hx : x.1 = name
      · rw [List.filter_cons_of_pos (by simp [← hname, hx]), List.filter_cons_of_pos (by simp [hx]),
          List.map_cons]
        exact .cons (by rw [hrecorded, ← hx]) ih
      · rw [List.filter_cons_of_neg (by simp [← hname, hx]), List.filter_cons_of_neg (by simp [hx])]
        exact ih

theorem length_accessesTo :
    (accessesTo events name).length = (events.filterMap Event.stateName?).count name := by
  rw [← (forall₂_accessesTo events name).length_eq, List.count_filterMap,
    List.countP_eq_length_filter]
  refine congrArg List.length (List.filter_congr fun e _ => ?_)
  exact Bool.eq_iff_iff.2 (by simp)

/-- The groups have as many members as there are accesses. -/
theorem sum_length_accessesTo :
    ((namesIn events).map fun name => (accessesTo events name).length).sum =
      (events.filterMap Event.stateName?).length := by
  have hperm : (events.filterMap Event.stateName?).eraseDups.Perm
      (events.filterMap Event.stateName?).dedup :=
    (List.perm_ext_iff_of_nodup (Graph.nodup_eraseDups _) (List.nodup_dedup _)).2 fun a => by
      rw [List.mem_eraseDups, List.mem_dedup]
  simp only [length_accessesTo, namesIn_eq]
  rw [(hperm.map _).sum_eq, List.sum_map_count_dedup_eq_length]

theorem sawLock_ofEvents : (ofEvents events).sawLock = true ↔
    ∃ r held lock line, .acquire r held lock line ∈ events := by
  induction events using List.reverseRecOn with
  | nil => simp [ofEvents, empty]
  | append_singleton before e ih =>
    rw [ofEvents, List.foldl_append, List.foldl_cons, List.foldl_nil, ← ofEvents]
    cases e with
    | acquire r held lock line =>
      simpa [record] using ⟨r, held, lock, line, .inr ⟨rfl, rfl, rfl, rfl⟩⟩
    | access r held a => cases hc : r.owner <;> simp [record, hc, ih]
    | enter | ownCall => simp [record, ih]

/-! ## The states -/

variable (path : String) (concurrent : Bool)

theorem states_eq_map : (ofEvents events).states path concurrent =
    (namesIn events).map fun name => track path concurrent (name, accessesTo events name) := by
  rw [states, entries_ofEvents, List.map_map]
  rfl

theorem map_name_states : (((ofEvents events).states path concurrent).map fun t => t.state.name) =
    (events.filterMap Event.stateName?).eraseDups := by
  rw [states_eq_map, List.map_map, ← namesIn_eq]
  exact List.map_id' _

/-- The points of a state with their protections are the accesses to its attribute. -/
theorem forall₂_shown {t : TrackedState} (h : t ∈ (ofEvents events).states path concurrent) :
    List.Forall₂ (Event.Shown path concurrent)
      (events.filter fun e => e.stateName? = some t.state.name)
      (t.state.points.zip t.protections) := by
  rw [states_eq_map] at h
  obtain ⟨name, -, rfl⟩ := List.mem_map.1 h
  change List.Forall₂ _ (events.filter fun e => e.stateName? = some name)
    (((accessesTo events name).map _).zip ((accessesTo events name).map _))
  rw [List.zip_map', List.forall₂_map_right_iff]
  exact (forall₂_accessesTo events name).imp fun e r => Event.shown_of_recorded? path concurrent

theorem length_protections {t : TrackedState} (h : t ∈ (ofEvents events).states path concurrent) :
    t.protections.length = t.state.points.length := by
  obtain ⟨entry, -, rfl⟩ := List.mem_map.1 h
  simp [track]

theorem sum_length_points :
    (((ofEvents events).states path concurrent).map fun t => t.state.points.length).sum =
      events.countP fun e => e.stateName?.isSome := by
  rw [← List.length_filterMap_eq_countP, ← sum_length_accessesTo, states_eq_map, List.map_map]
  refine congrArg List.sum (List.map_congr_left fun name _ => ?_)
  simp [track]

/-- **Every access is tracked once,** with what protects it, and the table knows after any number of
events how many states there are and whether a lock was taken. -/
theorem states_ofEvents (events : List Event) (path : String) (concurrent : Bool) :
    let tracked := (ofEvents events).states path concurrent
    (tracked.map fun t => t.state.name) = (events.filterMap Event.stateName?).eraseDups ∧
      (∀ t ∈ tracked, t.protections.length = t.state.points.length ∧
        List.Forall₂ (Event.Shown path concurrent)
          (events.filter fun e => e.stateName? = some t.state.name)
          (t.state.points.zip t.protections)) ∧
      (tracked.map fun t => t.state.points.length).sum =
        events.countP (fun e => e.stateName?.isSome) ∧
      ∀ n,
        let table := ofEvents (events.take n)
        table.entries.length = (table.states path concurrent).length ∧
        table.entries.length = ((events.take n).filterMap Event.stateName?).eraseDups.length ∧
        (table.sawLock = true ↔ ∃ r held lock line, .acquire r held lock line ∈ events.take n) := by
  refine ⟨map_name_states events path concurrent, fun t ht => ⟨?_, ?_⟩,
    sum_length_points events path concurrent, fun n => ⟨?_, ?_, sawLock_ofEvents _⟩⟩
  · exact length_protections events path concurrent ht
  · exact forall₂_shown events path concurrent ht
  · rw [states, List.length_map]
  · rw [entries_ofEvents, List.length_map, namesIn_eq]

/-- A counter that is written once inside a lock and once outside, a name in between, and an access
outside classes. -/
def counterEvents : List Event :=
  let bump : Routine := ⟨"Stock.bump", "bump", some "Stock", .method⟩
  let rename : Routine := ⟨"Stock.rename", "rename", some "Stock", .method⟩
  let write (attr : String) (line : Nat) : AttrAccess :=
    ⟨attr, .write, line, false, "self", none, none⟩
  [.acquire bump [] "Stock.lock" 3, .access bump [⟨"Stock.lock", true⟩] (write "count" 4),
    .access rename [] (write "name" 6), .access Scope.topLevel [] (write "count" 8),
    .access rename [] (write "count" 7)]

theorem states_ofEvents_counter :
    ∃ t ∈ (ofEvents counterEvents).states "stock.py" true,
      t.state.name = "Stock.count" ∧ t.protections = [some (.lockHeld "Stock.lock"), none] ∧
      List.Forall₂ (Event.Shown "stock.py" true)
        (counterEvents.filter fun e => e.stateName? = some t.state.name)
        (t.state.points.zip t.protections) :=
  ⟨_, List.mem_cons_self, rfl, rfl,
    ((states_ofEvents counterEvents "stock.py" true).2.1 _ List.mem_cons_self).2⟩

end StateTable

end Interlock
