import Interlock.Proofs.Order
import Interlock.Proofs.Race.Table
import Interlock.Proofs.Syntax.Build
import Interlock.Proofs.Text.Bytes

/-!
# What the race analysis of a unit reports

There is one race for each shared state with a write that nothing protects, and no other
(`RaceAnalysis.map_state_racesAmong`). The states of a unit have different names, so that the races
stand in a strict order (`RaceAnalysis.pairwise_racesAmong`). What a race says is read off the
accesses to its attribute, as the walk lists them: which points it has, how serious it is and how it
is worded (`RaceAnalysis.race?_eq_some`). Behind it stands a write event that nothing protects
(`RaceAnalysis.exists_unprotected`).

`RaceAnalysis.races_report` puts this together for a unit that can be analysed.
-/

namespace Interlock

open Syntax

namespace RecordedAccess

/-- A write that nothing protects. -/
def isOpen (concurrent : Bool) (r : RecordedAccess) : Bool :=
  r.isWrite && (r.protection concurrent).isNone

/-- A write with a lock held or by an atomic operation. -/
def IsSynchronized (concurrent : Bool) (r : RecordedAccess) : Prop :=
  r.access.kind = .write ∧ ((∃ lock, r.protection concurrent = some (.lockHeld lock)) ∨
    ∃ idiom, r.protection concurrent = some (.atomic idiom))

theorem isSynchronized_iff {concurrent : Bool} {r : RecordedAccess} : r.IsSynchronized concurrent ↔
    r.isWrite = true ∧ (r.protection concurrent).any Protection.synchronizes = true := by
  rw [IsSynchronized, isWrite, decide_eq_true_eq]
  cases r.protection concurrent with
  | none => simp
  | some p => cases p <;> simp [Protection.synchronizes]

instance (concurrent : Bool) (r : RecordedAccess) : Decidable (r.IsSynchronized concurrent) :=
  decidable_of_iff _ isSynchronized_iff.symm

end RecordedAccess

/-- The order of the races of a unit: by line, those of one line by name. -/
def Race.Precedes (a b : Race) : Prop :=
  a.state.line < b.state.line ∨
    a.state.line = b.state.line ∧ Text.bytes a.state.name < Text.bytes b.state.name

namespace RaceAnalysis

open StateTable

/-- The title of a race begins in a given way, and so does its description after the name. -/
def WordedAs (title opening : String) (race : Race) : Prop :=
  race.id = findingId analyzer.name race.state.path race.state.line (title ++ race.state.name) ∧
    ∃ rest, race.description = "`" ++ race.state.name ++ opening ++ rest

/-- The race is worded as inconsistent locking. -/
def SaysInconsistent : Race → Prop :=
  WordedAs "Inconsistent locking on " "` is written with synchronization ("

/-- The race is worded as a lack of any locking. -/
def SaysUnprotected : Race → Prop :=
  WordedAs "Unprotected write to " "` is written without synchronization at "

/-- A race is worded in one way only. -/
theorem not_saysUnprotected {race : Race} (h : SaysInconsistent race) : ¬ SaysUnprotected race := by
  obtain ⟨-, rest, hrest⟩ := h
  rintro ⟨-, rest', hrest'⟩
  have htext := congrArg String.toList (hrest.symm.trans hrest')
  simp [String.toList_append] at htext

/-! ## The writes of a state -/

section Track

variable {path : String} {concurrent : Bool} {entry : String × List RecordedAccess}

theorem writes_track : (track path concurrent entry).writes =
    (entry.2.filter RecordedAccess.isWrite).map fun r =>
      (r.point path concurrent, r.protection concurrent) := by
  simp only [TrackedState.writes, track, List.zip_map', List.filter_map]
  rfl

theorem unprotected_track : unprotected (track path concurrent entry) =
    (entry.2.filter (RecordedAccess.isOpen concurrent)).map (·.point path concurrent) := by
  simp only [unprotected, writes_track, List.filter_map, List.map_map, List.filter_filter]
  have hopen : (fun r => ((fun w : AccessPoint × Option Protection => w.2.isNone) ∘ fun r =>
      (r.point path concurrent, r.protection concurrent)) r && r.isWrite) =
      RecordedAccess.isOpen concurrent := by
    funext r
    exact Bool.and_comm _ _
  rw [hopen]
  rfl

theorem unprotected_track_isEmpty : (unprotected (track path concurrent entry)).isEmpty =
    !entry.2.any (RecordedAccess.isOpen concurrent) := by
  rw [unprotected_track, List.isEmpty_map, Bool.eq_iff_iff]
  simp [List.filter_eq_nil_iff]

theorem synchronized_track_isEmpty : (synchronized (track path concurrent entry)).isEmpty = true ↔
    ¬ ∃ r ∈ entry.2, r.IsSynchronized concurrent := by
  rw [List.isEmpty_iff, synchronized, List.filterMap_eq_nil_iff, writes_track]
  simp only [List.forall_mem_map, List.mem_filter, and_imp, not_exists, not_and,
    RecordedAccess.isSynchronized_iff]
  refine forall₃_congr fun r _ _ => ?_
  cases r.protection concurrent <;> simp

end Track

/-! ## One race -/

theorem medium_le_severity (highFrequency criticalData : Bool) :
    Severity.medium ≤ Risk.severity ⟨true, highFrequency, criticalData, true⟩ := by
  cases highFrequency <;> cases criticalData <;> decide

theorem map_state_race? (settings : RaceSettings) (t : TrackedState) :
    (race? settings t).map Race.state =
      if (unprotected t).isEmpty then none else some t.state := by
  rw [race?]
  split <;> rfl

theorem race?_eq_some {settings : RaceSettings} {t : TrackedState} {race : Race}
    (h : race? settings t = some race) :
    race.state = t.state ∧ race.points = t.state.points ∧ .medium ≤ race.severity ∧
      race.id = findingId analyzer.name t.state.path t.state.line (wording t).1 ∧
      race.description = (wording t).2 ∧ (unprotected t).isEmpty = false := by
  rw [race?] at h
  split at h
  · cases h
  · rename_i hopen
    obtain rfl := Option.some.inj h
    exact ⟨rfl, rfl, medium_le_severity _ _, rfl, rfl, Bool.eq_false_iff.2 hopen⟩

/-- A race is worded as inconsistent locking if other writes are synchronised, and otherwise as a
lack of any locking. -/
theorem worded_of_race? {settings : RaceSettings} {t : TrackedState} {race : Race}
    (h : race? settings t = some race) :
    if (synchronized t).isEmpty then SaysUnprotected race else SaysInconsistent race := by
  obtain ⟨hstate, -, -, hid, hdescription, -⟩ := race?_eq_some h
  rw [wording] at hid hdescription
  split
  · rename_i hempty
    rw [if_pos hempty] at hid hdescription
    refine ⟨by rw [hid, hstate]; rfl, ?_⟩
    rw [hdescription, hstate]
    exact ⟨_, by simp only [String.append_assoc]; rfl⟩
  · rename_i hempty
    rw [if_neg hempty] at hid hdescription
    refine ⟨by rw [hid, hstate]; rfl, ?_⟩
    rw [hdescription, hstate]
    exact ⟨_, by simp only [String.append_assoc]; rfl⟩

/-- A race is worded as inconsistent locking exactly if some write is synchronised. -/
theorem says_iff {settings : RaceSettings} {path : String} {concurrent : Bool}
    {entry : String × List RecordedAccess} {race : Race}
    (h : race? settings (track path concurrent entry) = some race) :
    (SaysInconsistent race ↔ ∃ r ∈ entry.2, r.IsSynchronized concurrent) ∧
      (SaysUnprotected race ↔ ¬ ∃ r ∈ entry.2, r.IsSynchronized concurrent) := by
  have hworded := worded_of_race? h
  by_cases hsync : ∃ r ∈ entry.2, r.IsSynchronized concurrent
  · rw [if_neg fun hempty => synchronized_track_isEmpty.1 hempty hsync] at hworded
    exact ⟨iff_of_true hworded hsync, iff_of_false (not_saysUnprotected hworded) (not_not.2 hsync)⟩
  · rw [if_pos (synchronized_track_isEmpty.2 hsync)] at hworded
    exact ⟨iff_of_false (fun h' => not_saysUnprotected h' hworded) hsync, iff_of_true hworded hsync⟩

/-! ## The races among some states -/

variable (settings : RaceSettings) (tracked : List TrackedState)

/-- What the races of a unit are sorted by. -/
def sortKey (race : Race) : Nat ×ₗ String := toLex (race.state.line, race.state.name)

theorem ordersBy_sortKey : OrdersBy compareRaces sortKey :=
  (ordersBy_compare fun race : Race => race.state.line).andThen
    (ordersBy_compare fun race : Race => race.state.name)

theorem precedes_iff {a b : Race} : a.Precedes b ↔ sortKey a < sortKey b := by
  rw [Race.Precedes, ← Text.lt_iff_bytes_lt, sortKey, sortKey, Prod.Lex.toLex_lt_toLex]

theorem racesAmong_perm : (racesAmong settings tracked).Perm (tracked.filterMap (race? settings)) :=
  List.mergeSort_perm _ _

/-- There is one race for each state with an open write, and no other. -/
theorem map_state_racesAmong : ((racesAmong settings tracked).map Race.state).Perm
    ((tracked.filter fun t => !(unprotected t).isEmpty).map TrackedState.state) := by
  refine ((racesAmong_perm settings tracked).map _).trans (.of_eq ?_)
  rw [List.map_filterMap]
  induction tracked with
  | nil => rfl
  | cons t rest ih =>
    rw [List.filterMap_cons, map_state_race?, List.filter_cons]
    cases (unprotected t).isEmpty with
    | true => exact ih
    | false => exact congrArg _ ih

theorem nodup_names_racesAmong (h : (tracked.map fun t => t.state.name).Nodup) :
    ((racesAmong settings tracked).map fun race => race.state.name).Nodup := by
  have hperm := (map_state_racesAmong settings tracked).map SharedState.name
  rw [List.map_map, List.map_map] at hperm
  exact hperm.nodup_iff.2 (h.sublist (List.filter_sublist.map _))

theorem pairwise_racesAmong (h : (tracked.map fun t => t.state.name).Nodup) :
    (racesAmong settings tracked).Pairwise Race.Precedes := by
  have hle : (racesAmong settings tracked).Pairwise fun a b => sortKey a ≤ sortKey b :=
    ordersBy_sortKey.pairwise_mergeSort _
  have hnames := List.pairwise_map.1 (nodup_names_racesAmong settings tracked h)
  refine (hle.and hnames).imp fun ⟨hab, hne⟩ => ?_
  refine precedes_iff.2 (lt_of_le_of_ne hab fun e => hne ?_)
  exact congrArg (fun k => (ofLex k).2) e

/-! ## The races of a unit -/

theorem statesOf_eq (u : SourceUnit) :
    let events := walk .must ⟨settings.lockNames⟩ u
    let concurrent := isConcurrent settings u (.ofEvents events)
    statesOf settings u =
      (namesIn events).map fun name => track u.path concurrent (name, accessesTo events name) := by
  intro events concurrent
  rw [statesOf, StateTable.states, entries_ofEvents, List.map_map]
  rfl

theorem exists_race? {u : SourceUnit} {race : Race}
    (h : race ∈ racesAmong settings (statesOf settings u)) :
    let events := walk .must ⟨settings.lockNames⟩ u
    let concurrent := isConcurrent settings u (.ofEvents events)
    ∃ name, race? settings (track u.path concurrent (name, accessesTo events name)) = some race := by
  obtain ⟨t, ht, hrace⟩ := List.mem_filterMap.1 ((racesAmong_perm settings _).mem_iff.1 h)
  rw [statesOf_eq] at ht
  obtain ⟨name, -, rfl⟩ := List.mem_map.1 ht
  exact ⟨name, hrace⟩

/-- **Behind a race stands a write event that nothing protects.** -/
theorem exists_unprotected {settings : RaceSettings} {u : SourceUnit} {race : Race}
    (h : race ∈ racesAmong settings (statesOf settings u)) :
    let events := walk .must ⟨settings.lockNames⟩ u
    ∃ r held a c, .access r held a ∈ events ∧ r.owner = some c ∧
      s!"{c}.{a.attr}" = race.state.name ∧ a.kind = .write ∧
      Protection.classify r held.innermost? a (isConcurrent settings u (.ofEvents events)) =
        none := by
  intro events
  obtain ⟨name, hrace⟩ := exists_race? settings h
  obtain ⟨hstate, -, -, -, -, hopen⟩ := race?_eq_some hrace
  rw [unprotected_track_isEmpty, Bool.not_eq_false', List.any_eq_true] at hopen
  obtain ⟨x, hx, hopen⟩ := hopen
  obtain ⟨hwrite, hnone⟩ := Bool.and_eq_true_iff.1 hopen
  obtain ⟨held, c, he, hc, hname, hlock⟩ := exists_event hx
  refine ⟨x.routine, held, x.access, c, he, hc, ?_, of_decide_eq_true hwrite, ?_⟩
  · rw [hname, hstate]
    rfl
  · rw [← hlock]
    exact Option.isNone_iff_eq_none.1 hnone

theorem nodup_names_statesOf (u : SourceUnit) :
    ((statesOf settings u).map fun t => t.state.name).Nodup := by
  have hnames : (statesOf settings u).map (fun t => t.state.name) =
      namesIn (walk .must ⟨settings.lockNames⟩ u) := by
    rw [statesOf_eq, List.map_map]
    exact List.map_id _
  rw [hnames]
  exact nodup_namesIn _

theorem states_eq {u : SourceUnit} (hu : u.check = .ok ()) :
    states settings u = .ok (statesOf settings u) := by
  simp only [states, hu]
  rfl

theorem races_eq {u : SourceUnit} (hu : u.check = .ok ()) :
    races settings u = .ok (racesAmong settings (statesOf settings u)) := by
  rw [races, states_eq settings hu]
  rfl

/-- **What the analysis of a unit reports.** Each shared state with a write that nothing protects is
reported once, and no other state is. A race is at least of medium severity, has all accesses to its
attribute in the order of the events, and is worded as inconsistent locking exactly if another write
of the attribute is made with a lock held or by an atomic operation. The races are in strict order,
and so no two of them have one name. -/
theorem races_report (u : SourceUnit) (hu : u.check = .ok ()) :
    let events := walk .must ⟨settings.lockNames⟩ u
    let concurrent := isConcurrent settings u (.ofEvents events)
    ∃ tracked found, states settings u = .ok tracked ∧ races settings u = .ok found ∧
      (found.map Race.state).Perm ((tracked.filter fun t =>
        (accessesTo events t.state.name).any (·.isOpen concurrent)).map TrackedState.state) ∧
      (found.map fun race => race.state.name).Nodup ∧ found.Pairwise Race.Precedes ∧
      ∀ race ∈ found, .medium ≤ race.severity ∧ race.points = race.state.points ∧
        race.points = (accessesTo events race.state.name).map (·.point u.path concurrent) ∧
        (SaysInconsistent race ↔
          ∃ r ∈ accessesTo events race.state.name, r.IsSynchronized concurrent) ∧
        (SaysUnprotected race ↔
          ¬ ∃ r ∈ accessesTo events race.state.name, r.IsSynchronized concurrent) := by
  intro events concurrent
  have hnodup := nodup_names_statesOf settings u
  refine ⟨_, _, states_eq settings hu, races_eq settings hu, ?_,
    nodup_names_racesAmong settings _ hnodup, pairwise_racesAmong settings _ hnodup,
    fun race hrace => ?_⟩
  · refine (map_state_racesAmong settings _).trans
      (.of_eq (congrArg _ (List.filter_congr fun t ht => ?_)))
    rw [statesOf_eq] at ht
    obtain ⟨name, -, rfl⟩ := List.mem_map.1 ht
    rw [unprotected_track_isEmpty, Bool.not_not]
    rfl
  · obtain ⟨name, hrace⟩ := exists_race? settings hrace
    obtain ⟨hstate, hpoints, hseverity, -⟩ := race?_eq_some hrace
    obtain ⟨hinconsistent, hunprotected⟩ := says_iff hrace
    have hname : race.state.name = name := congrArg SharedState.name hstate
    rw [hname]
    exact ⟨hseverity, by rw [hpoints, hstate], hpoints, hinconsistent, hunprotected⟩

open Node in
/-- A class with two attributes that its constructor sets. Of the later writes to `count` one is
made with a lock held, and of those to `total` none. -/
def stock : SourceUnit :=
  .ofStatements "stock.py"
    [classOf (ident 0 "Stock")
      [function (ident 1 "__init__") ["self"]
        [assign ((ident 2 "self").dot "count"), assign ((ident 3 "self").dot "total")],
      function (ident 4 "add") ["self"]
        [withOn ((ident 5 "self").dot "lock") [assign ((ident 6 "self").dot "count")]],
      function (ident 7 "reset") ["self"]
        [assign ((ident 8 "self").dot "count"), assign ((ident 9 "self").dot "total")]]]

/-- The writes of the constructor protect neither attribute and do not count as locking. -/
theorem races_report_stock : stock.check = .ok () ∧ ∃ found, races {} stock = .ok found ∧
    (found.map fun race => race.state.name).Perm ["Stock.count", "Stock.total"] ∧
    ∀ race ∈ found, (race.state.name = "Stock.count" → SaysInconsistent race) ∧
      (race.state.name = "Stock.total" → SaysUnprotected race) := by
  obtain ⟨tracked, found, htracked, hfound, hperm, -, -, hraces⟩ := races_report {} stock rfl
  obtain rfl : statesOf {} stock = tracked := Except.ok.inj htracked
  refine ⟨rfl, found, hfound, ?_, fun race hrace => ⟨fun hname => ?_, fun hname => ?_⟩⟩
  · have hnames := hperm.map SharedState.name
    rw [List.map_map, List.map_map] at hnames
    refine hnames.trans (.of_eq ?_)
    decide +kernel
  · refine (hraces race hrace).2.2.2.1.2 ?_
    rw [hname]
    decide +kernel
  · refine (hraces race hrace).2.2.2.2.2 ?_
    rw [hname]
    decide +kernel

end RaceAnalysis

end Interlock
