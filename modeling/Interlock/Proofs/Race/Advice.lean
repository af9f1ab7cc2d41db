import Interlock.Proofs.Flow.Naming
import Interlock.Proofs.Race.Fields

/-!
# The lock that a race report advises to hold

If other writes of a state hold a lock, the report of a race on it advises to hold that lock. The
lock is written anew for the receiver of the unprotected write: what stands before the last dot of
its name is replaced by the receiver (`RaceAnalysis.guardFor`).

This is the lock that the other writes hold, if its name is a plain one, or made of the class of the
state and an attribute (`RaceAnalysis.denotes_guardFor_iff`). It is another one if the lock belongs
to another object: the lock `other.lock` becomes `self.lock`
(`RaceAnalysis.advice_of_lock_borrowed`).
-/

namespace Interlock

open Syntax Lock

namespace RaceAnalysis

open StateTable

/-- The advice to hold a lock around the writes to a target. -/
def holdAdvice (guard target : String) : String :=
  s!"Hold `{guard}` around every write to `{target}` (`with {guard}:`), " ++
    "including the paths that currently skip it."

/-- How a lock is written for a receiver. -/
def guardFor (receiver lock : String) : String :=
  match Text.splitLast? lock with
  | some (_, attr) => s!"{receiver}.{attr}"
  | none => lock

/-- What is written denotes the lock: it is the name of the lock, or the lock is an attribute of the
class and the same attribute of the receiver is written. -/
def Denotes (owner receiver lock guard : String) : Prop :=
  guard = lock ∨ ∃ attr : String, lock = s!"{owner}.{attr}" ∧ guard = s!"{receiver}.{attr}"

variable {name owner receiver lock : String}

theorem suggestion_of_lock (readModifyWrite : Bool) (h : Text.contains lock ".@" = false) :
    suggestion name receiver (some lock) readModifyWrite =
      holdAdvice (guardFor receiver lock) s!"{receiver}.{Text.leaf name}" := by
  simp only [suggestion, h, Bool.false_eq_true, if_false]
  rfl

/-- **When the advice is right**: what stands before the last dot is the class or the receiver. -/
theorem denotes_guardFor_iff : Denotes owner receiver lock (guardFor receiver lock) ↔
    ∀ before attr, Text.splitLast? lock = some (before, attr) →
      before = owner ∨ before = receiver := by
  cases hsplit : Text.splitLast? lock with
  | none =>
    have hguard : guardFor receiver lock = lock := by rw [guardFor, hsplit]
    simp [Denotes, hguard]
  | some parts =>
    obtain ⟨before, attr⟩ := parts
    obtain ⟨rfl, hattr⟩ := Text.splitLast?_eq_some_iff.1 hsplit
    have hguard : guardFor receiver s!"{before}.{attr}" = s!"{receiver}.{attr}" := by
      rw [guardFor, hsplit]
    rw [hguard]
    constructor
    · rintro (heq | ⟨attr', hlock, heq⟩) _ _ ⟨⟩
      · exact .inr (Text.dot_left_inj.1 heq).symm
      · obtain rfl := Text.dot_right_inj.1 heq
        exact .inl (Text.dot_left_inj.1 hlock)
    · intro h
      rcases h before attr rfl with rfl | rfl
      · exact .inr ⟨attr, rfl, rfl⟩
      · exact .inl rfl

/-! ## Behind a report -/

section Track

variable {settings : RaceSettings} {path : String} {concurrent : Bool}
  {entry : String × List RecordedAccess} {race : Race}

/-- The lock of a state is held at one of its writes. -/
theorem exists_write_of_lockName (h : (track path concurrent entry).state.lockName = some lock) :
    ∃ r ∈ entry.2, r.access.kind = .write ∧ r.lock = some lock := by
  obtain ⟨protection, hmem, hheld⟩ := List.exists_of_findSome?_eq_some h
  obtain ⟨r, hr, rfl⟩ := List.mem_map.1 hmem
  obtain ⟨hr, hwrite⟩ := List.mem_filter.1 hr
  exact ⟨r, hr, of_decide_eq_true hwrite,
    Protection.classify_eq_lockHeld_iff.1 (heldLock?_eq_some_iff.1 hheld)⟩

/-- The advice of a race is made for the receiver of an open write. -/
theorem exists_suggestion_eq (h : race? settings (track path concurrent entry) = some race) :
    ∃ r ∈ entry.2, r.isOpen concurrent = true ∧ ∃ readModifyWrite, race.suggestion =
      suggestion entry.1 r.access.receiver (track path concurrent entry).state.lockName
        readModifyWrite := by
  obtain ⟨-, -, -, -, -, hopen⟩ := race?_eq_some h
  rw [race?, if_neg (by simp [hopen])] at h
  obtain rfl := Option.some.inj h
  rw [unprotected_track, List.isEmpty_map] at hopen
  rw [unprotected_track]
  cases hwrites : entry.2.filter (RecordedAccess.isOpen concurrent) with
  | nil => simp [hwrites] at hopen
  | cons r rest =>
    obtain ⟨hr, hropen⟩ := List.mem_filter.1 (hwrites ▸ List.mem_cons_self)
    exact ⟨r, hr, hropen, _, rfl⟩

end Track

/-- **Which lock a report advises to hold.** The advice is made for the receiver of a write that
nothing protects, and the lock is one that another write of the same state holds. What is written
for it denotes that lock exactly if its name is a plain one or has the class of the state or the
receiver before its last dot. So it is if an expression for the lock is not an attribute of another
object. -/
theorem advice_of_lock (settings : RaceSettings) (u : SourceUnit) (hu : u.check = .ok ())
    (hplain : u.tree.Everywhere Node.PlainName) :
    let events := walk .must ⟨settings.lockNames⟩ u
    let concurrent := isConcurrent settings u (.ofEvents events)
    ∃ found, races settings u = .ok found ∧ ∀ race ∈ found, ∀ lock,
      race.state.lockName = some lock → Text.contains lock ".@" = false →
      ∃ owner receiver,
        race.suggestion = holdAdvice (guardFor receiver lock)
          s!"{receiver}.{Text.leaf race.state.name}" ∧
        (∃ r held a, .access r held a ∈ events ∧
          Event.stateName? (.access r held a) = some race.state.name ∧ a.kind = .write ∧
          Protection.classify r held.innermost? a concurrent = none ∧ a.receiver = receiver) ∧
        (Denotes owner receiver lock (guardFor receiver lock) ↔
          ∀ before attr, Text.splitLast? lock = some (before, attr) →
            before = owner ∨ before = receiver) ∧
        ∃ r held a, .access r held a ∈ events ∧ r.owner = some owner ∧
          race.state.name = s!"{owner}.{a.attr}" ∧ a.kind = .write ∧
          held.innermost? = some lock ∧
          (∃ s m, IsLockIn ⟨settings.lockNames⟩ u r lock s m) ∧
          ∀ s m, IsLockIn ⟨settings.lockNames⟩ u r lock s m → ¬ s.Borrows m →
            Denotes owner receiver lock (guardFor receiver lock) := by
  intro events concurrent
  refine ⟨_, races_eq settings hu, fun race hrace lock hlock hmark => ?_⟩
  obtain ⟨name, hrace⟩ := exists_race? settings hrace
  have hstate := (race?_eq_some hrace).1
  have hname : race.state.name = name := congrArg SharedState.name hstate
  rw [hstate] at hlock
  obtain ⟨opened, hopened, hopen, rmw, hsuggestion⟩ := exists_suggestion_eq hrace
  obtain ⟨guarded, hguarded, hwrite, hheld⟩ := exists_write_of_lockName hlock
  obtain ⟨held', owner', he', howner', hname', hlock'⟩ := exists_event hopened
  obtain ⟨held, owner, he, howner, hname'', hheld'⟩ := exists_event hguarded
  have hinnermost : held.innermost? = some lock := hheld'.symm.trans hheld
  refine ⟨owner, opened.access.receiver, ?_, ?_, denotes_guardFor_iff, guarded.routine, held,
    guarded.access, he, howner, hname.trans hname''.symm, hwrite, hinnermost, ?_, ?_⟩
  · rw [hsuggestion, hlock, suggestion_of_lock rmw hmark, hname]
  · obtain ⟨hopenWrite, hnone⟩ := Bool.and_eq_true_iff.1 hopen
    refine ⟨opened.routine, held', opened.access, he', ?_, of_decide_eq_true hopenWrite, ?_, rfl⟩
    · simp [Event.stateName?, howner', hname', hname]
    · rw [← hlock']
      exact Option.isNone_iff_eq_none.1 hnone
  · refine exists_isLockIn_of_mem_held he ?_ hmark
    obtain ⟨l, hl, rfl⟩ := Option.map_eq_some_iff.1 hinnermost
    exact List.mem_map_of_mem (List.mem_of_getLast? hl)
  · intro s m hm hown
    refine denotes_guardFor_iff.2 fun before attr hsplit => ?_
    rcases hm.dotted hplain hown with hdot | ⟨owner', k, howner', rfl, hk⟩
    · rw [Text.splitLast?_of_undotted hdot] at hsplit
      cases hsplit
    · -- the class of the routine is that of the state
      rw [Text.splitLast?_dot owner' hk] at hsplit
      obtain ⟨rfl, rfl⟩ := Prod.mk.inj (Option.some.inj hsplit)
      exact .inl (Option.some.inj (howner'.symm.trans howner))

/-! ## Reports on small files -/

/-- What is shown of a race on one of the states is shown of a race of the unit. -/
theorem exists_race_of_shown {settings : RaceSettings} {u : SourceUnit} {α : Type} {f : Race → α}
    {x : α} (h : some x ∈ (statesOf settings u).map fun t => (race? settings t).map f) :
    ∃ race ∈ racesAmong settings (statesOf settings u), f race = x := by
  obtain ⟨t, ht, hshown⟩ := List.mem_map.1 h
  obtain ⟨race, hrace, hx⟩ := Option.map_eq_some_iff.1 hshown
  exact ⟨race, (racesAmong_perm settings _).mem_iff.2 (List.mem_filterMap.2 ⟨t, ht, hrace⟩), hx⟩

/-- The attribute is written with a lock of its class held, and without. -/
theorem advice_of_lock_stock : stock.check = .ok () ∧ stock.tree.Everywhere Node.PlainName ∧
    ∃ found, races {} stock = .ok found ∧ ∃ race ∈ found,
      race.state.name = "Stock.count" ∧ race.state.lockName = some "Stock.lock" ∧
      race.suggestion = holdAdvice "self.lock" "self.count" ∧
      Denotes "Stock" "self" "Stock.lock" "self.lock" := by
  have hplain : stock.tree.Everywhere Node.PlainName := by decide +kernel
  have hshown : some ("Stock.count", some "Stock.lock") ∈ (statesOf {} stock).map fun t =>
      (race? {} t).map fun race => (race.state.name, race.state.lockName) := by
    decide +kernel
  have haccesses : ∀ x ∈ (walk .must {} stock).filterMap Event.recorded?,
      x.2.routine.owner = some "Stock" ∧ x.2.access.receiver = "self" := by
    decide +kernel
  have hrecorded {r : Routine} {held : HeldLocks} {a : AttrAccess} {owner : String}
      (he : .access r held a ∈ walk .must {} stock) (howner : r.owner = some owner) :
      r.owner = some "Stock" ∧ a.receiver = "self" :=
    haccesses (s!"{owner}.{a.attr}", ⟨r, held.innermost?, a⟩)
      (List.mem_filterMap.2 ⟨_, he, by simp [Event.recorded?, howner]⟩)
  obtain ⟨found, hfound, hadvice⟩ := advice_of_lock {} stock rfl hplain
  obtain rfl : racesAmong {} (statesOf {} stock) = found :=
    Except.ok.inj ((races_eq {} rfl).symm.trans hfound)
  obtain ⟨race, hrace, hx⟩ := exists_race_of_shown hshown
  obtain ⟨hname, hlock⟩ := Prod.mk.inj hx
  obtain ⟨owner, receiver, hsuggestion, ⟨r', held', a', he', hstate, -, -, rfl⟩, hdenotes, r, held, a,
    he, howner, -⟩ := hadvice race hrace _ hlock (by decide +kernel)
  obtain ⟨owner', howner', -⟩ := Option.map_eq_some_iff.1 hstate
  obtain rfl : owner = "Stock" := Option.some.inj (howner.symm.trans (hrecorded he howner).1)
  rw [(hrecorded he' howner').2] at hsuggestion hdenotes
  have hguard : guardFor "self" "Stock.lock" = "self.lock" := by decide +kernel
  rw [hguard, hname] at hsuggestion
  rw [hguard] at hdenotes
  refine ⟨rfl, hplain, _, hfound, race, hrace, hname, hlock,
    hsuggestion.trans (by decide +kernel), hdenotes.2 ?_⟩
  have hsplit : Text.splitLast? "Stock.lock" = some ("Stock", "lock") := by decide +kernel
  rw [hsplit]
  rintro _ _ ⟨⟩
  exact .inl rfl

open Node in
/-- A class with an attribute that one method writes with the lock of another object held. -/
def lender : SourceUnit :=
  .ofStatements "pool.py"
    [classOf (ident 0 "Pool")
      [function (ident 1 "put") ["self", "other"]
        [withOn ((ident 2 "other").dot "lock") [assign ((ident 3 "self").dot "x")]],
      function (ident 4 "drop") ["self"] [assign ((ident 5 "self").dot "x")]]]

/-- The lock of another object is taken for one of the receiver. -/
theorem advice_of_lock_borrowed : lender.check = .ok () ∧
    lender.tree.Everywhere Node.PlainName ∧ ∃ found, races {} lender = .ok found ∧
    ∃ race ∈ found, race.state.name = "Pool.x" ∧ race.state.lockName = some "other.lock" ∧
      Text.contains "other.lock" ".@" = false ∧
      race.suggestion = holdAdvice "self.lock" "self.x" ∧
      ¬ Denotes "Pool" "self" "other.lock" "self.lock" := by
  refine ⟨rfl, by decide +kernel, _, races_eq {} rfl, ?_⟩
  have hshown : some ("Pool.x", some "other.lock", holdAdvice "self.lock" "self.x") ∈
      (statesOf {} lender).map fun t => (race? {} t).map fun race =>
        (race.state.name, race.state.lockName, race.suggestion) := by
    decide +kernel
  obtain ⟨race, hrace, hx⟩ := exists_race_of_shown hshown
  simp only [Prod.mk.injEq] at hx
  obtain ⟨hname, hlock, hsuggestion⟩ := hx
  refine ⟨race, hrace, hname, hlock, by decide +kernel, hsuggestion, fun hdenotes => ?_⟩
  have hsplit : Text.splitLast? "other.lock" = some ("other", "lock") := by decide +kernel
  have hguard : guardFor "self" "other.lock" = "self.lock" := by decide +kernel
  rw [← hguard, denotes_guardFor_iff] at hdenotes
  exact absurd (hdenotes _ _ hsplit) (by decide)

end RaceAnalysis

end Interlock
