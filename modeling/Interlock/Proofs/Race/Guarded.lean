import Interlock.Proofs.Flow.Agreement
import Interlock.Proofs.Race.Report
import Interlock.Proofs.Syntax.Build

/-!
# Guarded writes are no races

A write is guarded by its place in the text (`Place.Guarded`) if it stands inside a lock or after an
acquisition, if no other thread can be there yet, or if it is atomic by itself. An attribute whose
writes are all guarded is never reported (`RaceAnalysis.ne_of_mem_races`).

Three steps lead there: the walk holds a lock wherever the text says so (`fits_walk`), an access
with a lock held is classified as protected, and a state is reported only for a recorded write that
nothing protects (`RaceAnalysis.exists_unprotected`).
-/

namespace Interlock

open Syntax Lock Lock.HeldLocks

/-! ## Writes and their guards -/

namespace Place

/-- The access that stands at a place, with its routine. -/
def access? (p : Place) : Option (Routine × AttrAccess) :=
  match p.mark with
  | .probe (.access _ a) => some (p.routine, a)
  | _ => none

/-- The write that stands at a place, with whether it stands in a lambda. -/
def write? (p : Place) : Option (Bool × AttrAccess) :=
  match p.mark with
  | .probe (.access detached a) => if a.kind = .write then some (detached, a) else none
  | _ => none

/-- A write to the attribute of a given name stands at the place. -/
def WritesTo (p : Place) (name : String) : Prop :=
  ∃ w ∈ p.write?, ∃ c ∈ p.routine.owner, s!"{c}.{w.2.attr}" = name

/-- What makes a write safe by its place: a lock around it or an acquisition before it, unless it
stands in a lambda; a class body or a constructor; an atomic method, or any method of a thread-safe
container. -/
def Guarded (p : Place) : Prop :=
  ∀ w ∈ p.write?,
    (w.1 = false ∧ (p.surroundings.around ≠ [] ∨ p.surroundings.taken ≠ [])) ∨
    p.routine.kind = .classBody ∨
    (p.routine.kind = .method ∧ p.routine.shortName ∈ constructorMethods) ∨
    ∃ method ∈ w.2.viaMethod, method ∈ atomicMethods ∨ w.2.threadSafe.isSome

instance (p : Place) (name : String) : Decidable (p.WritesTo name) :=
  inferInstanceAs (Decidable (∃ w ∈ p.write?, ∃ c ∈ p.routine.owner, s!"{c}.{w.2.attr}" = name))

instance (p : Place) : Decidable p.Guarded :=
  inferInstanceAs (Decidable (∀ w ∈ p.write?, _))

end Place

/-- The access that an event reports, with its routine. -/
def Event.access? : Event → Option (Routine × AttrAccess)
  | .access r _ a => some (r, a)
  | _ => none

theorem Place.Fits.access?_eq {p : Place} {e : Event} (h : p.Fits e) : e.access? = p.access? := by
  obtain ⟨held, -, rfl⟩ := h
  obtain ⟨r, mark, σ⟩ := p
  cases mark with
  | enter | take => rfl
  | probe p => cases p <;> rfl

theorem Place.filterMap_access? {ps : List Place} {es : List Event}
    (h : List.Forall₂ Place.Fits ps es) :
    es.filterMap Event.access? = ps.filterMap Place.access? := by
  induction h with
  | nil => rfl
  | cons hp _ ih => simp only [List.filterMap_cons, hp.access?_eq, ih]

/-! ## Protections -/

theorem Protection.classify_isSome_iff {r : Routine} {lock : Option String} {a : AttrAccess}
    {concurrent : Bool} : (classify r lock a concurrent).isSome ↔
      lock.isSome ∨ (atomicIdiom? a).isSome ∨ (confinement? r concurrent).isSome := by
  cases lock with
  | some l => simp [classify]
  | none => cases h : atomicIdiom? a <;> simp [classify, h]

theorem Protection.atomicIdiom?_isSome_iff {a : AttrAccess} : (atomicIdiom? a).isSome ↔
    ∃ method ∈ a.viaMethod, method ∈ atomicMethods ∨ a.threadSafe.isSome := by
  cases h : a.viaMethod with
  | none => simp [atomicIdiom?, h]
  | some method =>
    simp only [atomicIdiom?, h, bind, Option.bind]
    split <;> simp_all

theorem Protection.confinement?_isSome {r : Routine} {concurrent : Bool}
    (h : r.kind = .classBody ∨ r.kind = .method ∧ r.shortName ∈ constructorMethods) :
    (confinement? r concurrent).isSome := by
  unfold confinement?
  split
  · rfl
  · rename_i hclass
    rw [if_pos (by simpa using h.resolve_left hclass)]
    rfl

theorem Surroundings.Fits.innermost?_isSome {σ : Surroundings} {held : HeldLocks} (h : σ.Fits held)
    (hσ : σ.around ≠ [] ∨ σ.taken ≠ []) : held.innermost?.isSome := by
  have hne : held ≠ [] := by
    rintro rfl
    rcases hσ with hσ | hσ
    · exact hσ (by simpa using h.lexicals.symm)
    · obtain ⟨lock, hlock⟩ := List.exists_mem_of_ne_nil _ hσ
      exact List.not_mem_nil (h.taken lock hlock)
  rw [innermost?, List.getLast?_eq_some_getLast hne]
  rfl

/-- What an access event says of its place. -/
theorem Place.Fits.exists_access {p : Place} {r : Routine} {held : HeldLocks} {a : AttrAccess}
    (h : p.Fits (.access r held a)) : ∃ detached held', p.routine = r ∧
      p.mark = .probe (.access detached a) ∧ p.surroundings.Fits held' ∧
      held = if detached then [] else held' := by
  obtain ⟨r', mark, σ⟩ := p
  obtain ⟨held', hσ, he⟩ := h
  cases mark with
  | enter | take => cases he
  | probe p =>
    cases p with
    | ownCall => cases he
    | access detached a' =>
      simp only [Mark.event, Probe.event, Event.access.injEq] at he
      obtain ⟨rfl, rfl, rfl⟩ := he
      exact ⟨detached, held', rfl, rfl, hσ, rfl⟩

/-- **A guarded write is classified as protected**, whether or not threads are about. -/
theorem Place.Guarded.classify_isSome {p : Place} {r : Routine} {held : HeldLocks} {a : AttrAccess}
    (hp : p.Guarded) (hfits : p.Fits (.access r held a)) (hwrite : a.kind = .write)
    (concurrent : Bool) : (Protection.classify r held.innermost? a concurrent).isSome := by
  obtain ⟨detached, held', rfl, hmark, hσ, rfl⟩ := hfits.exists_access
  rw [Protection.classify_isSome_iff]
  rcases hp (detached, a) (by simp [Place.write?, hmark, hwrite]) with ⟨rfl, haround⟩ | h | h | h
  · exact .inl (hσ.innermost?_isSome haround)
  · exact .inr (.inr (Protection.confinement?_isSome (.inl h)))
  · exact .inr (.inr (Protection.confinement?_isSome (.inr h)))
  · exact .inr (.inl (Protection.atomicIdiom?_isSome_iff.2 h))

/-! ## No races -/

/-- **An attribute whose writes are all guarded by their places is never reported.** The places are
those of the accesses that the walk reports, in order. -/
theorem RaceAnalysis.ne_of_mem_races (settings : RaceSettings) (u : SourceUnit)
    (hu : u.check = .ok ()) (name : String)
    (h : ∀ p ∈ placesOf ⟨settings.lockNames⟩ u, p.WritesTo name → p.Guarded) :
    (walk .must ⟨settings.lockNames⟩ u).filterMap Event.access? =
        (placesOf ⟨settings.lockNames⟩ u).filterMap Place.access? ∧
      ∃ found, races settings u = .ok found ∧ ∀ race ∈ found, race.state.name ≠ name := by
  refine ⟨Place.filterMap_access? (fits_walk _ _ _), racesAmong settings (statesOf settings u), ?_,
    fun race hrace hname => ?_⟩
  · simp only [races, states, hu]
    rfl
  · obtain ⟨r, held, a, c, he, hc, hstate, hwrite, hnone⟩ := exists_unprotected hrace
    obtain ⟨p, hp, hfits⟩ := Place.exists_fits (fits_walk _ _ _) he
    have hto : p.WritesTo name := by
      obtain ⟨detached, held', rfl, hmark, -, -⟩ := hfits.exists_access
      exact ⟨(detached, a), by simp [Place.write?, hmark, hwrite], c, hc, hstate.trans hname⟩
    have hsome := (h p hp hto).classify_isSome hfits hwrite
      (isConcurrent settings u (.ofEvents (walk .must ⟨settings.lockNames⟩ u)))
    rw [hnone] at hsome
    cases hsome

open Node in
/-- A class with one attribute, written once between an `acquire` and the `finally` that gives the
lock back, and once below an `if` inside a `with` statement. -/
def RaceAnalysis.lockedCounter : SourceUnit :=
  .ofStatements "counter.py"
    [classOf (ident 0 "Counter")
      [function (ident 1 "reset") ["self"]
        [invoke ((ident 2 "self").dot "lock") "acquire",
          tryFinally 3 [assign ((ident 4 "self").dot "count")]
            [invoke ((ident 6 "self").dot "lock") "release"]],
      function (ident 7 "clear") ["self", "flag"]
        [withOn ((ident 8 "self").dot "lock")
          [ifOn (ident 9 "flag") [assign ((ident 10 "self").dot "count")]]]]]

theorem RaceAnalysis.ne_of_mem_races_lockedCounter :
    (∃ p ∈ placesOf ⟨[]⟩ lockedCounter, p.WritesTo "Counter.count") ∧
      ∃ found, races { assumeConcurrent := true } lockedCounter = .ok found ∧
        ∀ race ∈ found, race.state.name ≠ "Counter.count" :=
  ⟨by decide +kernel,
    (ne_of_mem_races { assumeConcurrent := true } lockedCounter rfl "Counter.count"
      (by decide +kernel)).2⟩

end Interlock
