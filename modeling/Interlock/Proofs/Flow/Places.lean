import Interlock.Flow.Basic
import Interlock.Proofs.Lock.Held
import Mathlib.Data.List.Forall2

/-!
# Places in a flow

Where something stands in a routine says which locks are held there (`Surroundings`): those of the
decorators and `with` statements around it, and those that an `acquire` took before it in its block
or in one around it, as long as no `release` stands in between.

`Flow.placesAll` lists what a walk reports with the surroundings of each report, and
`Flow.fits_runAll` says that the walk agrees with it in both modes: it reports the same in the same
order, with the lexical holds that the surroundings give and with every lock taken before.
-/

namespace Interlock

open Lock Lock.HeldLocks

/-- What stands around a place in its routine. -/
structure Surroundings where
  /-- The locks of the decorators and `with` items around the place, outermost first. -/
  around : List String
  /-- The locks that an `acquire` takes before the place, in its block or in one around it, with no
  `release` in between. -/
  taken : List String
  deriving DecidableEq, Repr, Inhabited

namespace Surroundings

/-- Nothing stands around the start of a routine. -/
def empty : Surroundings := ⟨[], []⟩

/-- One lock further in. -/
def inside (σ : Surroundings) (lock : String) : Surroundings :=
  { σ with around := σ.around ++ [lock] }

/-- After an `acquire`. -/
def take (σ : Surroundings) (lock : String) : Surroundings := { σ with taken := lock :: σ.taken }

/-- After statements that give back some locks. -/
def past (σ : Surroundings) (drops : List String) : Surroundings :=
  { σ with taken := σ.taken.filter fun lock => !drops.contains lock }

/-- Among the same lexical locks, and after fewer acquisitions. -/
structure Le (σ τ : Surroundings) : Prop where
  around : σ.around = τ.around
  taken : σ.taken ⊆ τ.taken

/-- The holds are as the surroundings say. -/
structure Fits (σ : Surroundings) (held : HeldLocks) : Prop where
  lexicals : held.lexicals = σ.around.map (⟨·, true⟩)
  taken : ∀ lock ∈ σ.taken, ⟨lock, false⟩ ∈ held

variable {σ τ ρ : Surroundings} {held : HeldLocks} {lock : String} {drops drops' : List String}

theorem Le.refl : σ.Le σ := ⟨rfl, List.Subset.refl _⟩

theorem Le.trans (h : σ.Le τ) (h' : τ.Le ρ) : σ.Le ρ :=
  ⟨h.around.trans h'.around, List.Subset.trans h.taken h'.taken⟩

theorem Le.inside (h : σ.Le τ) : (σ.inside lock).Le (τ.inside lock) :=
  ⟨congrArg (· ++ [lock]) h.around, h.taken⟩

theorem Le.take (h : σ.Le τ) : (σ.take lock).Le (τ.take lock) :=
  ⟨h.around, List.cons_subset_cons lock h.taken⟩

theorem mem_taken_past : lock ∈ (σ.past drops).taken ↔ lock ∈ σ.taken ∧ lock ∉ drops := by
  simp [past]

theorem past_le : (σ.past drops).Le σ := ⟨rfl, fun _ h => (mem_taken_past.1 h).1⟩

theorem past_append : σ.past (drops ++ drops') = (σ.past drops).past drops' := by
  simp only [past, List.filter_filter, Surroundings.mk.injEq, true_and]
  refine List.filter_congr fun lock _ => ?_
  simp [Bool.and_comm]

@[simp] theorem past_nil : σ.past [] = σ := by
  simp [past]

/-- The more is given back, the less is known to be taken. -/
theorem Le.past (h : σ.Le τ) (hdrops : drops' ⊆ drops) : (σ.past drops).Le (τ.past drops') := by
  refine ⟨h.around, fun lock hlock => ?_⟩
  obtain ⟨htaken, hnot⟩ := mem_taken_past.1 hlock
  exact mem_taken_past.2 ⟨h.taken htaken, fun hmem => hnot (hdrops hmem)⟩

theorem fits_empty : empty.Fits [] := ⟨rfl, by simp [empty]⟩

theorem Fits.mono (h : τ.Fits held) (hle : σ.Le τ) : σ.Fits held :=
  ⟨hle.around ▸ h.lexicals, fun lock hlock => h.taken lock (hle.taken hlock)⟩

theorem Fits.acquire (h : σ.Fits held) : (σ.take lock).Fits (held.push lock false) := by
  refine ⟨lexicals_push_open.trans h.lexicals, fun name hname => mem_push.2 ?_⟩
  rcases List.mem_cons.1 hname with rfl | hname
  · exact .inr rfl
  · exact .inl (h.taken name hname)

/-- Of a lock that is given back no acquisition is left to speak of. -/
theorem Fits.release (h : σ.Fits held) : (σ.past [lock]).Fits (held.release lock false) := by
  refine ⟨lexicals_release_open.trans h.lexicals, fun name hname => ?_⟩
  obtain ⟨htaken, hne⟩ := mem_taken_past.1 hname
  exact mem_release_of_ne (by simpa using hne) (h.taken name htaken)

/-- A lock that is taken lexically is the innermost of those around. -/
theorem Fits.enter (h : σ.Fits held) (lock : String) :
    (σ.inside lock).Fits (held.push lock true) := by
  refine ⟨?_, fun name hname => mem_push.2 (.inl (h.taken name hname))⟩
  rw [lexicals_push_lexical, h.lexicals, inside, List.map_append, List.map_singleton]

/-- On leaving, the lexical lock is taken off again, and what was acquired before is still held
unless it was given back inside. -/
theorem Fits.leave {inner : HeldLocks} (h : σ.Fits held)
    (hin : ((σ.inside lock).past drops).Fits inner) :
    (σ.past drops).Fits (inner.release lock true) := by
  have hlex : inner.lexicals = held.lexicals ++ [⟨lock, true⟩] := by
    rw [hin.lexicals, h.lexicals]
    simp [inside, Surroundings.past]
  refine ⟨(lexicals_release_lexical hlex).trans h.lexicals, fun name hname => ?_⟩
  exact mem_release_of_ne (by simp) (hin.taken name hname)

/-- A join keeps what all paths and the holds before them have in common. -/
theorem Fits.merge (mode : HoldMode) {ends : List HeldLocks} (h : σ.Fits held)
    (hends : ∀ fin ∈ ends, σ.Fits fin) : σ.Fits (held.merge mode ends) := by
  refine ⟨?_, fun lock hlock => mem_merge (h.taken lock hlock) fun fin hfin =>
    (hends fin hfin).taken lock hlock⟩
  rw [lexicals_merge fun fin hfin => (hends fin hfin).lexicals.trans h.lexicals.symm, h.lexicals]

end Surroundings

/-! ## Places -/

/-- What a walk reports at a place. -/
inductive Mark where
  /-- The start of a routine. -/
  | enter
  /-- A lock is taken. -/
  | take (lock : String) (line : Nat)
  | probe (p : Probe)
  deriving DecidableEq, Repr, Inhabited

/-- A report with where it stands. -/
structure Place where
  routine : Routine
  mark : Mark
  surroundings : Surroundings
  deriving DecidableEq, Repr, Inhabited

/-- The event by which something is reported in a routine with some locks held. -/
def Mark.event (r : Routine) (held : HeldLocks) : Mark → Event
  | enter => .enter r
  | take lock line => .acquire r held lock line
  | probe p => p.event r held

/-- The event is what stands at the place, reported with holds that fit its surroundings. -/
def Place.Fits (p : Place) (e : Event) : Prop :=
  ∃ held, p.surroundings.Fits held ∧ e = p.mark.event p.routine held

namespace Flow

mutual

/-- The locks that a flow gives back explicitly. -/
def drops : Flow → List String
  | .release lock => [lock]
  | .within _ _ body => dropsAll body
  | .branch arms _ => dropsArms arms
  | .attempt parts final => dropsParts parts ++ dropsAll final
  | .probe _ | .acquire _ _ | .routine _ _ => []

def dropsAll : List Flow → List String
  | [] => []
  | f :: rest => drops f ++ dropsAll rest

def dropsArms : List Arm → List String
  | [] => []
  | .probe _ :: rest => dropsArms rest
  | .block body :: rest => dropsAll body ++ dropsArms rest

def dropsParts : List Part → List String
  | [] => []
  | .body body :: rest => dropsAll body ++ dropsParts rest
  | .orElse arms :: rest | .handler arms :: rest => dropsArms arms ++ dropsParts rest

end

end Flow

/-- The surroundings after a statement. -/
def Surroundings.after (σ : Surroundings) : Flow → Surroundings
  | .acquire lock _ => σ.take lock
  | f => σ.past f.drops

/-- The surroundings after some statements. -/
def Surroundings.afterAll (σ : Surroundings) (fs : List Flow) : Surroundings := fs.foldl after σ

namespace Flow

mutual

/-- What a flow reports, with where it stands. -/
def places (r : Routine) (σ : Surroundings) : Flow → List Place
  | .probe p => [⟨r, .probe p, σ⟩]
  | .acquire lock line => [⟨r, .take lock line, σ⟩]
  | .release _ => []
  | .within lock line body => ⟨r, .take lock line, σ⟩ :: placesAll r (σ.inside lock) body
  | .branch arms _ => placesArms r σ arms
  | .attempt parts final => placesParts r σ parts ++ placesAll r (σ.past (dropsParts parts)) final
  | .routine inner body => ⟨inner, .enter, .empty⟩ :: placesAll inner .empty body

/-- What a block reports. -/
def placesAll (r : Routine) (σ : Surroundings) : List Flow → List Place
  | [] => []
  | f :: rest => places r σ f ++ placesAll r (σ.after f) rest

/-- What the arms of a branching statement report. -/
def placesArms (r : Routine) (σ : Surroundings) : List Arm → List Place
  | [] => []
  | .probe p :: rest => ⟨r, .probe p, σ⟩ :: placesArms r σ rest
  | .block body :: rest => placesAll r σ body ++ placesArms r (σ.past (dropsAll body)) rest

/-- What the parts of a `try` report. -/
def placesParts (r : Routine) (σ : Surroundings) : List Part → List Place
  | [] => []
  | .body body :: rest => placesAll r σ body ++ placesParts r (σ.past (dropsAll body)) rest
  | .orElse arms :: rest | .handler arms :: rest =>
    placesArms r σ arms ++ placesParts r (σ.past (dropsArms arms)) rest

end

end Flow

/-! ## The walk agrees with the places -/

namespace Surroundings

variable {σ τ : Surroundings} {held : HeldLocks}

/-- After a statement at least that much is taken as what it does not give back. -/
theorem past_le_after (σ : Surroundings) (f : Flow) : (σ.past f.drops).Le (σ.after f) := by
  cases f with
  | acquire lock line => exact ⟨rfl, fun _ h => List.mem_cons_of_mem _ (mem_taken_past.1 h).1⟩
  | _ => exact .refl

theorem past_le_afterAll (σ : Surroundings) (fs : List Flow) :
    (σ.past (Flow.dropsAll fs)).Le (σ.afterAll fs) := by
  induction fs generalizing σ with
  | nil => exact past_le
  | cons f rest ih =>
    rw [Flow.dropsAll, past_append]
    exact ((past_le_after σ f).past (List.Subset.refl _)).trans (ih (σ.after f))

@[simp] theorem after_probe (σ : Surroundings) (p : Probe) : σ.after (.probe p) = σ := past_nil

@[simp] theorem afterAll_probes (σ : Surroundings) (ps : List Probe) :
    σ.afterAll (ps.map .probe) = σ := by
  induction ps with
  | nil => rfl
  | cons p rest ih =>
    rw [List.map_cons, afterAll, List.foldl_cons, ← afterAll, after_probe, ih]

theorem Fits.past (h : σ.Fits held) (drops : List String) : (σ.past drops).Fits held :=
  h.mono past_le

end Surroundings

/-- What an expression does is reported with the holds of its place, or with none. -/
theorem Place.fits_probe {σ : Surroundings} {held : HeldLocks} (h : σ.Fits held) (r : Routine)
    (p : Probe) : Place.Fits ⟨r, .probe p, σ⟩ (p.event r held) :=
  ⟨held, h, rfl⟩

namespace Flow

open Surroundings

theorem dropsAll_append (fs gs : List Flow) : dropsAll (fs ++ gs) = dropsAll fs ++ dropsAll gs := by
  induction fs with
  | nil => rfl
  | cons f rest ih => simp [dropsAll, ih]

@[simp] theorem dropsAll_probes (ps : List Probe) : dropsAll (ps.map probe) = [] := by
  induction ps with
  | nil => rfl
  | cons p rest ih => simp [dropsAll, drops, ih]

theorem dropsArms_append (as bs : List Arm) :
    dropsArms (as ++ bs) = dropsArms as ++ dropsArms bs := by
  induction as with
  | nil => rfl
  | cons a rest ih => cases a <;> simp [dropsArms, ih]

@[simp] theorem dropsArms_probes (ps : List Probe) : dropsArms (ps.map .probe) = [] := by
  induction ps with
  | nil => rfl
  | cons p rest ih => simp [dropsArms, ih]

theorem dropsParts_append (ps qs : List Part) :
    dropsParts (ps ++ qs) = dropsParts ps ++ dropsParts qs := by
  induction ps with
  | nil => rfl
  | cons p rest ih => cases p <;> simp [dropsParts, ih]

/-- Places of a block, cut in two: the second part stands after the first. -/
theorem placesAll_append (r : Routine) (σ : Surroundings) (fs gs : List Flow) :
    placesAll r σ (fs ++ gs) = placesAll r σ fs ++ placesAll r (σ.afterAll fs) gs := by
  induction fs generalizing σ with
  | nil => rfl
  | cons f rest ih => simp [placesAll, ih, afterAll]

theorem placesArms_append (r : Routine) (σ : Surroundings) (as bs : List Arm) :
    placesArms r σ (as ++ bs) = placesArms r σ as ++ placesArms r (σ.past (dropsArms as)) bs := by
  induction as generalizing σ with
  | nil => simp [placesArms, dropsArms]
  | cons a rest ih => cases a <;> simp [placesArms, dropsArms, ih, past_append]

theorem placesParts_append (r : Routine) (σ : Surroundings) (ps qs : List Part) :
    placesParts r σ (ps ++ qs) =
      placesParts r σ ps ++ placesParts r (σ.past (dropsParts ps)) qs := by
  induction ps generalizing σ with
  | nil => simp [placesParts, dropsParts]
  | cons p rest ih => cases p <;> simp [placesParts, dropsParts, ih, past_append]

variable {mode : HoldMode}

mutual

/-- **The walk of a statement agrees with its places**: it reports what stands there, in this order,
with holds that fit, and so do the holds after it. The induction follows the walk, and the holds at
each point fit the surroundings that the places have there. -/
theorem fits_run (r : Routine) {σ : Surroundings} {held : HeldLocks} (f : Flow) (h : σ.Fits held) :
    List.Forall₂ Place.Fits (places r σ f) (run mode r held f).1 ∧
      (σ.after f).Fits (run mode r held f).2 := by
  cases f with
  | probe p => exact ⟨.cons (Place.fits_probe h r p) .nil, h.past _⟩
  | acquire lock line => exact ⟨.cons ⟨held, h, rfl⟩ .nil, h.acquire⟩
  | release lock => exact ⟨.nil, h.release⟩
  | within lock line body =>
    have ih := fits_runAll r body (h.enter lock)
    exact ⟨.cons ⟨held, h, rfl⟩ ih.1, h.leave ih.2⟩
  | branch arms exhaustive =>
    have ih := fits_runArms r arms h
    refine ⟨ih.1, (h.past _).merge mode ?_⟩
    split
    · exact ih.2
    · exact List.forall_mem_append.2 ⟨ih.2, List.forall_mem_singleton.2 (h.past _)⟩
  | attempt parts final =>
    have ih := fits_runParts r none parts h fun fin hfin => absurd hfin List.not_mem_nil
    have ihfin := fits_runAll r final ((h.past _).merge mode ih.2)
    refine ⟨List.rel_append ih.1 ihfin.1, ?_⟩
    change (σ.past (dropsParts parts ++ dropsAll final)).Fits _
    rw [past_append]
    exact ihfin.2
  | routine inner body =>
    exact ⟨.cons ⟨[], fits_empty, rfl⟩ (fits_runAll inner body fits_empty).1, h.past _⟩

theorem fits_runAll (r : Routine) {σ : Surroundings} {held : HeldLocks} (fs : List Flow)
    (h : σ.Fits held) :
    List.Forall₂ Place.Fits (placesAll r σ fs) (runAll mode r held fs).1 ∧
      (σ.past (dropsAll fs)).Fits (runAll mode r held fs).2 := by
  cases fs with
  | nil => exact ⟨.nil, h.past _⟩
  | cons f rest =>
    have ih := fits_run r f h
    have ihrest := fits_runAll r rest ih.2
    refine ⟨List.rel_append ih.1 ihrest.1, ihrest.2.mono ?_⟩
    rw [dropsAll, past_append]
    exact (past_le_after σ f).past (List.Subset.refl _)

/-- Each arm starts from the holds before the statement, and these fit its surroundings, which only
forget what the arms before it give back. -/
theorem fits_runArms (r : Routine) {σ : Surroundings} {held : HeldLocks} (arms : List Arm)
    (h : σ.Fits held) :
    List.Forall₂ Place.Fits (placesArms r σ arms) (runArms mode r held arms).1 ∧
      ∀ fin ∈ (runArms mode r held arms).2, (σ.past (dropsArms arms)).Fits fin := by
  match arms with
  | [] => exact ⟨.nil, by simp [runArms]⟩
  | .probe p :: rest =>
    have ih := fits_runArms r rest h
    exact ⟨.cons (Place.fits_probe h r p) ih.1, ih.2⟩
  | .block body :: rest =>
    have ihbody := fits_runAll r body h
    have ih := fits_runArms r rest (h.past (dropsAll body))
    refine ⟨List.rel_append ihbody.1 ih.1, List.forall_mem_cons.2 ⟨?_, ?_⟩⟩ <;>
      rw [dropsArms, past_append]
    · exact ihbody.2.past _
    · exact ih.2

/-- The parts of a `try` start from the holds before it or from an end that the walk has come to. -/
theorem fits_runParts (r : Routine) {σ : Surroundings} {held : HeldLocks} {ends : List HeldLocks}
    (body? : Option Nat) (parts : List Part) (h : σ.Fits held) (hends : ∀ fin ∈ ends, σ.Fits fin) :
    List.Forall₂ Place.Fits (placesParts r σ parts) (runParts mode r held ends body? parts).1 ∧
      ∀ fin ∈ (runParts mode r held ends body? parts).2, (σ.past (dropsParts parts)).Fits fin := by
  match parts with
  | [] => exact ⟨.nil, fun fin hfin => (hends fin hfin).past _⟩
  | .body b :: rest =>
    have ihbody := fits_runAll r b h
    have ih := fits_runParts r (some ends.length) rest (h.past (dropsAll b))
      (List.forall_mem_append.2
        ⟨fun fin hfin => (hends fin hfin).past _, List.forall_mem_singleton.2 ihbody.2⟩)
    rw [dropsParts, past_append]
    exact ⟨List.rel_append ihbody.1 ih.1, ih.2⟩
  | .handler arms :: rest =>
    have iharms := fits_runArms r arms h
    have ih := fits_runParts r body? rest (h.past (dropsArms arms)) (List.forall_mem_append.2
      ⟨fun fin hfin => (hends fin hfin).past _, iharms.2⟩)
    rw [dropsParts, past_append]
    exact ⟨List.rel_append iharms.1 ih.1, ih.2⟩
  | .orElse arms :: rest =>
    match body? with
    | none =>
      have iharms := fits_runArms r arms h
      have ih := fits_runParts r none rest (h.past (dropsArms arms)) (List.forall_mem_append.2
        ⟨fun fin hfin => (hends fin hfin).past _, iharms.2⟩)
      rw [dropsParts, past_append]
      exact ⟨List.rel_append iharms.1 ih.1, ih.2⟩
    | some i =>
      have hstart : σ.Fits (ends.getD i held) := forall_getD h hends i
      have iharms := fits_runArms r arms hstart
      have hset : ∀ fin ∈ ends.set i ((ends.getD i held).merge mode
          (runArms mode r (ends.getD i held) arms).2), (σ.past (dropsArms arms)).Fits fin := by
        intro fin hfin
        rcases List.mem_or_eq_of_mem_set hfin with hfin | rfl
        · exact (hends fin hfin).past _
        · exact (hstart.past _).merge mode iharms.2
      have ih := fits_runParts r (some i) rest (h.past (dropsArms arms)) hset
      rw [dropsParts, past_append]
      exact ⟨List.rel_append iharms.1 ih.1, ih.2⟩

end

end Flow

end Interlock
