import Interlock.Flow.Statement
import Interlock.Proofs.Lock.Held

/-!
# Held locks have been taken

Every lock that an event reports as held has been taken by an event of the same walk and in the same
routine (`exists_taken_in_routine`): holds arise only where a lock is taken, a join adds none, and a
routine starts with none.
-/

namespace Interlock

open Lock Lock.HeldLocks

namespace Event

/-- The routine in which an event happens. -/
def routine : Event → Routine
  | enter r => r
  | acquire r _ _ _ => r
  | access r _ _ => r
  | ownCall r _ _ _ => r

/-- The locks that are held when an event happens. -/
def held : Event → HeldLocks
  | enter _ => []
  | acquire _ held _ _ => held
  | access _ held _ => held
  | ownCall _ held _ _ => held

/-- The lock that an event takes. -/
def taken? : Event → Option String
  | acquire _ _ lock _ => some lock
  | _ => none

theorem exists_of_taken? {e : Event} {lock : String} (h : e.taken? = some lock) :
    ∃ r held line, e = .acquire r held lock line := by
  cases e with
  | acquire r held lock' line =>
    obtain rfl : lock' = lock := Option.some.inj h
    exact ⟨r, held, line, rfl⟩
  | enter | access | ownCall => cases h

end Event

/-- Only locks with a given property are held. -/
def HoldsOnly (P : String → Prop) (held : HeldLocks) : Prop := ∀ l ∈ held, P l.name

/-- Only locks with a property that a routine gives are taken in it. -/
def TakesOnly (P : Routine → String → Prop) (events : List Event) : Prop :=
  ∀ e ∈ events, ∀ lock ∈ e.taken?, P e.routine lock

/-- At every event only locks with the property that its routine gives are held. -/
def SeesOnly (P : Routine → String → Prop) (events : List Event) : Prop :=
  ∀ e ∈ events, HoldsOnly (P e.routine) e.held

section Holds

variable {P : String → Prop} {held : HeldLocks} {lock : String}

theorem HoldsOnly.push {lexical : Bool} (h : HoldsOnly P held) (hlock : P lock) :
    HoldsOnly P (held.push lock lexical) := by
  intro l hl
  rcases mem_push.1 hl with hl | rfl
  · exact h l hl
  · exact hlock

theorem HoldsOnly.release {lexical : Bool} (h : HoldsOnly P held) :
    HoldsOnly P (held.release lock lexical) :=
  fun l hl => h l (mem_of_mem_release hl)

/-- A join adds no lock that was not held on some path or before. -/
theorem HoldsOnly.merge {mode : HoldMode} {ends : List HeldLocks} (h : HoldsOnly P held)
    (hends : ∀ fin ∈ ends, HoldsOnly P fin) : HoldsOnly P (held.merge mode ends) := by
  intro l hl
  rcases mem_of_mem_merge hl with hl | ⟨fin, hfin, hl⟩
  · exact h l hl
  · exact hends fin hfin l hl

end Holds

variable {P : Routine → String → Prop} {held : HeldLocks} {es es' : List Event}

theorem takesOnly_append : TakesOnly P (es ++ es') ↔ TakesOnly P es ∧ TakesOnly P es' :=
  List.forall_mem_append

theorem takesOnly_cons {e : Event} :
    TakesOnly P (e :: es) ↔ (∀ lock ∈ e.taken?, P e.routine lock) ∧ TakesOnly P es :=
  List.forall_mem_cons

theorem SeesOnly.append (h : SeesOnly P es) (h' : SeesOnly P es') : SeesOnly P (es ++ es') :=
  List.forall_mem_append.2 ⟨h, h'⟩

theorem SeesOnly.cons {e : Event} (h : HoldsOnly (P e.routine) e.held) (h' : SeesOnly P es) :
    SeesOnly P (e :: es) :=
  List.forall_mem_cons.2 ⟨h, h'⟩

theorem routine_event (r : Routine) (p : Probe) : (p.event r held).routine = r := by
  cases p <;> rfl

theorem holdsOnly_event {r : Routine} (h : HoldsOnly (P r) held) (p : Probe) :
    HoldsOnly (P (p.event r held).routine) (p.event r held).held := by
  rw [routine_event]
  cases p with
  | access detached a =>
    cases detached with
    | true => exact fun l hl => absurd hl List.not_mem_nil
    | false => exact h
  | ownCall detached method line =>
    cases detached with
    | true => exact fun l hl => absurd hl List.not_mem_nil
    | false => exact h

namespace Flow

mutual

/-- **If a walk takes only locks with some property, it holds no others.** The induction follows the
walk; a routine that is defined inside starts with no lock. -/
theorem run_seesOnly {mode : HoldMode} {r : Routine} {held : HeldLocks} (f : Flow)
    (h : HoldsOnly (P r) held) (ht : TakesOnly P (run mode r held f).1) :
    SeesOnly P (run mode r held f).1 ∧ HoldsOnly (P r) (run mode r held f).2 := by
  cases f with
  | probe p => exact ⟨.cons (holdsOnly_event h p) (by simp [SeesOnly]), h⟩
  | acquire lock line =>
    simp only [run, takesOnly_cons] at ht ⊢
    exact ⟨.cons h (by simp [SeesOnly]), h.push (ht.1 lock rfl)⟩
  | release lock => exact ⟨by simp [run, SeesOnly], h.release⟩
  | within lock line body =>
    simp only [run, takesOnly_cons] at ht ⊢
    have ih := runAll_seesOnly body (h.push (ht.1 lock rfl)) ht.2
    exact ⟨.cons h ih.1, ih.2.release⟩
  | branch arms exhaustive =>
    simp only [run] at ht ⊢
    have ih := runArms_seesOnly arms h ht
    refine ⟨ih.1, h.merge ?_⟩
    split
    · exact ih.2
    · exact List.forall_mem_append.2 ⟨ih.2, by simpa using h⟩
  | attempt parts final =>
    simp only [run, takesOnly_append] at ht ⊢
    have ih := runParts_seesOnly parts h (by simp) ht.1
    have ihfin := runAll_seesOnly final (h.merge ih.2) ht.2
    exact ⟨ih.1.append ihfin.1, ihfin.2⟩
  | routine inner body =>
    simp only [run, takesOnly_cons] at ht ⊢
    have ih := runAll_seesOnly body (by simp [HoldsOnly]) ht.2
    exact ⟨.cons (by simp [Event.held, HoldsOnly]) ih.1, h⟩

theorem runAll_seesOnly {mode : HoldMode} {r : Routine} {held : HeldLocks} (fs : List Flow)
    (h : HoldsOnly (P r) held) (ht : TakesOnly P (runAll mode r held fs).1) :
    SeesOnly P (runAll mode r held fs).1 ∧ HoldsOnly (P r) (runAll mode r held fs).2 := by
  cases fs with
  | nil => exact ⟨by simp [runAll, SeesOnly], h⟩
  | cons f rest =>
    simp only [runAll, takesOnly_append] at ht ⊢
    have ih := run_seesOnly f h ht.1
    have ihrest := runAll_seesOnly rest ih.2 ht.2
    exact ⟨ih.1.append ihrest.1, ihrest.2⟩

theorem runArms_seesOnly {mode : HoldMode} {r : Routine} {held : HeldLocks} (arms : List Arm)
    (h : HoldsOnly (P r) held) (ht : TakesOnly P (runArms mode r held arms).1) :
    SeesOnly P (runArms mode r held arms).1 ∧
      ∀ fin ∈ (runArms mode r held arms).2, HoldsOnly (P r) fin := by
  match arms with
  | [] => simp [runArms, SeesOnly]
  | .probe p :: rest =>
    simp only [runArms, takesOnly_cons] at ht ⊢
    have ih := runArms_seesOnly rest h ht.2
    exact ⟨.cons (holdsOnly_event h p) ih.1, ih.2⟩
  | .block body :: rest =>
    simp only [runArms, takesOnly_append] at ht ⊢
    have ihbody := runAll_seesOnly body h ht.1
    have ih := runArms_seesOnly rest h ht.2
    exact ⟨ihbody.1.append ih.1, List.forall_mem_cons.2 ⟨ihbody.2, ih.2⟩⟩

/-- A part of a `try` starts from the holds before it or from an end that the walk has come to. -/
theorem runParts_seesOnly {mode : HoldMode} {r : Routine} {held : HeldLocks}
    {ends : List HeldLocks} {body? : Option Nat} (parts : List Part) (h : HoldsOnly (P r) held)
    (hends : ∀ fin ∈ ends, HoldsOnly (P r) fin)
    (ht : TakesOnly P (runParts mode r held ends body? parts).1) :
    SeesOnly P (runParts mode r held ends body? parts).1 ∧
      ∀ fin ∈ (runParts mode r held ends body? parts).2, HoldsOnly (P r) fin := by
  match parts with
  | [] => exact ⟨by simp [runParts, SeesOnly], hends⟩
  | .body b :: rest =>
    simp only [runParts, takesOnly_append] at ht ⊢
    have ihbody := runAll_seesOnly b h ht.1
    have ih := runParts_seesOnly rest h
      (List.forall_mem_append.2 ⟨hends, by simpa using ihbody.2⟩) ht.2
    exact ⟨ihbody.1.append ih.1, ih.2⟩
  | .handler arms :: rest =>
    simp only [runParts, takesOnly_append] at ht ⊢
    have iharms := runArms_seesOnly arms h ht.1
    have ih := runParts_seesOnly rest h (List.forall_mem_append.2 ⟨hends, iharms.2⟩) ht.2
    exact ⟨iharms.1.append ih.1, ih.2⟩
  | .orElse arms :: rest =>
    match body? with
    | none =>
      simp only [runParts, takesOnly_append] at ht ⊢
      have iharms := runArms_seesOnly arms h ht.1
      have ih := runParts_seesOnly rest h (List.forall_mem_append.2 ⟨hends, iharms.2⟩) ht.2
      exact ⟨iharms.1.append ih.1, ih.2⟩
    | some i =>
      simp only [runParts, takesOnly_append] at ht ⊢
      have hstart : HoldsOnly (P r) (ends.getD i held) := forall_getD h hends i
      have iharms := runArms_seesOnly arms hstart ht.1
      have ih := runParts_seesOnly rest h
        (fun fin hfin => (List.mem_or_eq_of_mem_set hfin).elim (hends fin)
          fun e => e ▸ hstart.merge iharms.2) ht.2
      exact ⟨iharms.1.append ih.1, ih.2⟩

end

end Flow

/-- **A held lock has been taken** in the same walk and in the same routine. -/
theorem exists_taken_in_routine {mode : HoldMode} {names : Names} {u : Syntax.SourceUnit}
    {e : Event} (he : e ∈ walk mode names u) {name : String} (hname : name ∈ e.held.names) :
    ∃ e' ∈ walk mode names u, e'.routine = e.routine ∧ e'.taken? = some name := by
  let P : Routine → String → Prop := fun r lock =>
    ∃ e' ∈ walk mode names u, e'.routine = r ∧ e'.taken? = some lock
  have hall : SeesOnly P (Flow.runAll mode Scope.topLevel [] (Flow.ofUnit names u)).1 :=
    (Flow.runAll_seesOnly _ (by simp [HoldsOnly]) fun e' he' lock hlock =>
      ⟨e', List.mem_cons_of_mem _ he', rfl, hlock⟩).1
  obtain ⟨l, hl, rfl⟩ := mem_names.1 hname
  rcases List.mem_cons.1 he with rfl | he
  · exact absurd hl List.not_mem_nil
  · exact hall e he l hl

/-- A lock that is held somewhere in a file is taken somewhere in it. -/
theorem exists_taken_of_mem_held {mode : HoldMode} {names : Names} {u : Syntax.SourceUnit}
    {e : Event} (he : e ∈ walk mode names u) {name : String} (hname : name ∈ e.held.names) :
    ∃ e' ∈ walk mode names u, e'.taken? = some name := by
  obtain ⟨e', he', -, htaken⟩ := exists_taken_in_routine he hname
  exact ⟨e', he', htaken⟩

end Interlock
