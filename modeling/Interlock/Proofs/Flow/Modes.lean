import Interlock.Proofs.Flow.Agreement
import Interlock.Proofs.Flow.Join
import Interlock.Proofs.Flow.Junction
import Interlock.Proofs.Flow.Taken
import Interlock.Proofs.Syntax.Build

/-!
# The two modes side by side

The walks of a file in the two modes report the same, as both report what stands at the places of
the file (`map_bare_walk`). They differ in the holds, and one would expect that what must be held
may be held.

Along straight code this is kept: both walks take and give back the same, so the walk of what may
be held has the same lexical holds and no fewer open ones (`Below`). At a junction it is kept only
if the junction is steady in the lock. Of the open holds that the branches add, the join of what
must be held keeps all, but that of what may be held keeps a single one, and none if the lock was
held before. `walk_modes` says what follows, and `walk_modes_unsteady` that the bound is needed.
-/

namespace Interlock

open Syntax Lock Lock.HeldLocks

/-! ## The same reports -/

namespace Event

/-- The event without its holds. -/
def bare : Event → Event
  | enter r => .enter r
  | acquire r _ lock line => .acquire r [] lock line
  | access r _ a => .access r [] a
  | ownCall r _ method line => .ownCall r [] method line

end Event

theorem Probe.bare_event (p : Probe) (r : Routine) (held : HeldLocks) :
    (p.event r held).bare = p.event r [] := by
  cases p <;> simp [Probe.event, Event.bare]

theorem Mark.bare_event (m : Mark) (r : Routine) (held : HeldLocks) :
    (m.event r held).bare = m.event r [] := by
  cases m with
  | enter => rfl
  | take lock line => rfl
  | probe p => exact p.bare_event r held

/-- Events that fit some places say, apart from their holds, what stands there. -/
theorem Place.map_bare {ps : List Place} {es : List Event} (h : List.Forall₂ Place.Fits ps es) :
    es.map Event.bare = ps.map fun p => p.mark.event p.routine [] := by
  induction h with
  | nil => rfl
  | cons hp _ ih =>
    obtain ⟨held, -, rfl⟩ := hp
    rw [List.map_cons, List.map_cons, Mark.bare_event, ih]

/-- Apart from the holds, a walk depends on the places of the file only. -/
theorem map_bare_walk (mode : HoldMode) (names : Names) (u : SourceUnit) :
    (walk mode names u).map Event.bare =
      (placesOf names u).map fun p => p.mark.event p.routine [] :=
  Place.map_bare (fits_walk mode names u)

/-! ## More holds -/

/-- The same lexical holds, and no more open holds of the lock. -/
structure Below (lock : String) (must may : HeldLocks) : Prop where
  lexicals : must.lexicals = may.lexicals
  opens : must.opens lock ≤ may.opens lock

/-- The join of what must be held leaves the lock with no more holds than before, a first one
apart. -/
def Junction.Steady (lock : String) (j : Junction) : Prop :=
  (j.before.merge .must j.ends).depth lock ≤ max (j.before.depth lock) 1

instance (lock : String) (j : Junction) : Decidable (j.Steady lock) :=
  inferInstanceAs (Decidable (_ ≤ _))

namespace Below

variable {lock name : String} {must may : HeldLocks} {musts mays : List HeldLocks}

theorem refl (held : HeldLocks) : Below lock held held := ⟨rfl, Nat.le_refl _⟩

theorem depth_le (h : Below lock must may) : must.depth lock ≤ may.depth lock := by
  have hopens := h.opens
  rw [depth_eq must, depth_eq may, h.lexicals]
  omega

theorem mem_names (h : Below lock must may) (hlock : lock ∈ must.names) : lock ∈ may.names :=
  mem_names_iff_depth_pos.2 (Nat.lt_of_lt_of_le (mem_names_iff_depth_pos.1 hlock) h.depth_le)

theorem acquire (h : Below lock must may) (name : String) :
    Below lock (must.push name false) (may.push name false) := by
  refine ⟨by simpa using h.lexicals, ?_⟩
  have hopens := h.opens
  rw [opens_push_open, opens_push_open]
  omega

/-- A release takes a hold away on both sides, or on the side with more of them. -/
theorem release (h : Below lock must may) (name : String) :
    Below lock (must.release name false) (may.release name false) := by
  refine ⟨by simpa using h.lexicals, ?_⟩
  have hopens := h.opens
  rw [opens_release_open, opens_release_open]
  omega

theorem enter (h : Below lock must may) (name : String) :
    Below lock (must.push name true) (may.push name true) :=
  ⟨by simp [h.lexicals], by simpa using h.opens⟩

/-- On leaving, the same lexical hold is taken off on both sides. -/
theorem leave {must' may' : HeldLocks} (h : Below lock must may) (h' : Below lock must' may')
    (hlex : must'.lexicals = must.lexicals ++ [⟨name, true⟩]) :
    Below lock (must'.release name true) (may'.release name true) := by
  have hlex' : may'.lexicals = may.lexicals ++ [⟨name, true⟩] := by
    rw [← h'.lexicals, ← h.lexicals, hlex]
  refine ⟨?_, by simpa using h'.opens⟩
  rw [lexicals_release_lexical hlex, lexicals_release_lexical hlex', h.lexicals]

/-- A steady junction keeps what must be held below what may be held. -/
theorem merge (h : Below lock must may) (hends : List.Forall₂ (Below lock) musts mays)
    (hlex : ∀ fin ∈ musts, fin.lexicals = must.lexicals)
    (hlex' : ∀ fin ∈ mays, fin.lexicals = may.lexicals)
    (hsteady : (must.merge .must musts).depth lock ≤ max (must.depth lock) 1) :
    Below lock (must.merge .must musts) (may.merge .may mays) := by
  cases hends with
  | nil => exact h
  | @cons first first' rest rest' hfirst hrest =>
    have hlexicals : (must.merge .must (first :: rest)).lexicals =
        (may.merge .may (first' :: rest')).lexicals := by
      rw [lexicals_merge hlex, lexicals_merge hlex', h.lexicals]
    have hdepth : (must.merge .must (first :: rest)).depth lock ≤
        (may.merge .may (first' :: rest')).depth lock := by
      have hbefore := h.depth_le
      refine le_depth_merge List.mem_cons_self (hlex' _ List.mem_cons_self) ?_ (by omega)
      exact Nat.le_trans depth_merge_must_le hfirst.depth_le
    refine ⟨hlexicals, ?_⟩
    rw [depth_eq, depth_eq (may.merge .may _), hlexicals] at hdepth
    omega

end Below

/-! ## The walks side by side -/

theorem forall₂_getD {α β : Type} {R : α → β → Prop} {as : List α} {bs : List β} {a : α} {b : β}
    (h : List.Forall₂ R as bs) (hab : R a b) (i : Nat) : R (as.getD i a) (bs.getD i b) := by
  induction h generalizing i with
  | nil => exact hab
  | cons hxy _ ih =>
    cases i with
    | zero => exact hxy
    | succ i => exact ih i

theorem forall₂_set {α β : Type} {R : α → β → Prop} {as : List α} {bs : List β} {a : α} {b : β}
    (h : List.Forall₂ R as bs) (hab : R a b) (i : Nat) :
    List.Forall₂ R (as.set i a) (bs.set i b) := by
  induction h generalizing i with
  | nil => exact .nil
  | cons hxy hrest ih =>
    cases i with
    | zero => exact .cons hab hrest
    | succ i => exact .cons hxy (ih i)

namespace Flow

/-- In a routine with some property, what is reported as held in the first event is so in the
second. -/
def KeepsIn (S : Routine → Prop) (lock : String) (e e' : Event) : Prop :=
  S e.routine → lock ∈ e.held.names → lock ∈ e'.held.names

/-- The junctions of the routines with some property are steady in a lock. -/
def SteadyIn (S : Routine → Prop) (lock : String) (js : List Junction) : Prop :=
  ∀ j ∈ js, S j.routine → j.Steady lock

variable {S : Routine → Prop} {lock : String} {r : Routine} {js js' : List Junction}

theorem steadyIn_append : SteadyIn S lock (js ++ js') ↔ SteadyIn S lock js ∧ SteadyIn S lock js' :=
  List.forall_mem_append

theorem steadyIn_cons {j : Junction} :
    SteadyIn S lock (j :: js) ↔ (S j.routine → j.Steady lock) ∧ SteadyIn S lock js :=
  List.forall_mem_cons

theorem keepsIn_probe {must may : HeldLocks} (h : S r → Below lock must may) (p : Probe) :
    KeepsIn S lock (p.event r must) (p.event r may) := by
  cases p with
  | access detached a =>
    cases detached with
    | true => exact fun _ hlock => hlock
    | false => exact fun hr => (h hr).mem_names
  | ownCall detached method line =>
    cases detached with
    | true => exact fun _ hlock => hlock
    | false => exact fun hr => (h hr).mem_names

/-- A steady junction keeps the holds of one walk below those of the other. -/
theorem below_merge {must may : HeldLocks} {musts mays : List HeldLocks}
    (h : S r → Below lock must may)
    (hends : List.Forall₂ (fun a b => S r → Below lock a b) musts mays)
    (hlex : ∀ fin ∈ musts, fin.lexicals = must.lexicals)
    (hlex' : ∀ fin ∈ mays, fin.lexicals = may.lexicals)
    (hsteady : S r → Junction.Steady lock ⟨r, must, musts⟩) :
    S r → Below lock (must.merge .must musts) (may.merge .may mays) := fun hr =>
  (h hr).merge (hends.imp fun _ _ hab => hab hr) hlex hlex' (hsteady hr)

mutual

/-- **The walk of what must be held stays below the walk of what may be held**, in the routines
whose junctions are steady. The induction follows the walk; that the lexical holds agree is what
carries it past the end of a `with`. -/
theorem below_run {r : Routine} {must may : HeldLocks} (f : Flow)
    (h : S r → Below lock must may) (hj : SteadyIn S lock (junctions .must r must f)) :
    List.Forall₂ (KeepsIn S lock) (run .must r must f).1 (run .may r may f).1 ∧
      (S r → Below lock (run .must r must f).2 (run .may r may f).2) := by
  cases f with
  | probe p => exact ⟨.cons (keepsIn_probe h p) .nil, h⟩
  | acquire name line =>
    exact ⟨.cons (fun hr => (h hr).mem_names) .nil, fun hr => (h hr).acquire name⟩
  | release name => exact ⟨.nil, fun hr => (h hr).release name⟩
  | within name line body =>
    have ih := below_runAll body (fun hr => (h hr).enter name) hj
    refine ⟨.cons (fun hr => (h hr).mem_names) ih.1, fun hr => (h hr).leave (ih.2 hr) ?_⟩
    rw [lexicals_runAll, lexicals_push_lexical]
  | branch arms exhaustive =>
    rw [junctions, steadyIn_append, steadyIn_cons] at hj
    have ih := below_runArms arms h hj.1
    refine ⟨ih.1, below_merge h ?_ ?_ ?_ hj.2.1⟩
    · split
      · exact ih.2
      · exact List.rel_append ih.2 (.cons h .nil)
    all_goals
      intro fin hfin
      split at hfin
      · exact lexicals_runArms _ hfin
      · rcases List.mem_append.1 hfin with hfin | hfin
        · exact lexicals_runArms _ hfin
        · rw [List.mem_singleton.1 hfin]
  | attempt parts final =>
    rw [junctions, steadyIn_append, steadyIn_cons] at hj
    have ih := below_runParts none parts h .nil hj.1
    have hjoin := below_merge h ih.2 (fun fin hfin => lexicals_runParts parts hfin)
      (fun fin hfin => lexicals_runParts parts hfin) hj.2.1
    have ihfin := below_runAll final hjoin hj.2.2
    exact ⟨List.rel_append ih.1 ihfin.1, ihfin.2⟩
  | routine inner body =>
    have ih := below_runAll body (fun _ => .refl []) hj
    exact ⟨.cons (fun _ hlock => hlock) ih.1, h⟩

theorem below_runAll {r : Routine} {must may : HeldLocks} (fs : List Flow)
    (h : S r → Below lock must may) (hj : SteadyIn S lock (junctionsAll .must r must fs)) :
    List.Forall₂ (KeepsIn S lock) (runAll .must r must fs).1 (runAll .may r may fs).1 ∧
      (S r → Below lock (runAll .must r must fs).2 (runAll .may r may fs).2) := by
  cases fs with
  | nil => exact ⟨.nil, h⟩
  | cons f rest =>
    rw [junctionsAll, steadyIn_append] at hj
    have ih := below_run f h hj.1
    have ihrest := below_runAll rest ih.2 hj.2
    exact ⟨List.rel_append ih.1 ihrest.1, ihrest.2⟩

/-- The blocks of a branching statement end in the same order in both walks, each below its
counterpart. -/
theorem below_runArms {r : Routine} {must may : HeldLocks} (arms : List Arm)
    (h : S r → Below lock must may) (hj : SteadyIn S lock (junctionsArms .must r must arms)) :
    List.Forall₂ (KeepsIn S lock) (runArms .must r must arms).1 (runArms .may r may arms).1 ∧
      List.Forall₂ (fun a b => S r → Below lock a b) (runArms .must r must arms).2
        (runArms .may r may arms).2 := by
  match arms with
  | [] => exact ⟨.nil, .nil⟩
  | .probe p :: rest =>
    have ih := below_runArms rest h hj
    exact ⟨.cons (keepsIn_probe h p) ih.1, ih.2⟩
  | .block body :: rest =>
    rw [junctionsArms, steadyIn_append] at hj
    have ihbody := below_runAll body h hj.1
    have ih := below_runArms rest h hj.2
    exact ⟨List.rel_append ihbody.1 ih.1, .cons ihbody.2 ih.2⟩

theorem below_runParts {r : Routine} {must may : HeldLocks} {musts mays : List HeldLocks}
    (body? : Option Nat) (parts : List Part) (h : S r → Below lock must may)
    (hends : List.Forall₂ (fun a b => S r → Below lock a b) musts mays)
    (hj : SteadyIn S lock (junctionsParts .must r must musts body? parts)) :
    List.Forall₂ (KeepsIn S lock) (runParts .must r must musts body? parts).1
        (runParts .may r may mays body? parts).1 ∧
      List.Forall₂ (fun a b => S r → Below lock a b) (runParts .must r must musts body? parts).2
        (runParts .may r may mays body? parts).2 := by
  match parts with
  | [] => exact ⟨.nil, hends⟩
  | .body b :: rest =>
    rw [junctionsParts, steadyIn_append] at hj
    have ihbody := below_runAll b h hj.1
    have ih := below_runParts (some musts.length) rest h
      (List.rel_append hends (.cons ihbody.2 .nil)) hj.2
    rw [runParts, runParts, ← hends.length_eq]
    exact ⟨List.rel_append ihbody.1 ih.1, ih.2⟩
  | .handler arms :: rest =>
    rw [junctionsParts, steadyIn_append] at hj
    have iharms := below_runArms arms h hj.1
    have ih := below_runParts body? rest h (List.rel_append hends iharms.2) hj.2
    exact ⟨List.rel_append iharms.1 ih.1, ih.2⟩
  | .orElse arms :: rest =>
    match body? with
    | none =>
      rw [junctionsParts, steadyIn_append] at hj
      have iharms := below_runArms arms h hj.1
      have ih := below_runParts none rest h (List.rel_append hends iharms.2) hj.2
      exact ⟨List.rel_append iharms.1 ih.1, ih.2⟩
    | some i =>
      rw [junctionsParts, steadyIn_append, steadyIn_cons] at hj
      -- the `else` starts where the body ended, in both walks
      have hstart : S r → Below lock (musts.getD i must) (mays.getD i may) :=
        forall₂_getD hends h i
      have iharms := below_runArms arms hstart hj.1
      have hjoin := below_merge hstart iharms.2 (fun fin hfin => lexicals_runArms arms hfin)
        (fun fin hfin => lexicals_runArms arms hfin) hj.2.1
      have ih := below_runParts (some i) rest h (forall₂_set hends hjoin i) hj.2.2
      exact ⟨List.rel_append iharms.1 ih.1, ih.2⟩

end

end Flow

/-- **The two modes of a walk.** They report the same in the same order, apart from the holds. A
lock that is reported as held where it must be is also reported where it may be, in every routine
whose junctions are steady in the lock. -/
theorem walk_modes (names : Names) (u : SourceUnit) :
    (walk .must names u).map Event.bare = (walk .may names u).map Event.bare ∧
      ∀ lock, List.Forall₂ (fun e e' =>
          (∀ j ∈ junctionsOf .must names u, j.routine = e.routine → j.Steady lock) →
            lock ∈ e.held.names → lock ∈ e'.held.names)
        (walk .must names u) (walk .may names u) := by
  refine ⟨(map_bare_walk .must names u).trans (map_bare_walk .may names u).symm, fun lock => ?_⟩
  let S (r : Routine) : Prop := ∀ j ∈ junctionsOf .must names u, j.routine = r → j.Steady lock
  have hsteady : Flow.SteadyIn S lock (junctionsOf .must names u) := fun j hj hr => hr j hj rfl
  exact .cons (fun _ hlock => hlock) (Flow.below_runAll _ (fun _ => .refl []) hsteady).1

/-! ## Fixed files -/

open Node

/-- A class `Pool` with one method, given what it does. -/
def poolOf (body : List Node) : SourceUnit :=
  .ofStatements "pool.py"
    [classOf (ident 0 "Pool") [function (ident 1 "put") ["self", "again"] body]]

/-- The lock of the pool, named in a given row. -/
def poolLock (row : Nat) : Node := (ident row "self").dot "lock"

/-- What the two modes report as held at the last event of a file. -/
def lastHeld (u : SourceUnit) : List (Option (List String)) :=
  [HoldMode.must, .may].map fun mode =>
    (walk mode ⟨[]⟩ u).getLast?.map fun e => e.held.names

/-- Takes the lock on both paths of an `if`, writes an attribute, and gives the lock back. -/
def either : List Node :=
  [ifElse (ident 2 "again") [invoke (poolLock 3) "acquire"] [invoke (poolLock 5) "acquire"],
    assign ((ident 6 "self").dot "x"),
    invoke (poolLock 7) "release"]

/-- Here both paths take the lock once, and both walks report it. -/
theorem walk_modes_either :
    (∀ j ∈ junctionsOf .must ⟨[]⟩ (poolOf either), j.Steady "Pool.lock") ∧
      lastHeld (poolOf either) = [some ["Pool.lock"], some ["Pool.lock"]] ∧
      List.Forall₂ (fun e e' => "Pool.lock" ∈ e.held.names → "Pool.lock" ∈ e'.held.names)
        (walk .must ⟨[]⟩ (poolOf either)) (walk .may ⟨[]⟩ (poolOf either)) := by
  have hsteady : ∀ j ∈ junctionsOf .must ⟨[]⟩ (poolOf either), j.Steady "Pool.lock" := by
    decide +kernel
  refine ⟨hsteady, by decide +kernel, ?_⟩
  exact ((walk_modes ⟨[]⟩ (poolOf either)).2 "Pool.lock").imp fun _ _ h =>
    h fun j hj _ => hsteady j hj

/-- Takes the lock once more on both paths of an `if` inside a `with`, and leaves the `with`. -/
def regrip : List Node :=
  [withOn (poolLock 2)
      [ifElse (ident 3 "again") [invoke (poolLock 4) "acquire"] [invoke (poolLock 6) "acquire"]],
    assign ((ident 7 "self").dot "x")]

/-- Takes the lock twice on both paths of an `if`, and gives it back once. -/
def doubled : List Node :=
  [ifElse (ident 2 "again") [invoke (poolLock 3) "acquire", invoke (poolLock 4) "acquire"]
      [invoke (poolLock 6) "acquire", invoke (poolLock 7) "acquire"],
    invoke (poolLock 8) "release",
    assign ((ident 9 "self").dot "x")]

/-- Where every path leaves the lock with two holds, the walk of what may be held counts one. After
one of them is given back, the lock must be held and yet may not be held. -/
theorem walk_modes_unsteady :
    ((poolOf regrip).check = .ok () ∧ (poolOf doubled).check = .ok ()) ∧
      lastHeld (poolOf regrip) = [some ["Pool.lock"], some []] ∧
      lastHeld (poolOf doubled) = [some ["Pool.lock"], some []] := by
  decide +kernel

end Interlock
