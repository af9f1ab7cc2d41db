import Interlock.Proofs.Flow.Places
import Mathlib.Data.List.GetD

/-!
# Paths through branches

What the walk of a statement with several paths shows of each path. The walk of a branching
statement runs each block from the same holds (`Flow.runAll_of_block_mem`). The walk of a `try`
goes from part to part (`Flow.follow`) and remembers where its body ended; of each part it shows
the events and keeps the end, with at least as many holds (`Flow.runParts_split`).
-/

namespace Interlock

open Lock Lock.HeldLocks

namespace Flow

variable {mode : HoldMode} {r : Routine} {held before : HeldLocks}

/-! ## Runs of a block -/

@[simp] theorem runAll_singleton (f : Flow) : runAll mode r held [f] = run mode r held f := by
  simp [runAll]

/-- The walk of a block, cut in two: the second part starts with the holds after the first. -/
theorem runAll_append (fs gs : List Flow) : runAll mode r held (fs ++ gs) =
    ((runAll mode r held fs).1 ++ (runAll mode r (runAll mode r held fs).2 gs).1,
      (runAll mode r (runAll mode r held fs).2 gs).2) := by
  induction fs generalizing held with
  | nil => rfl
  | cons f rest ih => simp [runAll, ih]

@[simp] theorem runAll_probes (ps : List Probe) :
    (runAll mode r held (ps.map probe)).2 = held := by
  induction ps with
  | nil => rfl
  | cons p rest ih => simpa [runAll, run] using ih

theorem fits_lexicals (held : HeldLocks) : (Surroundings.mk held.lexicals.names []).Fits held := by
  refine ⟨?_, by simp⟩
  rw [names, List.map_map]
  refine (List.map_id _).symm.trans (List.map_congr_left ?_)
  rintro ⟨name, lexical⟩ hl
  obtain ⟨-, rfl⟩ : _ ∧ lexical = true := mem_lexicals.1 hl
  rfl

theorem lexicals_eq_of_fits {fin : HeldLocks} {drops : List String}
    (h : ((Surroundings.mk held.lexicals.names []).past drops).Fits fin) :
    fin.lexicals = held.lexicals :=
  h.lexicals.trans (fits_lexicals held).lexicals.symm

/-- No block changes the lexical holds. -/
theorem lexicals_runAll (fs : List Flow) : (runAll mode r held fs).2.lexicals = held.lexicals :=
  lexicals_eq_of_fits (fits_runAll r fs (fits_lexicals held)).2

theorem lexicals_runArms (arms : List Arm) {fin : HeldLocks}
    (h : fin ∈ (runArms mode r held arms).2) : fin.lexicals = held.lexicals :=
  lexicals_eq_of_fits ((fits_runArms r arms (fits_lexicals held)).2 fin h)

theorem lexicals_runParts (parts : List Part) {fin : HeldLocks}
    (h : fin ∈ (runParts mode r held [] none parts).2) : fin.lexicals = held.lexicals :=
  lexicals_eq_of_fits ((fits_runParts r none parts (fits_lexicals held) (by simp)).2 fin h)

/-- The walk of a branching statement contains the walk of each block as one piece. -/
theorem runAll_infix_of_block_mem {body : List Flow} {arms : List Arm} (h : .block body ∈ arms) :
    (runAll mode r before body).1 <:+: (runArms mode r before arms).1 := by
  induction arms with
  | nil => cases h
  | cons arm rest ih =>
    rcases List.mem_cons.1 h with rfl | hrest
    · exact (List.prefix_append _ _).isInfix
    · cases arm with
      | probe p => exact (ih hrest).trans (List.suffix_cons _ _).isInfix
      | block body' => exact (ih hrest).trans (List.suffix_append _ _).isInfix

/-- Each block of a branching statement runs from the holds before it, and what it ends with is one
of the ends. -/
theorem runAll_of_block_mem {body : List Flow} {arms : List Arm} (h : .block body ∈ arms) :
    (runAll mode r before body).1 ⊆ (runArms mode r before arms).1 ∧
      (runAll mode r before body).2 ∈ (runArms mode r before arms).2 := by
  refine ⟨(runAll_infix_of_block_mem h).subset, ?_⟩
  induction arms with
  | nil => cases h
  | cons arm rest ih =>
    rcases List.mem_cons.1 h with rfl | hrest
    · exact List.mem_cons_self
    · cases arm with
      | probe p => exact ih hrest
      | block body' => exact List.mem_cons_of_mem _ (ih hrest)

/-! ## The parts of a `try` -/

/-- Where the walk of a `try` has come to: the ends of its paths, and which of them is that of the
latest body. -/
structure TryState where
  ends : List HeldLocks
  body? : Option Nat

/-- The walk of one part of a `try`. -/
def follow (mode : HoldMode) (r : Routine) (before : HeldLocks) (st : TryState) :
    Part → List Event × TryState
  | .body b =>
    let here := runAll mode r before b
    (here.1, ⟨st.ends ++ [here.2], some st.ends.length⟩)
  | .orElse arms =>
    match st.body? with
    | some i =>
      let start := st.ends.getD i before
      let here := runArms mode r start arms
      (here.1, ⟨st.ends.set i (start.merge mode here.2), some i⟩)
    | none =>
      let here := runArms mode r before arms
      (here.1, ⟨st.ends ++ here.2, none⟩)
  | .handler arms =>
    let here := runArms mode r before arms
    (here.1, ⟨st.ends ++ here.2, st.body?⟩)

/-- Where the walk of a `try` has come to after some parts. -/
def followAll (mode : HoldMode) (r : Routine) (before : HeldLocks) (st : TryState)
    (parts : List Part) : TryState :=
  parts.foldl (fun st p => (follow mode r before st p).2) st

/-- A `try` is walked part by part. -/
theorem runParts_cons (st : TryState) (p : Part) (rest : List Part) :
    runParts mode r before st.ends st.body? (p :: rest) =
      let here := follow mode r before st p
      (here.1 ++ (runParts mode r before here.2.ends here.2.body? rest).1,
        (runParts mode r before here.2.ends here.2.body? rest).2) := by
  obtain ⟨ends, body?⟩ := st
  cases p with
  | body b => rfl
  | orElse arms => cases body? <;> rfl
  | handler arms => rfl

theorem runParts_append (st : TryState) (ps qs : List Part) :
    runParts mode r before st.ends st.body? (ps ++ qs) =
      let after := followAll mode r before st ps
      ((runParts mode r before st.ends st.body? ps).1 ++
          (runParts mode r before after.ends after.body? qs).1,
        (runParts mode r before after.ends after.body? qs).2) := by
  induction ps generalizing st with
  | nil => simp [runParts, followAll]
  | cons p rest ih =>
    simp only [List.cons_append, runParts_cons, ih, followAll, List.foldl_cons, List.append_assoc]

theorem runParts_ends (st : TryState) (parts : List Part) :
    (runParts mode r before st.ends st.body? parts).2 =
      (followAll mode r before st parts).ends := by
  induction parts generalizing st with
  | nil => rfl
  | cons p rest ih => simp only [runParts_cons, ih, followAll, List.foldl_cons]

/-- Every path goes on as a path that holds a lock at least as often. -/
def Kept (name : String) (ends ends' : List HeldLocks) : Prop :=
  ∀ fin ∈ ends, ∃ fin' ∈ ends', fin.depth name ≤ fin'.depth name

variable {name : String}

theorem Kept.trans {a b c : List HeldLocks} (h : Kept name a b) (h' : Kept name b c) :
    Kept name a c := by
  intro fin hfin
  obtain ⟨fin', hfin', hle⟩ := h fin hfin
  obtain ⟨fin'', hfin'', hle'⟩ := h' fin' hfin'
  exact ⟨fin'', hfin'', Nat.le_trans hle hle'⟩

theorem kept_of_subset {ends ends' : List HeldLocks} (h : ends ⊆ ends') : Kept name ends ends' :=
  fun fin hfin => ⟨fin, h hfin, Nat.le_refl _⟩

theorem kept_singleton {fin : HeldLocks} {ends : List HeldLocks} (h : fin ∈ ends) :
    Kept name [fin] ends :=
  kept_of_subset fun _ hmem => List.mem_singleton.1 hmem ▸ h

/-- No part takes a path away. An `else` moves the end of the body on, with no fewer holds. -/
theorem kept_follow (st : TryState) (p : Part) :
    Kept name st.ends (follow .may r before st p).2.ends := by
  obtain ⟨ends, body?⟩ := st
  cases p with
  | body b => exact kept_of_subset (List.subset_append_left _ _)
  | handler arms => exact kept_of_subset (List.subset_append_left _ _)
  | orElse arms =>
    cases body? with
    | none => exact kept_of_subset (List.subset_append_left _ _)
    | some i =>
      intro fin hfin
      obtain ⟨j, hj⟩ := List.mem_iff_getElem?.1 hfin
      obtain ⟨hlt, rfl⟩ := List.getElem?_eq_some_iff.1 hj
      simp only [follow]
      by_cases hij : i = j
      · subst hij
        refine ⟨_, List.mem_iff_getElem?.2 ⟨i, List.getElem?_set_self hlt⟩, ?_⟩
        rw [List.getD_eq_getElem _ _ hlt]
        exact depth_le_depth_merge
      · exact ⟨_, List.mem_iff_getElem?.2 ⟨j, (List.getElem?_set_ne hij).trans hj⟩, Nat.le_refl _⟩

theorem kept_followAll (st : TryState) (parts : List Part) :
    Kept name st.ends (followAll .may r before st parts).ends := by
  induction parts generalizing st with
  | nil => exact kept_of_subset (List.Subset.refl _)
  | cons p rest ih => exact (kept_follow st p).trans (ih _)

/-- **What the walk of a `try` shows of one of its parts**: the events and the ends of its paths. -/
theorem runParts_split (ps qs : List Part) (p : Part) :
    let here := follow .may r before (followAll .may r before ⟨[], none⟩ ps) p
    here.1 ⊆ (runParts .may r before [] none (ps ++ p :: qs)).1 ∧
      Kept name here.2.ends (runParts .may r before [] none (ps ++ p :: qs)).2 := by
  intro here
  have happend : runParts .may r before [] none (ps ++ p :: qs) = _ :=
    runParts_append ⟨[], none⟩ ps (p :: qs)
  simp only [runParts_cons, runParts_ends] at happend
  rw [happend]
  exact ⟨List.subset_append_of_subset_right _ (List.subset_append_left _ _), kept_followAll _ _⟩

/-- The latest body ends with some depth of a lock at least. -/
def TryState.BodyEnds (st : TryState) (before : HeldLocks) (name : String) (k : Nat) : Prop :=
  ∃ i, st.body? = some i ∧ i < st.ends.length ∧ k ≤ (st.ends.getD i before).depth name

/-- After a body, it is the latest one. -/
theorem bodyEnds_follow_body (st : TryState) (b : List Flow) :
    (follow mode r before st (.body b)).2.BodyEnds before name
      ((runAll mode r before b).2.depth name) := by
  refine ⟨st.ends.length, rfl, by simp [follow], ?_⟩
  simp [follow, List.getD_eq_getElem?_getD]

/-- Handlers and `else` parts leave the latest body where it is, with no fewer holds at its end. -/
theorem TryState.BodyEnds.follow {st : TryState} {k : Nat} (h : st.BodyEnds before name k)
    {p : Part} (hp : ∀ b, p ≠ .body b) : (follow .may r before st p).2.BodyEnds before name k := by
  obtain ⟨ends, body?⟩ := st
  obtain ⟨i, rfl, hi, hk⟩ := h
  replace hi : i < ends.length := hi
  have happend (more : List HeldLocks) : i < (ends ++ more).length ∧
      k ≤ ((ends ++ more).getD i before).depth name := by
    refine ⟨by rw [List.length_append]; omega, ?_⟩
    rw [List.getD_append _ _ _ _ hi]
    exact hk
  cases p with
  | body b => exact absurd rfl (hp b)
  | handler arms => exact ⟨i, rfl, happend _⟩
  | orElse arms =>
    refine ⟨i, rfl, by simpa [Flow.follow] using hi, ?_⟩
    simp only [Flow.follow]
    rw [List.getD_eq_getElem?_getD, List.getElem?_set_self hi, Option.getD_some]
    exact Nat.le_trans hk depth_le_depth_merge

theorem TryState.BodyEnds.followAll {st : TryState} {k : Nat} (h : st.BodyEnds before name k)
    {parts : List Part} (hparts : ∀ b, .body b ∉ parts) :
    (followAll .may r before st parts).BodyEnds before name k := by
  induction parts generalizing st with
  | nil => exact h
  | cons p rest ih =>
    refine ih (h.follow fun b hb => hparts b (hb ▸ List.mem_cons_self)) fun b hb => ?_
    exact hparts b (List.mem_cons_of_mem _ hb)

/-- **An `else` goes on from where the body ended**, or from more holds. -/
theorem exists_start_of_orElse {ps qs post : List Part} (hqs : ∀ b, .body b ∉ qs) (b : List Flow)
    (arms : List Arm) :
    let parts := ps ++ .body b :: (qs ++ .orElse arms :: post)
    ∃ start, (runAll .may r before b).2.depth name ≤ start.depth name ∧
      (runArms .may r start arms).1 ⊆ (runParts .may r before [] none parts).1 ∧
      Kept name [start.merge .may (runArms .may r start arms).2]
        (runParts .may r before [] none parts).2 := by
  intro parts
  have hparts : parts = (ps ++ .body b :: qs) ++ .orElse arms :: post := by simp [parts]
  have hbody : (followAll .may r before ⟨[], none⟩ (ps ++ .body b :: qs)).BodyEnds before name
      ((runAll .may r before b).2.depth name) := by
    rw [followAll, List.foldl_append, List.foldl_cons, ← followAll]
    exact (bodyEnds_follow_body _ b).followAll hqs
  rw [hparts]
  obtain ⟨hevents, hends⟩ : _ ∧ Kept name _ _ :=
    runParts_split (ps ++ .body b :: qs) post (.orElse arms)
  generalize followAll .may r before ⟨[], none⟩ (ps ++ .body b :: qs) = st at *
  obtain ⟨ends, body?⟩ := st
  obtain ⟨i, rfl, hi, hle⟩ := hbody
  refine ⟨ends.getD i before, hle, hevents, (kept_singleton ?_).trans hends⟩
  exact List.mem_iff_getElem?.2 ⟨i, List.getElem?_set_self hi⟩

end Flow

end Interlock
