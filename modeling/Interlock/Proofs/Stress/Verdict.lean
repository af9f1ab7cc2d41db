import Interlock.Stress.Tester
import Mathlib.Algebra.BigOperators.Group.List.Basic
import Mathlib.Algebra.Order.Ring.Nat
import Mathlib.Data.List.Enum
import Mathlib.Data.List.Forall2
import Mathlib.Data.List.TFAE
import Mathlib.Tactic.TFAE

/-!
# Verdicts on outcomes

A verdict is reached in three ways that must not disagree: calls are counted, what the workers
reported is listed, and the counter is compared with what it should be. That they agree rests on one
fact about `reconcile` (`reconcile_eq_iff`): nothing is taken off exactly if all calls were
successful and the counter has the expected value.

* In a run of fixed length in which the failures are what the workers reported
  (`Outcome.Accounted`), a race is detected exactly if there is something to say about the run,
  which is exactly if some worker has not stopped, some call failed or the counter is wrong
  (`fixedVerdict_tfae`).
* The same holds of a run for a while once its workers have stopped (`Outcome.Settled`,
  `durationVerdict_tfae`). The numbers add up even if workers are still counting.
-/

namespace Interlock.Stress

/-! ## Reconciliation -/

theorem reconcile_le (completed expected : Nat) (observed : Option Nat) :
    reconcile completed expected observed ≤ completed := by
  cases observed with
  | none => exact Nat.le_refl _
  | some n =>
    rw [reconcile]
    split
    · exact Nat.min_le_left _ _
    · exact Nat.sub_le _ _

/-- **Nothing is taken off** exactly if all calls were successful and the counter is as expected. -/
theorem reconcile_eq_iff {completed expected : Nat} (h : completed ≤ expected) (hpos : 0 < expected)
    (observed : Option Nat) : reconcile completed expected observed = expected ↔
      completed = expected ∧ ∀ n ∈ observed, n = expected := by
  cases observed with
  | none => simp [reconcile]
  | some n =>
    simp only [reconcile, Option.mem_some_iff, forall_eq']
    split <;> omega

/-! ## Started workers -/

theorem false_notMem_iff {finished : List Bool} : false ∉ finished ↔ ∀ f ∈ finished, f = true := by
  simp only [← Bool.not_eq_false]
  exact ⟨fun h f hf he => h (he ▸ hf), fun h hmem => h false hmem rfl⟩

namespace Outcome

/-- All workers were started. -/
def Started (o : Outcome) : Prop := o.spawnErrors = o.finished.map fun _ => none

theorem started_ofTimeline (pace : Pace) (t : Timeline) : (ofTimeline pace t).Started := rfl

variable {o : Outcome}

theorem Started.zip_eq (h : o.Started) :
    o.finished.zip o.spawnErrors = o.finished.map fun f => (f, none) := by
  rw [h, ← List.map_prod_left_eq_zip]

theorem Started.timedOut_eq (h : o.Started) : o.timedOut = o.finished.count false := by
  rw [timedOut, h.zip_eq, List.filter_map, List.length_map, List.count,
    List.countP_eq_length_filter]
  refine congrArg List.length (List.filter_congr fun f _ => ?_)
  cases f <;> rfl

theorem Started.unstarted_eq (h : o.Started) : o.unstarted = 0 := by
  rw [unstarted, h]
  simp

/-- Of workers that were all started, those that have not stopped are mentioned. -/
theorem Started.unfinishedDetails_eq_nil_iff (h : o.Started) (c : StressConfig) :
    unfinishedDetails c o = [] ↔ false ∉ o.finished := by
  rw [false_notMem_iff, unfinishedDetails, h.zip_eq, List.zipIdx_map, List.filterMap_map,
    List.filterMap_eq_nil_iff, List.forall_mem_zipIdx, List.forall_mem_iff_forall_getElem]
  simp

end Outcome

/-! ## Sums with a bound -/

/-- A sum of numbers that are bounded reaches the bound only if each of them does. -/
theorem sum_map_eq_iff {α : Type} {f : α → Nat} {k : Nat} {l : List α} (h : ∀ a ∈ l, f a ≤ k) :
    (l.map f).sum ≤ l.length * k ∧ ((l.map f).sum = l.length * k ↔ ∀ a ∈ l, f a = k) := by
  induction l with
  | nil => simp
  | cons a l ih =>
    obtain ⟨ha, hl⟩ := List.forall_mem_cons.1 h
    obtain ⟨hle, heq⟩ := ih hl
    rw [List.map_cons, List.sum_cons, List.length_cons, Nat.succ_mul, List.forall_mem_cons, ← heq]
    omega

/-! ## Runs of fixed length -/

theorem StressConfig.pos_of_validate {c : StressConfig} (h : c.validate = .ok ()) :
    0 < c.threads ∧ 0 < c.iterations := by
  unfold validate flaw? at h
  refine ⟨Nat.pos_of_ne_zero fun hthreads => ?_, Nat.pos_of_ne_zero fun hiterations => ?_⟩
  · simp [hthreads] at h
  · by_cases hthreads : c.threads = 0 <;> simp [hthreads, hiterations] at h

namespace Outcome

/-- The outcome of a run of fixed length whose workers were all started. The failures are what the
workers reported, in any order, and a worker that has stopped reported each call that was not
successful. -/
structure Accounted (c : StressConfig) (o : Outcome) : Prop where
  started : o.Started
  length_finished : o.finished.length = c.threads
  length_succeeded : o.succeeded.length = c.threads
  succeeded_le : ∀ n ∈ o.succeeded, n ≤ c.iterations
  reports : ∃ reports : List (List String), o.failures.Perm reports.flatten ∧
    List.Forall₂ (fun worker entries => worker.2 = true → entries.length = c.iterations - worker.1)
      (o.succeeded.zip o.finished) reports

theorem succeededByFinished_eq_sum (o : Outcome) : o.succeededByFinished =
    ((o.succeeded.zip o.finished).map fun w => if w.2 then w.1 else 0).sum := by
  unfold succeededByFinished
  induction o.succeeded.zip o.finished with
  | nil => rfl
  | cons w ws ih =>
    rw [List.map_cons, List.sum_cons, ← ih]
    cases h : w.2 <;> simp [h]

/-- Workers that have all stopped reported nothing exactly if each made all its calls with
success. -/
theorem reports_eq_nil_iff {k : Nat} {ws : List (Nat × Bool)} {reports : List (List String)}
    (h : List.Forall₂ (fun w entries => w.2 = true → entries.length = k - w.1) ws reports)
    (hws : ∀ w ∈ ws, w.2 = true ∧ w.1 ≤ k) :
    (∀ entries ∈ reports, entries = []) ↔ ∀ w ∈ ws, w.1 = k := by
  induction h with
  | nil => simp
  | @cons w entries ws reports hw _ ih =>
    obtain ⟨⟨hfinished, hle⟩, hws⟩ := List.forall_mem_cons.1 hws
    have hzero : k - w.1 = 0 ↔ w.1 = k := by omega
    rw [List.forall_mem_cons, List.forall_mem_cons, ih hws, ← List.length_eq_zero_iff, hw hfinished,
      hzero]

namespace Accounted

variable {c : StressConfig} {o : Outcome} (ho : o.Accounted c)
include ho

theorem map_fst_zip : (o.succeeded.zip o.finished).map Prod.fst = o.succeeded :=
  List.map_fst_zip (by rw [ho.length_succeeded, ho.length_finished])

theorem map_snd_zip : (o.succeeded.zip o.finished).map Prod.snd = o.finished :=
  List.map_snd_zip (by rw [ho.length_succeeded, ho.length_finished])

theorem length_zip : (o.succeeded.zip o.finished).length = c.threads := by
  rw [← List.length_map Prod.fst, ho.map_fst_zip, ho.length_succeeded]

theorem forall_succeeded_iff {P : Nat → Prop} :
    (∀ n ∈ o.succeeded, P n) ↔ ∀ w ∈ o.succeeded.zip o.finished, P w.1 := by
  conv_lhs => rw [← ho.map_fst_zip]
  exact List.forall_mem_map

theorem forall_finished_iff {P : Bool → Prop} :
    (∀ f ∈ o.finished, P f) ↔ ∀ w ∈ o.succeeded.zip o.finished, P w.2 := by
  conv_lhs => rw [← ho.map_snd_zip]
  exact List.forall_mem_map

theorem done_le : ∀ w ∈ o.succeeded.zip o.finished, (if w.2 then w.1 else 0) ≤ c.iterations := by
  intro w hw
  split
  · exact ho.forall_succeeded_iff.1 ho.succeeded_le w hw
  · exact Nat.zero_le _

theorem succeededByFinished_le : o.succeededByFinished ≤ c.total := by
  rw [succeededByFinished_eq_sum, StressConfig.total, ← ho.length_zip]
  exact (sum_map_eq_iff ho.done_le).1

/-- All planned calls are successful exactly if every worker has stopped and has made all its calls
with success. -/
theorem succeededByFinished_eq_iff (hiterations : 0 < c.iterations) :
    o.succeededByFinished = c.total ↔
      false ∉ o.finished ∧ ∀ n ∈ o.succeeded, n = c.iterations := by
  rw [succeededByFinished_eq_sum, StressConfig.total, ← ho.length_zip,
    (sum_map_eq_iff ho.done_le).2, false_notMem_iff, ho.forall_finished_iff,
    ho.forall_succeeded_iff, ← forall₂_and]
  refine forall₂_congr fun w _ => ?_
  cases w.2 <;> simp
  omega

theorem exists_lt_iff :
    (∃ n ∈ o.succeeded, n < c.iterations) ↔ ¬ ∀ n ∈ o.succeeded, n = c.iterations := by
  constructor
  · rintro ⟨n, hn, hlt⟩ hall
    exact absurd (hall n hn) (Nat.ne_of_lt hlt)
  · intro hnot
    obtain ⟨n, hn⟩ := not_forall.1 hnot
    obtain ⟨hmem, hne⟩ := Classical.not_imp.1 hn
    exact ⟨n, hmem, Nat.lt_of_le_of_ne (ho.succeeded_le n hmem) hne⟩

/-- If all workers have stopped, nothing was reported exactly if all calls were successful. -/
theorem failures_eq_nil_iff (hfinished : false ∉ o.finished) :
    o.failures = [] ↔ ∀ n ∈ o.succeeded, n = c.iterations := by
  obtain ⟨reports, hperm, hreports⟩ := ho.reports
  rw [← List.length_eq_zero_iff, hperm.length_eq, List.length_eq_zero_iff, List.flatten_eq_nil_iff,
    ho.forall_succeeded_iff]
  refine reports_eq_nil_iff hreports fun w hw => ⟨?_, ?_⟩
  · exact ho.forall_finished_iff.1 (false_notMem_iff.1 hfinished) w hw
  · exact ho.forall_succeeded_iff.1 ho.succeeded_le w hw

/-- Calls are counted as failed exactly if a worker has not stopped, a call was not successful or
the counter is wrong. -/
theorem failed_pos_iff (hc : c.validate = .ok ()) (observed : Option Nat) :
    0 < (fixedVerdict c o observed).failed ↔ false ∈ o.finished ∨
      (∃ n ∈ o.succeeded, n < c.iterations) ∨ ∃ n ∈ observed, n ≠ c.total := by
  obtain ⟨hthreads, hiterations⟩ := StressConfig.pos_of_validate hc
  have hle := ho.succeededByFinished_le
  have hmet := reconcile_eq_iff hle (Nat.mul_pos hthreads hiterations) observed
  have hfailed : 0 < (fixedVerdict c o observed).failed ↔
      ¬ reconcile o.succeededByFinished c.total observed = c.total := by
    have := (reconcile_le _ c.total observed).trans hle
    change 0 < c.total - reconcile o.succeededByFinished c.total observed ↔ _
    omega
  rw [hfailed, hmet, ho.succeededByFinished_eq_iff hiterations, ho.exists_lt_iff]
  simp only [ne_eq, not_and_or, not_not, not_forall, exists_prop, or_assoc]

/-- Something failed exactly if a worker has not stopped or a call was not successful. -/
theorem failures_ne_nil_iff : (false ∈ o.finished ∨ o.failures ≠ []) ↔
    false ∈ o.finished ∨ ∃ n ∈ o.succeeded, n < c.iterations := by
  by_cases hfinished : false ∈ o.finished
  · simp [hfinished]
  · rw [ho.exists_lt_iff, ← ho.failures_eq_nil_iff hfinished]

theorem raceDetected_iff (hc : c.validate = .ok ()) (observed : Option Nat) :
    (fixedVerdict c o observed).raceDetected = true ↔ false ∈ o.finished ∨
      (∃ n ∈ o.succeeded, n < c.iterations) ∨ ∃ n ∈ observed, n ≠ c.total := by
  have hrace : (fixedVerdict c o observed).raceDetected = true ↔
      0 < (fixedVerdict c o observed).failed ∨ o.failures ≠ [] := by
    simp [fixedVerdict]
  rw [hrace, ho.failed_pos_iff hc]
  constructor
  · rintro (h | h)
    · exact h
    · exact (ho.failures_ne_nil_iff.1 (.inr h)).imp_right .inl
  · exact .inl

end Accounted

end Outcome

/-- What is said about a run of fixed length whose workers were all started. -/
theorem failureDetails_fixedVerdict {o : Outcome} (h : o.Started) (c : StressConfig)
    (observed : Option Nat) : (fixedVerdict c o observed).failureDetails ≠ [] ↔
      false ∈ o.finished ∨ o.failures ≠ [] ∨ ∃ n ∈ observed, n ≠ c.total := by
  simp only [fixedVerdict, ne_eq, List.append_eq_nil_iff, h.unfinishedDetails_eq_nil_iff]
  cases observed with
  | none =>
    simp only [Option.mem_def, reduceCtorEq, false_and, exists_const, or_false]
    tauto
  | some n =>
    simp only [ite_eq_left_iff, List.cons_ne_nil, Option.mem_some_iff, exists_eq_left']
    tauto

/-- **The verdict on a run of fixed length.** The numbers add up, with no subtraction below zero:
nothing on the way exceeds the number of planned calls. And a race is detected exactly if there is
something to say, which is exactly if some worker has not stopped, some call failed or the counter
is wrong; whether calls failed can be told from the reports as well as from the counts. -/
theorem fixedVerdict_tfae {c : StressConfig} (hc : c.validate = .ok ()) {o : Outcome}
    (ho : o.Accounted c) (observed : Option Nat) :
    let r := fixedVerdict c o observed
    r.totalIterations = c.total ∧
      r.successful ≤ o.succeededByFinished ∧ o.succeededByFinished ≤ c.total ∧
      r.successful + r.failed = c.total ∧
      r.timedOutWorkers = o.finished.count false ∧
      [r.raceDetected = true,
        r.failureDetails ≠ [],
        false ∈ o.finished ∨ o.failures ≠ [] ∨ ∃ n ∈ observed, n ≠ c.total,
        false ∈ o.finished ∨ (∃ n ∈ o.succeeded, n < c.iterations) ∨
          ∃ n ∈ observed, n ≠ c.total].TFAE := by
  have hle := ho.succeededByFinished_le
  have hsuccessful := reconcile_le o.succeededByFinished c.total observed
  refine ⟨rfl, hsuccessful, hle, ?_, ho.started.timedOut_eq, ?_⟩
  · exact Nat.add_sub_cancel' (hsuccessful.trans hle)
  · tfae_have 1 ↔ 4 := ho.raceDetected_iff hc observed
    tfae_have 2 ↔ 3 := failureDetails_fixedVerdict ho.started c observed
    tfae_have 3 ↔ 4 := by
      rw [← or_assoc, ← or_assoc, ho.failures_ne_nil_iff]
    tfae_finish

/-- Three workers: one makes both its calls with success, one has a call that fails, one does not
stop and has a call that fails. The counter has one update too many. -/
theorem fixedVerdict_tfae_late :
    let c : StressConfig := ⟨3, 2, ⟨1000⟩⟩
    let o : Outcome := {
      attempted := [2, 2, 2]
      succeeded := [2, 1, 1]
      finished := [true, true, false]
      failures := ["worker 2 iteration 0: late", "worker 1 iteration 1: odd"]
      elapsed := ⟨1000⟩ }
    let r := fixedVerdict c o (some 7)
    c.validate = .ok () ∧ o.Accounted c ∧ r.successful = 2 ∧ r.successful + r.failed = 6 ∧
      r.timedOutWorkers = 1 ∧ (r.raceDetected = true ↔ r.failureDetails ≠ []) := by
  intro c o r
  have ho : o.Accounted c := ⟨rfl, rfl, rfl, by decide,
    [[], ["worker 1 iteration 1: odd"], ["worker 2 iteration 0: late"]], List.Perm.swap _ _ _,
    .cons (fun _ => rfl) (.cons (fun _ => rfl) (.cons (fun h => absurd h (by decide)) .nil))⟩
  have h := fixedVerdict_tfae (c := c) rfl ho (some 7)
  exact ⟨rfl, ho, rfl, h.2.2.2.1, h.2.2.2.2.1, h.2.2.2.2.2.out 0 1⟩

/-! ## Runs for a while -/

section Sums

variable {succeeded attempted : List Nat} (h : List.Forall₂ (· ≤ ·) succeeded attempted)
include h

theorem sum_zipWith_sub :
    (List.zipWith (· - ·) attempted succeeded).sum + succeeded.sum = attempted.sum := by
  induction h with
  | nil => rfl
  | cons hle _ ih =>
    simp only [List.zipWith_cons_cons, List.sum_cons]
    omega

/-- Some worker has a call that was not successful exactly if not all calls were. -/
theorem sum_lt_sum_iff :
    succeeded.sum < attempted.sum ↔ ∃ w ∈ succeeded.zip attempted, w.1 < w.2 := by
  induction h with
  | nil => simp
  | cons hle hrest ih =>
    have hsum := sum_zipWith_sub hrest
    rw [List.zip_cons_cons, List.exists_mem_cons_iff, ← ih, List.sum_cons, List.sum_cons]
    dsimp only
    omega

end Sums

namespace Outcome

/-- The outcome of a run for a while whose workers were all started and have all stopped. Each call
that was not successful was reported once. -/
structure Settled (threads : Nat) (o : Outcome) : Prop where
  started : o.Started
  finished : o.finished = List.replicate threads true
  length_attempted : o.attempted.length = threads
  attempted_pos : 0 < o.attempted.sum
  succeeded_le : List.Forall₂ (· ≤ ·) o.succeeded o.attempted
  failures : o.failures.length = (List.zipWith (· - ·) o.attempted o.succeeded).sum

namespace Settled

variable {threads : Nat} {o : Outcome} (ho : o.Settled threads)
include ho

theorem timedOut_eq : o.timedOut = 0 := by
  rw [ho.started.timedOut_eq, ho.finished]
  simp [List.count_replicate]

theorem failures_ne_nil_iff :
    o.failures ≠ [] ↔ ∃ w ∈ o.succeeded.zip o.attempted, w.1 < w.2 := by
  have hsum := sum_zipWith_sub ho.succeeded_le
  rw [← List.length_pos_iff, ho.failures, ← sum_lt_sum_iff ho.succeeded_le]
  omega

/-- Calls are counted as failed exactly if a call was not successful or the counter is wrong. -/
theorem failed_pos_iff (observed : Option Nat) :
    0 < (durationVerdict threads o observed).failed ↔
      o.succeeded.sum < o.attempted.sum ∨ ∃ n ∈ observed, n ≠ o.succeeded.sum := by
  have hpos := ho.attempted_pos
  have hsum := sum_zipWith_sub ho.succeeded_le
  have hle := reconcile_le o.succeeded.sum o.succeeded.sum observed
  have hfailed : 0 < (durationVerdict threads o observed).failed ↔
      reconcile o.succeeded.sum o.succeeded.sum observed < o.attempted.sum := by
    change 0 < o.attempted.sum - min (reconcile o.succeeded.sum o.succeeded.sum observed)
      o.attempted.sum ↔ _
    omega
  rw [hfailed]
  by_cases hlt : o.succeeded.sum < o.attempted.sum
  · exact ⟨fun _ => .inl hlt, fun _ => hle.trans_lt hlt⟩
  · -- all calls were successful, so there are some
    have hmet := reconcile_eq_iff (Nat.le_refl o.succeeded.sum) (by omega) observed
    have hnot : (∃ n ∈ observed, n ≠ o.succeeded.sum) ↔
        ¬ reconcile o.succeeded.sum o.succeeded.sum observed = o.succeeded.sum := by
      rw [hmet]
      simp
    rw [or_iff_right hlt, hnot]
    omega

theorem raceDetected_iff (observed : Option Nat) :
    (durationVerdict threads o observed).raceDetected = true ↔
      o.failures ≠ [] ∨ ∃ n ∈ observed, n ≠ o.succeeded.sum := by
  have hrace : (durationVerdict threads o observed).raceDetected = true ↔
      0 < (durationVerdict threads o observed).failed ∨ o.failures ≠ [] := by
    simp [durationVerdict]
  rw [hrace, ho.failed_pos_iff, sum_lt_sum_iff ho.succeeded_le, ← ho.failures_ne_nil_iff]
  exact ⟨fun h => h.elim id .inl, .inl⟩

theorem failureDetails_ne_nil_iff (observed : Option Nat) :
    (durationVerdict threads o observed).failureDetails ≠ [] ↔
      o.failures ≠ [] ∨ ∃ n ∈ observed, n ≠ o.succeeded.sum := by
  have hsum : o.succeeded.foldr (· + ·) 0 = o.succeeded.sum := rfl
  simp only [durationVerdict, ho.timedOut_eq, ho.started.unstarted_eq, gt_iff_lt, Nat.lt_irrefl,
    if_false, List.append_nil, ne_eq, List.append_eq_nil_iff, not_and_or]
  cases observed with
  | none => simp
  | some n =>
    simp only [hsum, ite_eq_left_iff, List.cons_ne_nil, Option.mem_some_iff, exists_eq_left',
      imp_false, not_not]

end Settled

end Outcome

/-- **The verdict on a run for a while.** The numbers add up, whatever the workers had counted when
they were looked at. And once the workers have stopped, a race is detected exactly if there is
something to say, which is exactly if some call failed or the counter does not show the number of
successful calls. -/
theorem durationVerdict_tfae (threads : Nat) (o : Outcome) (observed : Option Nat) :
    let r := durationVerdict threads o observed
    r.totalIterations = o.attempted.sum ∧
      r.successful ≤ r.totalIterations ∧
      r.successful + r.failed = r.totalIterations ∧
      (o.Settled threads →
        [r.raceDetected = true,
          r.failureDetails ≠ [],
          o.failures ≠ [] ∨ ∃ n ∈ observed, n ≠ o.succeeded.sum,
          (∃ w ∈ o.succeeded.zip o.attempted, w.1 < w.2) ∨
            ∃ n ∈ observed, n ≠ o.succeeded.sum].TFAE) := by
  have hle : (durationVerdict threads o observed).successful ≤ o.attempted.sum :=
    Nat.min_le_right _ _
  refine ⟨rfl, hle, Nat.add_sub_cancel' hle, fun ho => ?_⟩
  tfae_have 1 ↔ 3 := ho.raceDetected_iff observed
  tfae_have 2 ↔ 3 := ho.failureDetails_ne_nil_iff observed
  tfae_have 3 ↔ 4 := by rw [ho.failures_ne_nil_iff]
  tfae_finish

/-- Two workers have stopped, one with a call that failed, and the counter has lost an update; then
a look at two workers of which one has ended a call since its attempts were counted. -/
theorem durationVerdict_tfae_lost :
    (let o : Outcome := {
        attempted := [3, 2]
        succeeded := [3, 1]
        finished := [true, true]
        failures := ["worker 1 iteration 0: odd"]
        elapsed := ⟨1000⟩ }
      let r := durationVerdict 2 o (some 3)
      o.Settled 2 ∧ r.successful = 3 ∧ r.successful + r.failed = 5 ∧
        (r.raceDetected = true ↔ r.failureDetails ≠ [])) ∧
      let o : Outcome := {
        attempted := [1, 0]
        succeeded := [1, 1]
        finished := [true, false]
        failures := []
        elapsed := ⟨1000⟩ }
      let r := durationVerdict 2 o none
      o.attempted.sum < o.succeeded.sum ∧ r.successful = 1 ∧ r.successful + r.failed = 1 := by
  refine ⟨?_, by decide, rfl, (durationVerdict_tfae 2 _ none).2.2.1⟩
  intro o r
  have ho : o.Settled 2 :=
    ⟨rfl, rfl, rfl, by decide, .cons (by decide) (.cons (by decide) .nil), rfl⟩
  have h := durationVerdict_tfae 2 o (some 3)
  exact ⟨ho, rfl, h.2.2.1, (h.2.2.2 ho).out 0 1⟩

end Interlock.Stress
