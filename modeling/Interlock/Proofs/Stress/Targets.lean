import Interlock.Proofs.Stress.Updates

/-!
# What a test says about each target

The verdicts on the targets that can be named, for every interleaving of the workers' steps
(`verdicts_of_target`).

* A target that synchronises its increments is never suspected: the counter ends at the number of
  planned calls, all calls are successful, and there is nothing to report.
* The target that fails at every 97th value fails once for each whole 97 of the planned calls,
  whoever comes by those values.
* A target that reads and then writes can end anywhere between one and the number of planned calls,
  and is suspected exactly if it ends below.
-/

namespace Interlock.Stress

/-! ## The targets as calls -/

namespace Target

/-- The targets that lose no update and report no error. -/
def synchronized : List Target :=
  [.function "locked_increment", .function "atomic_increment", .function "slow_increment",
    .method "increment_locked", .method "increment_atomic"]

/-- The targets that read the counter and then write it. -/
def racing : List Target := [.function "unsafe_increment", .method "increment"]

/-- The target that fails now and then. -/
def flaky : Target := .function "flaky_increment"

theorem call_of_mem_synchronized {t : Target} (h : t ∈ synchronized) :
    (∃ delay, t.call = .guarded delay fun _ => .ok) ∨ t.call = .atomicIncrement := by
  simp only [synchronized, List.mem_cons, List.not_mem_nil, or_false] at h
  rcases h with rfl | rfl | rfl | rfl | rfl
  · exact .inl ⟨none, rfl⟩
  · exact .inr rfl
  · exact .inl ⟨some 10, rfl⟩
  · exact .inl ⟨none, rfl⟩
  · exact .inr rfl

theorem call_of_mem_racing {t : Target} (h : t ∈ racing) : t.call = .bareIncrement := by
  simp only [racing, List.mem_cons, List.not_mem_nil, or_false] at h
  rcases h with rfl | rfl <;> rfl

/-- How a call of the flaky target ends that finds a given value. -/
def flakyResult (v : UInt64) : CallResult :=
  if v % 97 = 96 then .failed s!"counter reached {v}" else .ok

theorem call_flaky : flaky.call = .guarded none flakyResult := rfl

end Target

/-! ## Verdicts -/

/-- The verdict that nothing is wrong. -/
structure Unsuspected (c : StressConfig) (r : TestResult) : Prop where
  observedValue : r.observedValue = some c.total
  successful : r.successful = c.total
  failed : r.failed = 0
  raceDetected : r.raceDetected = false
  failureDetails : r.failureDetails = []

/-- The verdict on a target that fails at every 97th value and loses nothing. -/
structure Flaky (c : StressConfig) (r : TestResult) : Prop where
  observedValue : r.observedValue = some c.total
  failed : r.failed = c.total / 97
  raceDetected : r.raceDetected = true ↔ 97 ≤ c.total

/-- A verdict on a target that may have lost updates. -/
structure Suspected (c : StressConfig) (observed : Nat) (r : TestResult) : Prop where
  observedValue : r.observedValue = some observed
  pos : 1 ≤ observed
  le : observed ≤ c.total
  successful : r.successful = observed
  raceDetected : r.raceDetected = true ↔ observed < c.total

theorem lossesBelow_ok (n : Nat) : lossesBelow (fun _ => .ok) n = 0 := by
  simp [lossesBelow, CallResult.losses, CallResult.failure?]

theorem losses_flakyResult {n : Nat} (h : n < 2 ^ 64) :
    (Target.flakyResult (.ofNat n)).losses = if n % 97 = 96 then 1 else 0 := by
  have hmod : UInt64.ofNat n % 97 = 96 ↔ n % 97 = 96 := by
    rw [← UInt64.toNat_inj, UInt64.toNat_mod, UInt64.toNat_ofNat_of_lt' h]
    rfl
  rw [Target.flakyResult, CallResult.losses]
  by_cases h97 : n % 97 = 96
  · rw [if_pos (hmod.mpr h97), if_pos h97]
    rfl
  · rw [if_neg (mt hmod.mp h97), if_neg h97]
    rfl

theorem lossesBelow_flakyResult {n : Nat} (h : n < 2 ^ 64) :
    lossesBelow Target.flakyResult n = n / 97 := by
  induction n with
  | zero => rfl
  | succ n ih =>
    rw [lossesBelow_succ, ih (by omega), losses_flakyResult (by omega)]
    split <;> omega

variable {call : Call} {c : StressConfig} {w : World}

theorem Completes.unsuspected (h : Completes call c w) (hlossless : Lossless (fun _ => .ok) w)
    (elapsed : Duration) : Unsuspected c (w.verdict c elapsed) := by
  have hcounter : w.memory.counter.toNat = c.total := by rw [hlossless.counter, h.updates_eq]
  have hfailures : w.failures = [] := by
    rw [← List.length_eq_zero_iff, ← h.losses_eq, hlossless.losses, lossesBelow_ok]
  have hsuccessful : (w.verdict c elapsed).successful = c.total := by
    rw [h.successful_verdict elapsed hcounter.le, hfailures, hcounter]
    simp
  have hfailed : (w.verdict c elapsed).failed = 0 := by
    rw [World.failed_verdict, hsuccessful, Nat.sub_self]
  refine ⟨congrArg some hcounter, hsuccessful, hfailed, ?_, ?_⟩
  · rw [← Bool.not_eq_true, World.raceDetected_verdict, hfailed]
    simp [hfailures]
  · rw [h.failureDetails_verdict elapsed hcounter, hfailures]

theorem Completes.flaky (h : Completes call c w) (hlossless : Lossless Target.flakyResult w)
    (hbound : c.total < 2 ^ 64) (elapsed : Duration) : Flaky c (w.verdict c elapsed) := by
  have hcounter : w.memory.counter.toNat = c.total := by rw [hlossless.counter, h.updates_eq]
  have hfailures : w.failures.length = c.total / 97 := by
    rw [← h.losses_eq, hlossless.losses, h.updates_eq, lossesBelow_flakyResult hbound]
  have hfailed : (w.verdict c elapsed).failed = c.total / 97 := by
    rw [World.failed_verdict, h.successful_verdict elapsed hcounter.le, hfailures, hcounter]
    omega
  refine ⟨congrArg some hcounter, hfailed, ?_⟩
  rw [World.raceDetected_verdict, hfailed, ← List.length_pos_iff, hfailures, or_self]
  omega

theorem Completes.suspected (h : Completes call c w) (hracy : Racy c w) (hpos : 0 < c.total)
    (elapsed : Duration) : Suspected c w.memory.counter.toNat (w.verdict c elapsed) := by
  have hle := hracy.counter_le
  have hcounter := hracy.counter_pos
  rw [h.updates_eq] at hle hcounter
  have hsuccessful : (w.verdict c elapsed).successful = w.memory.counter.toNat := by
    rw [h.successful_verdict elapsed hle, hracy.failures]
    simpa using hle
  refine ⟨rfl, hcounter hpos, hle, hsuccessful, ?_⟩
  rw [World.raceDetected_verdict, World.failed_verdict, hsuccessful, hracy.failures]
  simp only [ne_eq, not_true_eq_false, or_false]
  exact Nat.sub_pos_iff_lt

/-- **What a test says about its target,** for every interleaving in which all workers stop in
time. -/
theorem verdicts_of_target (c : StressConfig) (hthreads : 1 ≤ c.threads)
    (hiterations : 1 ≤ c.iterations) (hbound : c.total < 2 ^ 64) (r : TestResult) :
    (∀ t ∈ Target.synchronized, Verdicts t.call c r → Unsuspected c r) ∧
      (Verdicts Target.flaky.call c r → Flaky c r) ∧
      ∀ t ∈ Target.racing, Verdicts t.call c r → ∃ observed, Suspected c observed r := by
  refine ⟨?_, ?_, ?_⟩
  · rintro t ht ⟨w, elapsed, h, rfl⟩
    refine h.unsuspected ?_ elapsed
    rcases Target.call_of_mem_synchronized ht with ⟨delay, hcall⟩ | hcall
    · rw [hcall] at h
      exact h.lossless_of_guarded hbound
    · rw [hcall] at h
      exact h.lossless_of_atomic hbound
  · rintro ⟨w, elapsed, h, rfl⟩
    rw [Target.call_flaky] at h
    exact h.flaky (h.lossless_of_guarded hbound) hbound elapsed
  · rintro t ht ⟨w, elapsed, h, rfl⟩
    rw [Target.call_of_mem_racing ht] at h
    exact ⟨_, h.suspected (h.racy hbound) (Nat.mul_pos hthreads hiterations) elapsed⟩

theorem exists_verdict (call : Call) (c : StressConfig) (schedule : List Nat) (counter : Nat)
    (h : (World.follow call c.goesOn (.start c.threads) schedule).any
      (fun w => w.isOver && w.memory.counter.toNat == counter) = true) :
    ∃ r, Verdicts call c r ∧ r.observedValue = some counter := by
  obtain ⟨w, hfollow, hw⟩ := (Option.any_eq_true _ _).mp h
  obtain ⟨hover, hcounter⟩ := Bool.and_eq_true_iff.mp hw
  refine ⟨w.verdict c ⟨0⟩, ⟨w, ⟨0⟩, ⟨schedule, hfollow, hover⟩, rfl⟩, ?_⟩
  exact congrArg some (beq_iff_eq.mp hcounter)

/-- Two workers take turns: one waits for the mutex that the other has, they come by the failing
value between them, and without the mutex both read before either writes. -/
theorem verdicts_of_target_twoWorkers :
    (∃ r, Verdicts (Target.function "slow_increment").call ⟨2, 1, ⟨1⟩⟩ r ∧
        Unsuspected ⟨2, 1, ⟨1⟩⟩ r) ∧
      (∃ r, Verdicts Target.flaky.call ⟨2, 49, ⟨1⟩⟩ r ∧ Flaky ⟨2, 49, ⟨1⟩⟩ r) ∧
      ∃ r, Verdicts (Target.method "increment").call ⟨2, 1, ⟨1⟩⟩ r ∧ Suspected ⟨2, 1, ⟨1⟩⟩ 1 r := by
  refine ⟨?_, ?_, ?_⟩
  · obtain ⟨r, hr, -⟩ := exists_verdict (Target.function "slow_increment").call
      ⟨2, 1, ⟨1⟩⟩ [0, 1, 0, 0, 0, 0, 0, 1, 1, 0, 1, 1, 0, 1, 1, 1] 2 (by decide +kernel)
    exact ⟨r, hr, (verdicts_of_target _ (by decide) (by decide) (by decide) r).1 _ (by decide) hr⟩
  · obtain ⟨r, hr, -⟩ := exists_verdict Target.flaky.call ⟨2, 49, ⟨1⟩⟩
      ((List.replicate 49 [0, 0, 1, 0, 0, 0, 0, 1, 1, 1, 1, 1]).flatten ++ [0, 1]) 98
      (by decide +kernel)
    exact ⟨r, hr, (verdicts_of_target _ (by decide) (by decide) (by decide) r).2.1 hr⟩
  · obtain ⟨r, hr, hobserved⟩ := exists_verdict (Target.method "increment").call
      ⟨2, 1, ⟨1⟩⟩ [0, 1, 0, 1, 0, 1, 0, 1, 0, 1] 1 (by decide +kernel)
    obtain ⟨observed, h⟩ :=
      (verdicts_of_target _ (by decide) (by decide) (by decide) r).2.2 _ (by decide) hr
    obtain rfl : observed = 1 := Option.some.inj (h.observedValue.symm.trans hobserved)
    exact ⟨r, hr, h⟩

end Interlock.Stress
