import Interlock.Proofs.Stress.Interleaving

/-!
# What the workers report

A call that fails is reported by the worker that made it. So at any time the failures are what the
workers have reported so far, and a worker has reported each call that ended without success
(`World.Reported`). Every move keeps this (`World.Reported.moves`), hence every schedule does, and
what a test leaves behind is accounted for whether or not its workers stop in time
(`accounted_of_follow`): a test detects a race exactly if it has something to say
(`raceDetected_of_test`).
-/

namespace Interlock.Stress

/-! ## Lists side by side -/

section Sides

variable {α β : Type} {R : α → β → Prop} {as : List α} {bs : List β} {i : Nat} {a : α}

/-- What stands opposite to an element, and how the two can be exchanged for others. -/
theorem exists_forall₂_set (h : List.Forall₂ R as bs) (ha : as[i]? = some a) :
    ∃ b, bs[i]? = some b ∧ R a b ∧
      ∀ a' b', R a' b' → List.Forall₂ R (as.set i a') (bs.set i b') := by
  induction h generalizing i with
  | nil => simp at ha
  | @cons x y xs ys hxy hrest ih =>
    cases i with
    | zero =>
      obtain rfl : x = a := by simpa using ha
      exact ⟨y, rfl, hxy, fun a' b' hR => .cons hR hrest⟩
    | succ i =>
      obtain ⟨b, hb, hR, hset⟩ := ih (by simpa using ha)
      exact ⟨b, by simpa using hb, hR, fun a' b' hR' => .cons hxy (hset a' b' hR')⟩

/-- Some further entries at the end of one of several lists. -/
theorem flatten_set_perm {lists : List (List α)} {entries : List α}
    (h : lists[i]? = some entries) (more : List α) :
    (lists.set i (entries ++ more)).flatten.Perm (lists.flatten ++ more) := by
  induction lists generalizing i with
  | nil => simp at h
  | cons l rest ih =>
    cases i with
    | zero =>
      obtain rfl : l = entries := by simpa using h
      simp only [List.set_cons_zero, List.flatten_cons, List.append_assoc]
      exact List.perm_append_comm.append_left l
    | succ i =>
      simp only [List.set_cons_succ, List.flatten_cons, List.append_assoc]
      exact (ih (by simpa using h)).append_left l

end Sides

/-! ## Reports -/

namespace World

/-- The failures are what the workers have reported, and each worker has reported the calls that
ended without success. -/
def Reported (w : World) : Prop :=
  ∃ reports : List (List String), w.failures.Perm reports.flatten ∧
    List.Forall₂ (fun k entries => k.succeeded + entries.length = k.iteration) w.workers reports

theorem exists_failures_finishCall (w : World) (i : Nat) (k : Worker) (r : CallResult) :
    ∃ more, (w.finishCall i k r).failures = w.failures ++ more ∧ more.length = r.losses := by
  unfold finishCall CallResult.losses
  cases r.failure? with
  | none => exact ⟨[], (List.append_nil _).symm, rfl⟩
  | some message => exact ⟨_, rfl, rfl⟩

namespace Reported

variable {w w' : World} {i : Nat} {worker : Worker}

theorem start (threads : Nat) : (World.start threads).Reported := by
  refine ⟨List.replicate threads [], ?_, ?_⟩
  · simp [World.start]
  · induction threads with
    | zero => exact .nil
    | succ n ih => exact .cons rfl ih

/-- A worker that changes, with what it adds to its reports. -/
theorem put {k : Worker} {more : List String} (h : w.Reported)
    (hworker : w.workers[i]? = some worker) (hworkers : w'.workers = w.workers.set i k)
    (hfailures : w'.failures = w.failures ++ more)
    (hcounted : k.succeeded + more.length + worker.iteration = worker.succeeded + k.iteration) :
    w'.Reported := by
  obtain ⟨reports, hperm, hreports⟩ := h
  obtain ⟨entries, hentries, hworker', hset⟩ := exists_forall₂_set hreports hworker
  refine ⟨reports.set i (entries ++ more), ?_, ?_⟩
  · rw [hfailures]
    exact (hperm.append_right more).trans (flatten_set_perm hentries more).symm
  · rw [hworkers]
    refine hset k _ ?_
    rw [List.length_append]
    omega

theorem moves {call : Call} {more : Worker → Bool} (h : w.Reported)
    (hworker : w.workers[i]? = some worker) (hmoves : w.Moves call more i worker w') :
    w'.Reported := by
  cases hmoves with
  | begin idle goesOn =>
    exact h.put hworker rfl (List.append_nil _).symm (by simp)
  | stop idle enough =>
    exact h.put hworker rfl (List.append_nil _).symm (by simp)
  | act atCall acts =>
    exact h.put hworker rfl (List.append_nil _).symm (by simp)
  | finish atEnd =>
    rename_i r
    obtain ⟨more, hfailures, hlength⟩ := w.exists_failures_finishCall i worker r
    refine h.put hworker (w.workers_finishCall i worker r) hfailures ?_
    have hlosses : r.losses ≤ 1 := by unfold CallResult.losses; split <;> omega
    simp only [Worker.ended, hlength]
    omega

theorem follow {call : Call} {more : Worker → Bool} {threads : Nat} {schedule : List Nat}
    (h : World.follow call more (.start threads) schedule = some w) : w.Reported :=
  World.follow_induction (fun hw hworker _ => hw.moves hworker) h (start threads)

end Reported

end World

/-! ## Outcomes -/

/-- **What any schedule leaves behind is accounted for,** however far it went. -/
theorem accounted_of_follow {call : Call} {c : StressConfig} {schedule : List Nat} {w : World}
    (h : World.follow call c.goesOn (.start c.threads) schedule = some w) (elapsed : Duration) :
    (Outcome.ofWorld w elapsed).Accounted c := by
  have hbooked := Booked.follow h
  obtain ⟨reports, hperm, hreports⟩ := World.Reported.follow h
  have hworkers : List.Forall₂ (fun k entries => k.succeeded ≤ c.iterations ∧
      (k.finished = true → entries.length = c.iterations - k.succeeded)) w.workers reports := by
    have hmembers := (List.forall₂_and_left _ _).mpr ⟨fun k hk => hk, hreports⟩
    refine hmembers.imp fun k entries ⟨hk, hcounted⟩ => ⟨?_, fun hfinished => ?_⟩
    · have := hbooked.planned k hk
      omega
    · have := (hbooked.stopped k hk hfinished).2
      omega
  obtain ⟨hle, hcounted⟩ := (List.forall₂_and_left _ _).mp hworkers
  have hzip : (Outcome.ofWorld w elapsed).succeeded.zip (Outcome.ofWorld w elapsed).finished =
      w.workers.map fun k => (k.succeeded, k.finished) := List.zip_map'
  refine ⟨rfl, ?_, ?_, List.forall_mem_map.2 hle, reports, hperm, ?_⟩
  · rw [← hbooked.length]
    exact List.length_map _
  · rw [← hbooked.length]
    exact List.length_map _
  · rw [hzip]
    exact List.forall₂_map_left_iff.2 hcounted

/-- **A test detects a race exactly if it has something to say,** which is exactly if a worker is
late, a call failed or the counter does not end at the number of planned calls. -/
theorem raceDetected_of_test {call : Call} {c : StressConfig} {r : TestResult}
    (h : test call c = .ok r) :
    (r.raceDetected = true ↔ r.failureDetails ≠ []) ∧
      (r.raceDetected = true ↔ 0 < r.timedOutWorkers ∨
        (runFixed call c).1.world.failures ≠ [] ∨ r.observedValue ≠ some c.total) := by
  obtain ⟨hc, rfl⟩ := eq_of_test h
  obtain ⟨schedule, hschedule⟩ := exists_follow_runFixed call c
  have ho : Outcome.Accounted c (.ofTimeline (runFixed call c).2 (runFixed call c).1) :=
    accounted_of_follow hschedule _
  have hdetails := failureDetails_fixedVerdict ho.started c (observe true (runFixed call c).1)
  have hrace := ho.raceDetected_iff hc (observe true (runFixed call c).1)
  rw [← or_assoc, ← ho.failures_ne_nil_iff, or_assoc] at hrace
  refine ⟨hrace.trans hdetails.symm, hrace.trans ?_⟩
  -- a test looks at the counter, and its late workers are those that have not stopped
  have hlate : 0 < (Outcome.ofTimeline (runFixed call c).2 (runFixed call c).1).timedOut ↔
      false ∈ (Outcome.ofTimeline (runFixed call c).2 (runFixed call c).1).finished := by
    rw [ho.started.timedOut_eq, List.count_pos_iff]
  have hobserved : (∃ n ∈ observe true (runFixed call c).1, n ≠ c.total) ↔
      observe true (runFixed call c).1 ≠ some c.total := by
    simp [observe]
  exact or_congr hlate.symm (or_congr Iff.rfl hobserved)

end Interlock.Stress
