import Interlock.Proofs.Stress.Verdict
import Mathlib.Algebra.BigOperators.Group.List.Basic
import Mathlib.Algebra.Order.BigOperators.Group.List
import Mathlib.Algebra.Order.Ring.Nat

/-!
# Interleavings

A run of fixed length is any schedule of its workers. What one step can do is said once: a step of a
call changes the call, the memory and the mutex (`Acts`), and a worker begins a call, makes a step
of it, ends it or stops (`Moves`). Every invariant of a run is an invariant of these moves
(`World.follow_induction`).

Whatever the target, the books are kept (`Booked`): a worker makes no more calls than planned and
stops only when it has made them all, and each call that has ended is counted once, as a success or
as a failure. A run in time is one of the schedules (`exists_follow_runFixed`), so what holds of
every complete interleaving (`Completes`) holds of a test in which all workers stop in time
(`verdicts_of_test`).
-/

namespace Interlock.Stress

/-! ## Moves -/

/-- What a step of a call that worker `i` makes leaves of the call, and what it does to the memory
and to the mutex. -/
inductive Acts (i : Nat) (m : Memory) (holder : Option Nat) :
    Call → Call → Memory → Option Nat → Prop
  | get (k : UInt64 → Call) : Acts i m holder (.get k) (k m.counter) m holder
  | set (v : UInt64) (k : Call) : Acts i m holder (.set v k) k { m with counter := v } holder
  | fetchAdd (n : UInt64) (k : UInt64 → Call) :
    Acts i m holder (.fetchAdd n k) (k m.counter) { m with counter := m.counter + n } holder
  | lock (k : Call) (free : holder = none) : Acts i m holder (.lock k) k m (some i)
  | unlock (k : Call) : Acts i m holder (.unlock k) k m none
  | sleep (millis : Nat) (k : Call) : Acts i m holder (.sleep millis k) k m holder

namespace World

/-- The world after a step of a call that is not over. -/
def acted (w : World) (i : Nat) (worker : Worker) (c : Call) (m : Memory) (holder : Option Nat) :
    World :=
  { w.put i { worker with call := some c } with memory := m, holder }

/-- What worker `i`, being in the state `worker`, does with one step. -/
inductive Moves (call : Call) (more : Worker → Bool) (w : World) (i : Nat) (worker : Worker) :
    World → Prop
  | begin (idle : worker.call = none) (goesOn : more worker = true) :
    Moves call more w i worker
      (w.put i { worker with call := some call, attempted := worker.attempted + 1 })
  | stop (idle : worker.call = none) (enough : more worker = false) :
    Moves call more w i worker (w.put i { worker with finished := true })
  | act {c c' : Call} {m : Memory} {holder : Option Nat} (atCall : worker.call = some c)
    (acts : Acts i w.memory w.holder c c' m holder) :
    Moves call more w i worker (w.acted i worker c' m holder)
  | finish {r : CallResult} (atEnd : worker.call = some (.done r)) :
    Moves call more w i worker (w.finishCall i worker r)

variable {call : Call} {more : Worker → Bool} {w w' : World} {i : Nat}

theorem moves_of_stepCall {worker : Worker} {c : Call} (hcall : worker.call = some c)
    (h : w.stepCall i worker c = some w') : Moves call more w i worker w' := by
  cases c with
  | done r =>
    obtain rfl := Option.some.inj h
    exact .finish hcall
  | get k =>
    obtain rfl := Option.some.inj h
    exact .act hcall (.get k)
  | set v k =>
    obtain rfl := Option.some.inj h
    exact .act hcall (.set v k)
  | fetchAdd n k =>
    obtain rfl := Option.some.inj h
    exact .act hcall (.fetchAdd n k)
  | lock k =>
    rw [stepCall] at h
    split at h
    · rename_i hfree
      obtain rfl := Option.some.inj h
      exact .act hcall (.lock k hfree)
    · cases h
  | unlock k =>
    obtain rfl := Option.some.inj h
    exact .act hcall (.unlock k)
  | sleep millis k =>
    obtain rfl := Option.some.inj h
    exact .act hcall (.sleep millis k)

/-- **Every step is one of the moves.** -/
theorem moves_of_step (h : w.step call more i = some w') :
    ∃ worker, w.workers[i]? = some worker ∧ worker.finished = false ∧
      Moves call more w i worker w' := by
  rw [step, Option.bind_eq_bind, Option.bind_eq_some_iff] at h
  obtain ⟨worker, hworker, h⟩ := h
  refine ⟨worker, hworker, ?_⟩
  split at h
  · cases h
  · rename_i hrunning
    refine ⟨by simpa using hrunning, ?_⟩
    split at h
    · rename_i c hcall
      exact moves_of_stepCall hcall h
    · rename_i hidle
      split at h
      · rename_i hmore
        obtain rfl := Option.some.inj h
        exact .begin hidle hmore
      · rename_i hmore
        obtain rfl := Option.some.inj h
        exact .stop hidle (by simpa using hmore)

/-- What every move keeps is kept by every schedule. -/
theorem follow_induction {P : World → Prop}
    (hmove : ∀ {w w' i worker}, P w → w.workers[i]? = some worker → worker.finished = false →
      Moves call more w i worker w' → P w')
    {schedule : List Nat} (h : w.follow call more schedule = some w') (hw : P w) : P w' := by
  induction schedule generalizing w with
  | nil =>
    obtain rfl := Option.some.inj h
    exact hw
  | cons i rest ih =>
    rw [follow, List.foldlM_cons, Option.bind_eq_bind, Option.bind_eq_some_iff] at h
    obtain ⟨next, hstep, hrest⟩ := h
    obtain ⟨worker, hworker, hrunning, hmoves⟩ := moves_of_step hstep
    exact ih hrest (hmove hw hworker hrunning hmoves)

end World

/-! ## Sums over the workers -/

/-- A sum over the workers after one of them has changed. -/
theorem sum_map_set {α : Type} (f : α → Nat) {l : List α} {i : Nat} {a b : α}
    (h : l[i]? = some a) : ((l.set i b).map f).sum + f a = (l.map f).sum + f b := by
  induction l generalizing i with
  | nil => simp at h
  | cons x rest ih =>
    cases i with
    | zero =>
      obtain rfl : x = a := by simpa using h
      simp only [List.set_cons_zero, List.map_cons, List.sum_cons]
      omega
    | succ i =>
      have := ih (i := i) (by simpa using h)
      simp only [List.set_cons_succ, List.map_cons, List.sum_cons]
      omega

theorem forall_mem_set {α : Type} {P : α → Prop} {l : List α} {i : Nat} {b : α}
    (h : ∀ a ∈ l, P a) (hb : P b) : ∀ a ∈ l.set i b, P a := by
  intro a ha
  rcases List.mem_or_eq_of_mem_set ha with hmem | rfl
  · exact h a hmem
  · exact hb

/-! ## The end of a call -/

/-- The number of failures that a result counts for. -/
def CallResult.losses (r : CallResult) : Nat := if r.failure?.isSome then 1 else 0

/-- A worker after a call with a given result. -/
def Worker.ended (k : Worker) (r : CallResult) : Worker :=
  { k with
    iteration := k.iteration + 1
    call := none
    succeeded := k.succeeded + (1 - r.losses) }

namespace World

variable (w : World) (i : Nat) (k : Worker) (r : CallResult)

theorem workers_finishCall : (w.finishCall i k r).workers = w.workers.set i (k.ended r) := by
  unfold finishCall Worker.ended CallResult.losses
  cases r.failure? <;> rfl

theorem length_failures_finishCall :
    (w.finishCall i k r).failures.length = w.failures.length + r.losses := by
  unfold finishCall CallResult.losses
  cases r.failure? <;> simp [put]

@[simp] theorem memory_finishCall : (w.finishCall i k r).memory = w.memory := by
  unfold finishCall
  cases r.failure? <;> rfl

@[simp] theorem holder_finishCall : (w.finishCall i k r).holder = w.holder := by
  unfold finishCall
  cases r.failure? <;> rfl

end World

/-! ## The books -/

/-- The rule by which a worker of a run of fixed length goes on. -/
def StressConfig.goesOn (c : StressConfig) (k : Worker) : Bool := k.iteration < c.iterations

/-- The number of calls in which a worker is. -/
def Worker.busy (k : Worker) : Nat := if k.call.isSome then 1 else 0

/-- The workers make the calls that are planned, and those that have ended are counted. -/
structure Booked (c : StressConfig) (w : World) : Prop where
  length : w.workers.length = c.threads
  planned : ∀ k ∈ w.workers, k.iteration + k.busy ≤ c.iterations
  stopped : ∀ k ∈ w.workers, k.finished = true → k.call = none ∧ k.iteration = c.iterations
  counted : (w.workers.map Worker.succeeded).sum + w.failures.length =
    (w.workers.map Worker.iteration).sum

namespace Booked

variable {c : StressConfig} {w w' : World} {i : Nat} {worker : Worker}

theorem start (c : StressConfig) : Booked c (.start c.threads) where
  length := by simp [World.start]
  planned k hk := by
    obtain rfl := List.eq_of_mem_replicate hk
    exact Nat.zero_le _
  stopped k hk := by
    obtain rfl := List.eq_of_mem_replicate hk
    simp
  counted := by simp [World.start]

/-- A worker that changes, with the failures, so that what has ended stays counted. -/
theorem put {k : Worker} (h : Booked c w) (hworker : w.workers[i]? = some worker)
    (hworkers : w'.workers = w.workers.set i k)
    (hplanned : k.iteration + k.busy ≤ c.iterations)
    (hstopped : k.finished = true → k.call = none ∧ k.iteration = c.iterations)
    (hcounted : k.succeeded + w'.failures.length + worker.iteration =
      worker.succeeded + w.failures.length + k.iteration) : Booked c w' where
  length := by rw [hworkers, List.length_set, h.length]
  planned := by
    rw [hworkers]
    exact forall_mem_set h.planned hplanned
  stopped := by
    rw [hworkers]
    exact forall_mem_set h.stopped hstopped
  counted := by
    have hi := sum_map_set Worker.iteration (b := k) hworker
    have hs := sum_map_set Worker.succeeded (b := k) hworker
    have := h.counted
    rw [hworkers]
    omega

theorem moves {call : Call} (h : Booked c w) (hworker : w.workers[i]? = some worker)
    (hrunning : worker.finished = false) (hmoves : w.Moves call c.goesOn i worker w') :
    Booked c w' := by
  have hplanned := h.planned worker (List.mem_of_getElem? hworker)
  cases hmoves with
  | begin idle goesOn =>
    refine h.put hworker rfl ?_ ?_ rfl
    · have : worker.iteration < c.iterations := by simpa [StressConfig.goesOn] using goesOn
      exact this
    · simp [hrunning]
  | stop idle enough =>
    refine h.put hworker rfl hplanned (fun _ => ⟨idle, ?_⟩) rfl
    have : c.iterations ≤ worker.iteration := by simpa [StressConfig.goesOn] using enough
    change worker.iteration = c.iterations
    omega
  | act atCall acts =>
    refine h.put hworker rfl ?_ ?_ rfl
    · simpa [Worker.busy, atCall] using hplanned
    · simp [hrunning]
  | finish atEnd =>
    rename_i r
    refine h.put hworker (w.workers_finishCall i worker r) ?_ ?_ ?_
    · simpa [Worker.ended, Worker.busy, atEnd] using hplanned
    · simp [Worker.ended, hrunning]
    · have hlosses : r.losses ≤ 1 := by unfold CallResult.losses; split <;> omega
      rw [World.length_failures_finishCall]
      simp only [Worker.ended]
      omega

/-- Every schedule keeps the books. -/
theorem follow {call : Call} {schedule : List Nat}
    (h : World.follow call c.goesOn (.start c.threads) schedule = some w) : Booked c w :=
  World.follow_induction moves h (start c)

end Booked

/-! ## Complete runs -/

/-- Some interleaving of the workers' steps leads to this world, in which all workers have
stopped. -/
def Completes (call : Call) (c : StressConfig) (w : World) : Prop :=
  ∃ schedule, World.follow call c.goesOn (.start c.threads) schedule = some w ∧ w.isOver = true

/-- What a world has left behind after some time. -/
def Outcome.ofWorld (w : World) (elapsed : Duration) : Outcome where
  attempted := w.workers.map Worker.attempted
  succeeded := w.workers.map Worker.succeeded
  finished := w.workers.map Worker.finished
  failures := w.failures
  elapsed

theorem Outcome.started_ofWorld (w : World) (elapsed : Duration) : (ofWorld w elapsed).Started :=
  rfl

/-- The verdict on a world after some time. -/
def World.verdict (c : StressConfig) (elapsed : Duration) (w : World) : TestResult :=
  fixedVerdict c (.ofWorld w elapsed) (some w.memory.counter.toNat)

namespace World

variable (c : StressConfig) (elapsed : Duration) (w : World)

theorem failed_verdict :
    (w.verdict c elapsed).failed = c.total - (w.verdict c elapsed).successful :=
  rfl

theorem raceDetected_verdict : (w.verdict c elapsed).raceDetected = true ↔
    0 < (w.verdict c elapsed).failed ∨ w.failures ≠ [] := by
  simp [verdict, fixedVerdict, Outcome.ofWorld]

end World

/-- The verdicts that a test can come to: the workers' steps are interleaved in any way, all workers
stop before the deadline, and it takes any time. -/
def Verdicts (call : Call) (c : StressConfig) (r : TestResult) : Prop :=
  ∃ w elapsed, Completes call c w ∧ r = w.verdict c elapsed

namespace Completes

variable {call : Call} {c : StressConfig} {w : World}

theorem booked (h : Completes call c w) : Booked c w :=
  let ⟨_, hfollow, _⟩ := h
  .follow hfollow

theorem finished (h : Completes call c w) {k : Worker} (hk : k ∈ w.workers) :
    k.finished = true := by
  obtain ⟨_, _, hover⟩ := h
  exact List.all_eq_true.mp hover k hk

theorem call_eq_none (h : Completes call c w) {k : Worker} (hk : k ∈ w.workers) : k.call = none :=
  (h.booked.stopped k hk (h.finished hk)).1

/-- A sum over the workers in which each counts for as many as the calls that it was to make. -/
theorem sum_map_eq_total (h : Completes call c w) {f : Worker → Nat}
    (hf : ∀ k ∈ w.workers, f k = k.iteration) : (w.workers.map f).sum = c.total := by
  have hall : w.workers.map f = w.workers.map fun _ => c.iterations :=
    List.map_congr_left fun k hk => (hf k hk).trans (h.booked.stopped k hk (h.finished hk)).2
  rw [hall, List.map_const', List.sum_replicate_nat, h.booked.length, StressConfig.total]

/-- The successful calls of a complete run. -/
theorem succeededByFinished_eq (h : Completes call c w) (elapsed : Duration) :
    (Outcome.ofWorld w elapsed).succeededByFinished = c.total - w.failures.length := by
  have hsum : (Outcome.ofWorld w elapsed).succeededByFinished =
      (w.workers.map Worker.succeeded).sum := by
    have hfinished : ∀ k ∈ w.workers, k.finished = true := fun k hk => h.finished hk
    unfold Outcome.succeededByFinished Outcome.ofWorld
    generalize w.workers = ks at hfinished
    induction ks with
    | nil => rfl
    | cons k rest ih =>
      have hrest := ih fun k' hk' => hfinished k' (List.mem_cons_of_mem k hk')
      simp only [List.map_cons, List.zip_cons_cons, List.sum_cons] at hrest ⊢
      rw [List.filterMap_cons_some (b := k.succeeded) (by simp [hfinished k List.mem_cons_self]),
        List.foldr_cons, hrest]
  have hcounted := h.booked.counted
  rw [h.sum_map_eq_total fun _ _ => rfl] at hcounted
  omega

theorem unfinishedDetails_eq (h : Completes call c w) (elapsed : Duration) :
    unfinishedDetails c (.ofWorld w elapsed) = [] := by
  rw [(Outcome.started_ofWorld w elapsed).unfinishedDetails_eq_nil_iff, false_notMem_iff]
  exact List.forall_mem_map.mpr fun k hk => h.finished hk

/-- The successful calls that the verdict on a complete run counts, if the counter has no updates
too many: those that reported no error, unless more updates are missing. -/
theorem successful_verdict (h : Completes call c w) (elapsed : Duration)
    (hcounter : w.memory.counter.toNat ≤ c.total) : (w.verdict c elapsed).successful =
      min (c.total - w.failures.length) w.memory.counter.toNat := by
  simp only [World.verdict, fixedVerdict, reconcile, if_pos hcounter,
    h.succeededByFinished_eq elapsed]

/-- The details of a complete run whose counter has lost nothing. -/
theorem failureDetails_verdict (h : Completes call c w) (elapsed : Duration)
    (hcounter : w.memory.counter.toNat = c.total) :
    (w.verdict c elapsed).failureDetails = w.failures := by
  simp only [World.verdict, fixedVerdict, h.unfinishedDetails_eq, if_pos hcounter, List.append_nil]
  rfl

end Completes

/-! ## Runs in time -/

theorem exists_follow_run {call : Call} {c : StressConfig} (pace : Pace) (fuel : Nat)
    (t : Timeline) : ∃ schedule, t.world.follow call c.goesOn schedule =
      some (Timeline.run call (fun _ k => k.iteration < c.iterations) pace fuel t).world := by
  induction fuel generalizing t with
  | zero => exact ⟨[], rfl⟩
  | succ fuel ih =>
    rw [Timeline.run]
    split
    · exact ⟨[], rfl⟩
    · split
      · exact ⟨[], rfl⟩
      · rename_i i due _ _
        split
        · rename_i t' hadvance
          rw [Timeline.advance, Option.bind_eq_bind, Option.bind_eq_some_iff] at hadvance
          obtain ⟨world, hstep, heq⟩ := hadvance
          have hworld : t'.world = world := by rw [← Option.some.inj heq]
          obtain ⟨schedule, hschedule⟩ := ih t'
          rw [hworld] at hschedule
          refine ⟨i :: schedule, ?_⟩
          rw [World.follow, List.foldlM_cons, Option.bind_eq_bind]
          exact Option.bind_eq_some_iff.mpr ⟨world, hstep, hschedule⟩
        · exact ⟨[], rfl⟩

/-- **A run in time is one of the interleavings.** -/
theorem exists_follow_runFixed (call : Call) (c : StressConfig) :
    ∃ schedule, World.follow call c.goesOn (.start c.threads) schedule =
      some (runFixed call c).1.world :=
  exists_follow_run ⟨1000, c.timeout.nanos⟩ enoughSteps (.start c.threads)

theorem verdicts_of_runFixed {call : Call} {c : StressConfig} {r : TestResult}
    (h : r = fixedVerdict c (.ofTimeline (runFixed call c).2 (runFixed call c).1)
      (observe true (runFixed call c).1)) (hlate : r.timedOutWorkers = 0) : Verdicts call c r := by
  subst h
  obtain ⟨schedule, hschedule⟩ := exists_follow_runFixed call c
  refine ⟨(runFixed call c).1.world, _, ⟨schedule, hschedule, ?_⟩, rfl⟩
  have hnone : false ∉ (runFixed call c).1.world.workers.map Worker.finished :=
    List.count_eq_zero.mp ((Outcome.started_ofTimeline _ _).timedOut_eq.symm.trans hlate)
  rw [World.isOver, List.all_eq_true]
  intro k hk
  exact false_notMem_iff.mp hnone k.finished (List.mem_map_of_mem hk)

/-- The verdict that a test comes to, whose plan can be carried out. -/
theorem eq_of_test {call : Call} {c : StressConfig} {r : TestResult} (h : test call c = .ok r) :
    c.validate = .ok () ∧ r = fixedVerdict c (.ofTimeline (runFixed call c).2 (runFixed call c).1)
      (observe true (runFixed call c).1) := by
  rw [test] at h
  cases hvalid : c.validate with
  | error e => simp [hvalid, bind, Except.bind] at h
  | ok _ =>
    simp only [hvalid, bind, Except.bind, pure, Except.pure, Except.ok.injEq] at h
    exact ⟨rfl, h.symm⟩

/-- A test in which no worker is late comes to one of the verdicts. -/
theorem verdicts_of_test {call : Call} {c : StressConfig} {r : TestResult}
    (h : test call c = .ok r) (hlate : r.timedOutWorkers = 0) : Verdicts call c r :=
  verdicts_of_runFixed (eq_of_test h).2 hlate

/-- A test of a method in which no worker is late comes to one of the verdicts. -/
theorem verdicts_of_testMethod {s : Subject} {method : String} {call : Call} {c : StressConfig}
    {r : TestResult} (hmethod : s.method? method = some call) (hobservable : s.observable = true)
    (h : testMethod s method c = .ok r) (hlate : r.timedOutWorkers = 0) : Verdicts call c r := by
  refine verdicts_of_runFixed ?_ hlate
  rw [testMethod] at h
  cases hvalid : c.validate with
  | error e => simp [hvalid, bind, Except.bind] at h
  | ok _ =>
    simp only [hvalid, hmethod, hobservable, bind, Except.bind, pure, Except.pure,
      Except.ok.injEq] at h
    exact h.symm

end Interlock.Stress
