import Interlock.Proofs.Stress.Interleaving
import Mathlib.Algebra.Order.Ring.Nat

/-!
# Updates of the counter

A call has made its update when all that is left of it is to give the mutex back and to end
(`Call.result?`). For targets that lose nothing the counter is the number of updates made, and the
calls that fail are those whose old value says so, whatever the interleaving (`Lossless`).

* A call that reads and writes with the mutex held is lossless (`Completes.lossless_of_guarded`):
  only the holder of the mutex is between the two, so what it has read is what the counter shows
  (`Exclusive`).
* So is a call that increments in one step (`Completes.lossless_of_atomic`).
* A call that reads and then writes without the mutex can lose updates. The counter is never ahead
  of the updates made, nor is what a worker has read, and no write leaves it at zero (`Racy`).
-/

namespace Interlock.Stress

/-! ## What has been updated -/

/-- The result of a call that has made its update. -/
def Call.result? : Call → Option CallResult
  | done r => some r
  | unlock (done r) => some r
  | _ => none

namespace Worker

/-- The result of the current call, if it has made its update. -/
def result? (k : Worker) : Option CallResult := k.call.bind Call.result?

/-- The number of calls of a worker that have made their update. -/
def updates (k : Worker) : Nat := k.iteration + if k.result?.isSome then 1 else 0

/-- The number of failures that a worker has still to report. -/
def pending (k : Worker) : Nat := (k.result?.map CallResult.losses).getD 0

theorem updates_of_result?_eq_none {k : Worker} (h : k.result? = none) :
    k.updates = k.iteration := by
  simp [updates, h]

theorem updates_le (k : Worker) : k.updates ≤ k.iteration + k.busy := by
  unfold updates busy result?
  cases k.call with
  | none => simp
  | some c =>
    simp only [Option.bind_some, Option.isSome_some, if_true]
    split <;> omega

end Worker

namespace World

/-- The number of calls that have made their update. -/
def updates (w : World) : Nat := (w.workers.map Worker.updates).sum

/-- The number of failures that are reported or still to be reported. -/
def losses (w : World) : Nat := w.failures.length + (w.workers.map Worker.pending).sum

end World

theorem Booked.updates_lt {c : StressConfig} {w : World} {i : Nat} {worker : Worker}
    (h : Booked c w) (hworker : w.workers[i]? = some worker) {call : Call}
    (hcall : worker.call = some call) (hresult : call.result? = none) : w.updates < c.total := by
  have hmem := List.mem_of_getElem? hworker
  have hlt : (w.workers.map Worker.updates).sum < (w.workers.map fun _ => c.iterations).sum := by
    refine List.sum_lt_sum _ _ (fun k hk => k.updates_le.trans (h.planned k hk)) ⟨worker, hmem, ?_⟩
    have hplanned := h.planned worker hmem
    have hnone : worker.result? = none := by simp [Worker.result?, hcall, hresult]
    have hbusy : worker.busy = 1 := by simp [Worker.busy, hcall]
    rw [Worker.updates_of_result?_eq_none hnone]
    omega
  rwa [List.map_const', List.sum_replicate_nat, h.length] at hlt

/-! ## Lossless runs -/

/-- The number of failures among the calls that find the values below `n` in the counter. -/
def lossesBelow (result : UInt64 → CallResult) (n : Nat) : Nat :=
  ((List.range n).map fun v => (result (.ofNat v)).losses).sum

theorem lossesBelow_succ (result : UInt64 → CallResult) (n : Nat) :
    lossesBelow result (n + 1) = lossesBelow result n + (result (.ofNat n)).losses := by
  simp [lossesBelow, List.range_succ]

/-- The counter is the number of updates made, and each failure belongs to one of the values that it
has had. -/
structure Lossless (result : UInt64 → CallResult) (w : World) : Prop where
  counter : w.memory.counter.toNat = w.updates
  losses : w.losses = lossesBelow result w.updates

namespace Lossless

variable {result : UInt64 → CallResult} {w w' : World} {i : Nat} {worker k : Worker}

theorem start (result : UInt64 → CallResult) (threads : Nat) :
    Lossless result (.start threads) := by
  have hupdates : (World.start threads).updates = 0 := by
    simp [World.start, World.updates, Worker.updates, Worker.result?]
  refine ⟨hupdates.symm ▸ rfl, ?_⟩
  rw [hupdates]
  simp [World.start, World.losses, Worker.pending, Worker.result?, lossesBelow]

/-- A worker that makes no update. -/
theorem silent (h : Lossless result w) (hworker : w.workers[i]? = some worker)
    (hworkers : w'.workers = w.workers.set i k) (hcounter : w'.memory.counter = w.memory.counter)
    (hupdates : k.updates = worker.updates)
    (hlosses : w'.failures.length + k.pending = w.failures.length + worker.pending) :
    Lossless result w' := by
  have hu := sum_map_set Worker.updates (b := k) hworker
  have hp := sum_map_set Worker.pending (b := k) hworker
  have hsame : w'.updates = w.updates := by
    rw [World.updates, World.updates, hworkers]
    omega
  refine ⟨by rw [hcounter, hsame, h.counter], ?_⟩
  rw [hsame, ← h.losses, World.losses, World.losses, hworkers]
  omega

/-- A worker that makes its update, with the result that goes with the old value. -/
theorem update (h : Lossless result w) (hworker : w.workers[i]? = some worker)
    (hworkers : w'.workers = w.workers.set i k)
    (hcounter : w'.memory.counter = w.memory.counter + 1)
    (hbound : w.updates + 1 < 2 ^ 64) (hfailures : w'.failures = w.failures)
    (hbefore : worker.result? = none) (hafter : k.result? = some (result w.memory.counter))
    (hiteration : k.iteration = worker.iteration) : Lossless result w' := by
  have hu := sum_map_set Worker.updates (b := k) hworker
  have hp := sum_map_set Worker.pending (b := k) hworker
  have hmore : w'.updates = w.updates + 1 := by
    have hworkerUpdates := Worker.updates_of_result?_eq_none hbefore
    have hkUpdates : k.updates = worker.iteration + 1 := by
      simp [Worker.updates, hafter, hiteration]
    rw [World.updates, World.updates, hworkers]
    omega
  have hold : UInt64.ofNat w.updates = w.memory.counter := by
    rw [← h.counter, UInt64.ofNat_toNat]
  constructor
  · rw [hcounter, hmore, UInt64.toNat_add, h.counter]
    exact Nat.mod_eq_of_lt hbound
  · rw [hmore, lossesBelow_succ, ← h.losses, hold, World.losses, World.losses, hworkers, hfailures]
    simp only [Worker.pending, hbefore, hafter, Option.map_none, Option.map_some, Option.getD_none,
      Option.getD_some] at hp ⊢
    omega

/-- A worker whose call goes on without an update, or has made it. -/
theorem acted (h : Lossless result w) (hworker : w.workers[i]? = some worker) {call call' : Call}
    (hcall : worker.call = some call) (hresult : call'.result? = call.result?) {m : Memory}
    (hcounter : m.counter = w.memory.counter) (holder : Option Nat) :
    Lossless result (w.acted i worker call' m holder) := by
  refine h.silent hworker rfl hcounter ?_ ?_
  · simp [Worker.updates, Worker.result?, hcall, hresult]
  · simp [World.acted, World.put, Worker.pending, Worker.result?, hcall, hresult]

/-- A worker that begins a call. -/
theorem begin (h : Lossless result w) (hworker : w.workers[i]? = some worker)
    (hidle : worker.call = none) {call : Call} (hresult : call.result? = none) (attempted : Nat) :
    Lossless result (w.put i { worker with call := some call, attempted }) := by
  refine h.silent hworker rfl rfl ?_ ?_
  · simp [Worker.updates, Worker.result?, hidle, hresult]
  · simp [World.put, Worker.pending, Worker.result?, hidle, hresult]

/-- A worker that ends its call. -/
theorem finish (h : Lossless result w) (hworker : w.workers[i]? = some worker) {r : CallResult}
    (hcall : worker.call = some (.done r)) : Lossless result (w.finishCall i worker r) := by
  refine h.silent hworker (w.workers_finishCall i worker r) (by simp) ?_ ?_
  · simp [Worker.ended, Worker.updates, Worker.result?, hcall, Call.result?]
  · rw [World.length_failures_finishCall]
    simp [Worker.ended, Worker.pending, Worker.result?, hcall, Call.result?]

end Lossless

/-- The workers after one of them has changed. -/
theorem getElem?_set_cases {α : Type} {l : List α} {i j : Nat} {a b : α}
    (h : (l.set i b)[j]? = some a) : j = i ∧ a = b ∨ j ≠ i ∧ l[j]? = some a := by
  by_cases hij : j = i
  · subst hij
    refine .inl ⟨rfl, ?_⟩
    have hlt : j < l.length := by simpa using (List.getElem?_eq_some_iff.mp h).1
    rw [List.getElem?_set_self hlt] at h
    exact (Option.some.inj h).symm
  · rw [List.getElem?_set_ne (Ne.symm hij)] at h
    exact .inr ⟨hij, h⟩

/-! ## Calls that hold the mutex -/

namespace Call

/-- Reads the counter, writes it back one higher, gives the mutex back and ends with a result that
depends on what was read. -/
def update (result : UInt64 → CallResult) : Call :=
  get fun v => set (v + 1) (unlock (done (result v)))

/-- An update, perhaps after a while. -/
def delayed (delay : Option Nat) (result : UInt64 → CallResult) : Call :=
  match delay with
  | none => update result
  | some millis => sleep millis (update result)

/-- Updates the counter with the mutex held. -/
def guarded (delay : Option Nat) (result : UInt64 → CallResult) : Call :=
  lock (delayed delay result)

theorem result?_delayed (delay : Option Nat) (result : UInt64 → CallResult) :
    (delayed delay result).result? = none := by
  cases delay <;> rfl

end Call

/-- What is left of a call while the mutex is held and the counter has a given value. -/
inductive Inside (result : UInt64 → CallResult) (counter : UInt64) : Call → Prop
  | wait (millis : Nat) : Inside result counter (.sleep millis (.update result))
  | read : Inside result counter (.update result)
  | write : Inside result counter (.set (counter + 1) (.unlock (.done (result counter))))
  | leave (v : UInt64) : Inside result counter (.unlock (.done (result v)))

theorem inside_delayed (delay : Option Nat) (result : UInt64 → CallResult) (counter : UInt64) :
    Inside result counter (.delayed delay result) := by
  cases delay with
  | none => exact .read
  | some millis => exact .wait millis

/-- What is left of a call, if any, while the mutex is not held. -/
inductive Outside (delay : Option Nat) (result : UInt64 → CallResult) : Option Call → Prop
  | idle : Outside delay result none
  | knock : Outside delay result (some (.guarded delay result))
  | ended (v : UInt64) : Outside delay result (some (.done (result v)))

/-- A worker is inside if it has the mutex, and outside otherwise. -/
def Placed (delay : Option Nat) (result : UInt64 → CallResult) (w : World) (j : Nat)
    (call : Option Call) : Prop :=
  if w.holder = some j then ∃ c, call = some c ∧ Inside result w.memory.counter c
  else Outside delay result call

/-- Only the holder of the mutex is between reading and giving the mutex back, and what it has read
is what the counter shows. -/
structure Exclusive (c : StressConfig) (delay : Option Nat) (result : UInt64 → CallResult)
    (w : World) : Prop where
  booked : Booked c w
  lossless : Lossless result w
  placed : ∀ {j k}, w.workers[j]? = some k → Placed delay result w j k.call

namespace Exclusive

variable {c : StressConfig} {delay : Option Nat} {result : UInt64 → CallResult} {w w' : World}
  {i : Nat} {worker k : Worker}

theorem start (c : StressConfig) (delay : Option Nat) (result : UInt64 → CallResult) :
    Exclusive c delay result (.start c.threads) where
  booked := .start c
  lossless := .start result c.threads
  placed hk := by
    obtain rfl := List.eq_of_mem_replicate (List.mem_of_getElem? hk)
    exact .idle

/-- One worker changes. To the others it matters who has the mutex, and to the one that has it also
the counter. -/
theorem put (h : Exclusive c delay result w) (hbooked : Booked c w') (hlossless : Lossless result w')
    (hworkers : w'.workers = w.workers.set i k) (hself : Placed delay result w' i k.call)
    (hholder : ∀ j, j ≠ i → (w'.holder = some j ↔ w.holder = some j))
    (hcounter : ∀ j, j ≠ i → w.holder = some j → w'.memory.counter = w.memory.counter) :
    Exclusive c delay result w' where
  booked := hbooked
  lossless := hlossless
  placed {j k'} hk' := by
    rw [hworkers] at hk'
    rcases getElem?_set_cases hk' with ⟨rfl, rfl⟩ | ⟨hne, hk'⟩
    · exact hself
    · have hplaced := h.placed hk'
      unfold Placed at hplaced ⊢
      by_cases hj : w.holder = some j
      · rw [if_pos ((hholder j hne).mpr hj), hcounter j hne hj]
        rwa [if_pos hj] at hplaced
      · rw [if_neg (mt (hholder j hne).mp hj)]
        rwa [if_neg hj] at hplaced

/-- The holder of the mutex makes a step. -/
theorem act_inside (h : Exclusive c delay result w) (hworker : w.workers[i]? = some worker)
    (hholder : w.holder = some i) {call call' : Call} {m : Memory} {holder : Option Nat}
    (hcall : worker.call = some call) (hinside : Inside result w.memory.counter call)
    (hacts : Acts i w.memory w.holder call call' m holder) (hbound : c.total < 2 ^ 64)
    (hbooked : Booked c (w.acted i worker call' m holder)) :
    Exclusive c delay result (w.acted i worker call' m holder) := by
  have hothers : ∀ j, j ≠ i → w.holder ≠ some j := by
    intro j hne hj
    exact hne (Option.some.inj (hj.symm.trans hholder))
  have hupdates := fun hresult => h.booked.updates_lt hworker hcall hresult
  cases hinside with
  | wait millis =>
    cases hacts
    refine h.put hbooked (h.lossless.acted hworker hcall (by rfl) rfl _) rfl ?_ (fun _ _ => .rfl)
      fun _ _ _ => rfl
    exact (if_pos hholder).mpr ⟨_, rfl, .read⟩
  | read =>
    cases hacts
    refine h.put hbooked (h.lossless.acted hworker hcall (by rfl) rfl _) rfl ?_ (fun _ _ => .rfl)
      fun _ _ _ => rfl
    exact (if_pos hholder).mpr ⟨_, rfl, .write⟩
  | write =>
    cases hacts
    have hlt := hupdates rfl
    refine h.put hbooked
      (h.lossless.update hworker rfl rfl (by omega) rfl ?_ rfl rfl) rfl ?_ (fun _ _ => .rfl)
      fun j hne hj => absurd hj (hothers j hne)
    · simp [Worker.result?, hcall, Call.result?]
    · exact (if_pos hholder).mpr ⟨_, rfl, .leave _⟩
  | leave v =>
    cases hacts
    refine h.put hbooked (h.lossless.acted hworker hcall (by rfl) rfl _) rfl (.ended v) ?_
      fun _ _ _ => rfl
    intro j hne
    simp [World.acted, hothers j hne]

theorem moves (hbound : c.total < 2 ^ 64) (h : Exclusive c delay result w)
    (hworker : w.workers[i]? = some worker) (hrunning : worker.finished = false)
    (hmoves : w.Moves (.guarded delay result) c.goesOn i worker w') :
    Exclusive c delay result w' := by
  have hbooked := h.booked.moves hworker hrunning hmoves
  have hplaced := h.placed hworker
  unfold Placed at hplaced
  split at hplaced
  · rename_i hholder
    obtain ⟨call, hcall, hinside⟩ := hplaced
    cases hmoves with
    | begin idle | stop idle => simp [hcall] at idle
    | act atCall acts =>
      obtain rfl := Option.some.inj (hcall.symm.trans atCall)
      exact h.act_inside hworker hholder hcall hinside acts hbound hbooked
    | finish atEnd =>
      obtain rfl := Option.some.inj (hcall.symm.trans atEnd)
      cases hinside
  · rename_i hholder
    generalize hcall : worker.call = call at hplaced
    cases hplaced with
    | idle =>
      cases hmoves with
      | begin =>
        refine h.put hbooked (h.lossless.begin hworker hcall rfl _) rfl ?_ (fun _ _ => .rfl)
          fun _ _ _ => rfl
        exact (if_neg hholder).mpr .knock
      | stop =>
        refine h.put hbooked (h.lossless.silent hworker rfl rfl rfl rfl) rfl ?_ (fun _ _ => .rfl)
          fun _ _ _ => rfl
        exact (if_neg hholder).mpr (hcall ▸ .idle)
      | act atCall | finish atCall => simp [hcall] at atCall
    | knock =>
      cases hmoves with
      | begin idle | stop idle => simp [hcall] at idle
      | finish atEnd => simp [hcall, Call.guarded] at atEnd
      | act atCall acts =>
        obtain rfl := Option.some.inj (hcall.symm.trans atCall)
        cases acts with
        | lock _ free =>
          refine h.put hbooked
            (h.lossless.acted hworker hcall (Call.result?_delayed delay result) rfl _) rfl ?_ ?_
            fun _ _ _ => rfl
          · exact (if_pos rfl).mpr ⟨_, rfl, inside_delayed ..⟩
          · intro j hne
            simp [World.acted, free, hne.symm]
    | ended v =>
      cases hmoves with
      | begin idle | stop idle => simp [hcall] at idle
      | act atCall acts =>
        obtain rfl := Option.some.inj (hcall.symm.trans atCall)
        cases acts
      | finish atEnd =>
        rename_i r
        refine h.put hbooked (h.lossless.finish hworker atEnd) (w.workers_finishCall i worker r) ?_
          (fun _ _ => by simp) fun _ _ _ => by simp
        unfold Placed
        rw [if_neg (by simpa using hholder)]
        exact .idle

end Exclusive

/-- **Calls that hold the mutex lose nothing,** whatever the interleaving. -/
theorem Completes.lossless_of_guarded {c : StressConfig} {delay : Option Nat}
    {result : UInt64 → CallResult} {w : World} (h : Completes (.guarded delay result) c w)
    (hbound : c.total < 2 ^ 64) : Lossless result w := by
  obtain ⟨schedule, hfollow, -⟩ := h
  exact (World.follow_induction (Exclusive.moves hbound) hfollow (.start c delay result)).lossless

/-! ## Calls that increment in one step -/

/-- What is left of a call that increments in one step. -/
inductive Stepwise : Option Call → Prop
  | idle : Stepwise none
  | before : Stepwise (some .atomicIncrement)
  | after : Stepwise (some (.done .ok))

/-- Nothing but whole increments happens to the counter. -/
structure Atomic (c : StressConfig) (w : World) : Prop where
  booked : Booked c w
  lossless : Lossless (fun _ => .ok) w
  stepwise : ∀ k ∈ w.workers, Stepwise k.call

namespace Atomic

variable {c : StressConfig} {w w' : World} {i : Nat} {worker k : Worker}

theorem start (c : StressConfig) : Atomic c (.start c.threads) where
  booked := .start c
  lossless := .start _ c.threads
  stepwise k hk := by
    obtain rfl := List.eq_of_mem_replicate hk
    exact .idle

theorem put (h : Atomic c w) (hbooked : Booked c w') (hlossless : Lossless (fun _ => .ok) w')
    (hworkers : w'.workers = w.workers.set i k) (hself : Stepwise k.call) : Atomic c w' where
  booked := hbooked
  lossless := hlossless
  stepwise := by
    rw [hworkers]
    exact forall_mem_set h.stepwise hself

theorem moves (hbound : c.total < 2 ^ 64) (h : Atomic c w) (hworker : w.workers[i]? = some worker)
    (hrunning : worker.finished = false)
    (hmoves : w.Moves .atomicIncrement c.goesOn i worker w') : Atomic c w' := by
  have hbooked := h.booked.moves hworker hrunning hmoves
  have hstepwise := h.stepwise worker (List.mem_of_getElem? hworker)
  cases hmoves with
  | begin idle =>
    exact h.put hbooked (h.lossless.begin hworker idle rfl _) rfl .before
  | stop idle =>
    exact h.put hbooked (h.lossless.silent hworker rfl rfl rfl rfl) rfl hstepwise
  | act atCall acts =>
    rw [atCall] at hstepwise
    cases hstepwise with
    | before =>
      have hlt := h.booked.updates_lt hworker atCall rfl
      cases acts
      refine h.put hbooked (h.lossless.update hworker rfl rfl (by omega) rfl ?_ rfl rfl) rfl .after
      simp [Worker.result?, atCall, Call.result?, Call.atomicIncrement]
    | after => cases acts
  | finish atEnd =>
    exact h.put hbooked (h.lossless.finish hworker atEnd) (w.workers_finishCall ..) .idle

end Atomic

/-- **Calls that increment in one step lose nothing.** -/
theorem Completes.lossless_of_atomic {c : StressConfig} {w : World}
    (h : Completes .atomicIncrement c w) (hbound : c.total < 2 ^ 64) :
    Lossless (fun _ => .ok) w := by
  obtain ⟨schedule, hfollow, -⟩ := h
  exact (World.follow_induction (Atomic.moves hbound) hfollow (.start c)).lossless

/-! ## Calls that read and then write -/

/-- What is left of a call that reads and then writes, after some updates. -/
inductive Unguarded (updates : Nat) : Option Call → Prop
  | idle : Unguarded updates none
  | read : Unguarded updates (some .bareIncrement)
  | write (v : UInt64) (past : v.toNat ≤ updates) :
    Unguarded updates (some (.set (v + 1) (.done .ok)))
  | ended : Unguarded updates (some (.done .ok))

theorem Unguarded.mono {n m : Nat} {call : Option Call} (h : Unguarded n call) (hle : n ≤ m) :
    Unguarded m call := by
  cases h with
  | idle => exact .idle
  | read => exact .read
  | write v past => exact .write v (past.trans hle)
  | ended => exact .ended

/-- The counter is never ahead of the updates made, and it has left zero with the first of them. -/
structure Racy (c : StressConfig) (w : World) : Prop where
  booked : Booked c w
  unguarded : ∀ k ∈ w.workers, Unguarded w.updates k.call
  counter_le : w.memory.counter.toNat ≤ w.updates
  counter_pos : 0 < w.updates → 0 < w.memory.counter.toNat
  failures : w.failures = []

namespace Racy

variable {c : StressConfig} {w w' : World} {i : Nat} {worker k : Worker}

theorem start (c : StressConfig) : Racy c (.start c.threads) where
  booked := .start c
  unguarded k hk := by
    obtain rfl := List.eq_of_mem_replicate hk
    exact .idle
  counter_le := Nat.zero_le _
  counter_pos h := by simp [World.start, World.updates, Worker.updates, Worker.result?] at h
  failures := rfl

/-- A worker that writes nothing. -/
theorem silent (h : Racy c w) (hbooked : Booked c w') (hworker : w.workers[i]? = some worker)
    (hworkers : w'.workers = w.workers.set i k) (hcounter : w'.memory.counter = w.memory.counter)
    (hfailures : w'.failures = w.failures) (hupdates : k.updates = worker.updates)
    (hself : Unguarded w.updates k.call) : Racy c w' := by
  have hu := sum_map_set Worker.updates (b := k) hworker
  have hsame : w'.updates = w.updates := by
    rw [World.updates, World.updates, hworkers]
    omega
  refine ⟨hbooked, ?_, ?_, ?_, hfailures.trans h.failures⟩
  · rw [hworkers, hsame]
    exact forall_mem_set h.unguarded hself
  · rw [hcounter, hsame]
    exact h.counter_le
  · rw [hcounter, hsame]
    exact h.counter_pos

/-- A worker that writes one more than what it has read. -/
theorem write (h : Racy c w) (hbooked : Booked c w') (hworker : w.workers[i]? = some worker)
    (hworkers : w'.workers = w.workers.set i k) {v : UInt64} (hv : v.toNat ≤ w.updates)
    (hcounter : w'.memory.counter = v + 1) (hbound : w.updates + 1 < 2 ^ 64)
    (hfailures : w'.failures = w.failures) (hupdates : k.updates = worker.updates + 1)
    (hself : Unguarded w'.updates k.call) : Racy c w' := by
  have hu := sum_map_set Worker.updates (b := k) hworker
  have hmore : w'.updates = w.updates + 1 := by
    rw [World.updates, World.updates, hworkers]
    omega
  have hwritten : w'.memory.counter.toNat = v.toNat + 1 := by
    rw [hcounter, UInt64.toNat_add]
    exact Nat.mod_eq_of_lt (by simp; omega)
  refine ⟨hbooked, ?_, by omega, by omega, hfailures.trans h.failures⟩
  rw [hworkers]
  refine forall_mem_set (fun k' hk' => (h.unguarded k' hk').mono (by omega)) hself

theorem moves (hbound : c.total < 2 ^ 64) (h : Racy c w) (hworker : w.workers[i]? = some worker)
    (hrunning : worker.finished = false)
    (hmoves : w.Moves .bareIncrement c.goesOn i worker w') : Racy c w' := by
  have hbooked := h.booked.moves hworker hrunning hmoves
  have hunguarded := h.unguarded worker (List.mem_of_getElem? hworker)
  cases hmoves with
  | begin idle =>
    refine h.silent hbooked hworker rfl rfl rfl ?_ .read
    simp [Worker.updates, Worker.result?, idle, Call.result?, Call.bareIncrement,
      Call.readThenWrite]
  | stop idle => exact h.silent hbooked hworker rfl rfl rfl rfl hunguarded
  | act atCall acts =>
    rw [atCall] at hunguarded
    cases hunguarded with
    | read =>
      cases acts
      refine h.silent hbooked hworker rfl rfl rfl ?_ (.write _ h.counter_le)
      simp [Worker.updates, Worker.result?, atCall, Call.result?, Call.bareIncrement,
        Call.readThenWrite]
    | write v past =>
      have hlt := h.booked.updates_lt hworker atCall rfl
      cases acts
      refine h.write hbooked hworker rfl past rfl (by omega) rfl ?_ .ended
      simp [Worker.updates, Worker.result?, atCall, Call.result?]
    | ended => cases acts
  | finish atEnd =>
    rename_i r
    obtain rfl : r = .ok := by
      rw [atEnd] at hunguarded
      cases hunguarded
      rfl
    refine h.silent hbooked hworker (w.workers_finishCall i worker .ok) (by simp) rfl ?_ .idle
    simp [Worker.ended, Worker.updates, Worker.result?, atEnd, Call.result?]

end Racy

/-- **Calls that read and then write lose updates, but never make one up.** -/
theorem Completes.racy {c : StressConfig} {w : World} (h : Completes .bareIncrement c w)
    (hbound : c.total < 2 ^ 64) : Racy c w := by
  obtain ⟨schedule, hfollow, -⟩ := h
  exact World.follow_induction (Racy.moves hbound) hfollow (.start c)

/-! ## The end of a run -/

/-- In the end every planned call has made its update. -/
theorem Completes.updates_eq {call : Call} {c : StressConfig} {w : World} (h : Completes call c w) :
    w.updates = c.total :=
  h.sum_map_eq_total fun k hk => by
    simp [Worker.updates, Worker.result?, h.call_eq_none hk]

/-- In the end no failure is still to be reported. -/
theorem Completes.losses_eq {call : Call} {c : StressConfig} {w : World} (h : Completes call c w) :
    w.losses = w.failures.length := by
  have hpending : ∀ k ∈ w.workers, k.pending = 0 := by
    intro k hk
    simp [Worker.pending, Worker.result?, h.call_eq_none hk]
  rw [World.losses, List.map_congr_left hpending]
  simp

end Interlock.Stress
