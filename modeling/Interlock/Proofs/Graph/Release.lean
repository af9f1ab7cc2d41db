import Interlock.Proofs.Graph.Search
import Mathlib.Logic.Function.Iterate

/-!
# Releasing a vertex step by step

`Search.release` sets a vertex free together with all that wait for it, directly or by way of
others. The same comes about one vertex at a time (`Search.unblockNext`): a vertex that is taken out
of the blocked ones hands over those that wait for it, and each of them is looked at in turn and
passed over if it is not blocked any more. In whatever order the waiting vertices are handed over,
this comes to an end, and with the same result (`Search.exists_unblockNext_eq_release`).

What has been set free on the way is all in `Search.freed`, so that a vertex which the release
leaves blocked in the end is never unblocked in between (`Search.unblockNext_between`).
-/

namespace Interlock.Graph.Search

variable {s t : Search} {v w : Nat} {drain : Search → Nat → List Nat}

/-- Takes vertices out of the blocked ones and forgets who waits for them. -/
def without (s : Search) (gone : List Nat) : Search :=
  { s with
    blocked := s.blocked.filter fun u => !gone.contains u
    waiting := s.waiting.filter fun p => !gone.contains p.1 }

/-- One move of a release with the vertices that are still to be looked at. `drain` gives, in some
order, those that wait for a vertex. -/
def unblockNext (drain : Search → Nat → List Nat) : Search × List Nat → Search × List Nat
  | (s, []) => (s, [])
  | (s, w :: pending) =>
    if s.blocked.contains w then (s.without [w], drain s w ++ pending) else (s, pending)

/-- `drain` gives those that wait for a vertex and no others. -/
def Drains (drain : Search → Nat → List Nat) : Prop := ∀ s w u, u ∈ drain s w ↔ s.Waits w u

/-- The entries for a vertex in the order in which they are listed. -/
def entriesFor (s : Search) (w : Nat) : List Nat := (s.waiting.filter (·.1 = w)).map Prod.snd

theorem drains_entriesFor : Drains entriesFor := by
  intro s w u
  simp [entriesFor, Waits]

theorem release_eq_without : s.release v = s.without (s.freed v) := rfl

theorem without_nil : s.without [] = s := by
  simp [without]

theorem without_without (a b : List Nat) : (s.without a).without b = s.without (a ++ b) := by
  simp [without, List.filter_filter, Bool.and_comm]

theorem without_congr {a b : List Nat} (h : ∀ u, u ∈ a ↔ u ∈ b) : s.without a = s.without b := by
  have hcontains (u : Nat) : a.contains u = b.contains u := by
    rw [Bool.eq_iff_iff, List.contains_iff_mem, List.contains_iff_mem, h]
  simp only [without, hcontains]

theorem mem_blocked_without {gone : List Nat} {u : Nat} :
    u ∈ (s.without gone).blocked ↔ u ∈ s.blocked ∧ u ∉ gone := by
  simp [without]

theorem waits_without {gone : List Nat} {u : Nat} :
    (s.without gone).Waits w u ↔ s.Waits w u ∧ w ∉ gone := by
  simp [without, Waits]

/-! ## The end of a release -/

/-- Each move takes a blocked vertex out or leaves one vertex less to look at. -/
theorem exists_unblockNext_done (drain : Search → Nat → List Nat) (s : Search) (pending : List Nat) :
    ∃ k, ((unblockNext drain)^[k] (s, pending)).2 = [] := by
  match pending with
  | [] => exact ⟨0, rfl⟩
  | w :: pending =>
    by_cases hw : s.blocked.contains w
    · have hless : (s.without [w]).blocked.length < s.blocked.length := by
        refine List.length_filter_lt_length_iff_exists.2 ⟨w, List.contains_iff_mem.1 hw, ?_⟩
        simp
      obtain ⟨k, hk⟩ := exists_unblockNext_done drain (s.without [w]) (drain s w ++ pending)
      refine ⟨k + 1, ?_⟩
      rw [Function.iterate_succ_apply, unblockNext, if_pos hw, hk]
    · obtain ⟨k, hk⟩ := exists_unblockNext_done drain s pending
      refine ⟨k + 1, ?_⟩
      rw [Function.iterate_succ_apply, unblockNext, if_neg hw, hk]
termination_by (s.blocked.length, pending.length)

/-! ## What a release has done at each moment -/

/-- A release of `v` from `s` that has set `gone` free. -/
structure Unblocking (s : Search) (v : Nat) (state : Search × List Nat) (gone : List Nat) : Prop where
  eq_without : state.1 = s.without gone
  subset : ∀ u ∈ gone, u ∈ s.freed v
  pending : ∀ u ∈ state.2, u ∈ s.blocked → u ∈ s.freed v
  /-- Who waits for a vertex that is set free has been handed over. -/
  handed : ∀ w ∈ gone, ∀ u, s.Waits w u → u ∈ s.blocked → u ∈ gone ∨ u ∈ state.2
  first : v ∈ gone ∨ v ∈ state.2

namespace Unblocking

variable {state : Search × List Nat} {gone : List Nat}

theorem init : Unblocking s v (s, [v]) [] where
  eq_without := without_nil.symm
  subset := by simp
  pending := by
    intro u hu _
    rw [List.mem_singleton.1 hu]
    exact mem_freed.2 .refl
  handed := by simp
  first := .inr List.mem_cons_self

theorem step (hdrain : Drains drain) (hv : v ∈ s.blocked) (h : Unblocking s v state gone) :
    ∃ gone', Unblocking s v (unblockNext drain state) gone' := by
  obtain ⟨t, pending⟩ := state
  obtain ⟨rfl, hsub, hpending, hhanded, hfirst⟩ := h
  dsimp only at hpending hhanded hfirst
  match pending with
  | [] => exact ⟨gone, rfl, hsub, hpending, hhanded, hfirst⟩
  | w :: pending =>
    rw [unblockNext]
    split
    · rename_i hw
      obtain ⟨hblocked, hgone⟩ := mem_blocked_without.1 (List.contains_iff_mem.1 hw)
      have hfreed : w ∈ s.freed v := hpending w List.mem_cons_self hblocked
      refine ⟨gone ++ [w], without_without gone [w], ?_, ?_, ?_, ?_⟩
      · intro u hu
        rcases List.mem_append.1 hu with hu | hu
        · exact hsub u hu
        · exact List.mem_singleton.1 hu ▸ hfreed
      · intro u hu hub
        rcases List.mem_append.1 hu with hu | hu
        · exact freed_of_waits hfreed (waits_without.1 ((hdrain _ _ _).1 hu)).1 hub
        · exact hpending u (List.mem_cons_of_mem _ hu) hub
      · intro x hx u hwait hub
        rcases List.mem_append.1 hx with hx | hx
        · rcases hhanded x hx u hwait hub with hu | hu
          · exact .inl (List.mem_append_left _ hu)
          · rcases List.mem_cons.1 hu with rfl | hu
            · exact .inl (List.mem_append_right _ List.mem_cons_self)
            · exact .inr (List.mem_append_right _ hu)
        · obtain rfl := List.mem_singleton.1 hx
          refine .inr (List.mem_append_left _ ((hdrain _ _ _).2 ?_))
          exact waits_without.2 ⟨hwait, hgone⟩
      · rcases hfirst with hfirst | hfirst
        · exact .inl (List.mem_append_left _ hfirst)
        · rcases List.mem_cons.1 hfirst with rfl | hfirst
          · exact .inl (List.mem_append_right _ List.mem_cons_self)
          · exact .inr (List.mem_append_right _ hfirst)
    · rename_i hw
      -- a blocked vertex that is passed over has been set free before
      have hgone (hblocked : w ∈ s.blocked) : w ∈ gone := by
        by_contra hnot
        exact hw (List.contains_iff_mem.2 (mem_blocked_without.2 ⟨hblocked, hnot⟩))
      refine ⟨gone, rfl, hsub, fun u hu => hpending u (List.mem_cons_of_mem _ hu), ?_, ?_⟩
      · intro x hx u hwait hub
        rcases hhanded x hx u hwait hub with hu | hu
        · exact .inl hu
        · rcases List.mem_cons.1 hu with rfl | hu
          · exact .inl (hgone hub)
          · exact .inr hu
      · rcases hfirst with hfirst | hfirst
        · exact .inl hfirst
        · rcases List.mem_cons.1 hfirst with rfl | hfirst
          · exact .inl (hgone hv)
          · exact .inr hfirst

theorem iterate (hdrain : Drains drain) (hv : v ∈ s.blocked) (k : Nat) :
    ∃ gone, Unblocking s v ((unblockNext drain)^[k] (s, [v])) gone := by
  induction k with
  | zero => exact ⟨[], init⟩
  | succ k ih =>
    obtain ⟨gone, h⟩ := ih
    rw [Function.iterate_succ_apply']
    exact h.step hdrain hv

/-- A release that has nothing left to look at has set free all that it should. -/
theorem mem_gone_iff (h : Unblocking s v state gone) (hdone : state.2 = []) (u : Nat) :
    u ∈ gone ↔ u ∈ s.freed v := by
  refine ⟨h.subset u, fun hu => ?_⟩
  have hreach := mem_freed.1 hu
  clear hu
  induction hreach with
  | refl => simpa [hdone] using h.first
  | tail _ hstep ih =>
    obtain ⟨hwait, hblocked⟩ := mem_waiters.1 hstep
    simpa [hdone] using h.handed _ ih _ hwait hblocked

end Unblocking

/-- **Releasing step by step comes to an end, and is the release at once.** -/
theorem exists_unblockNext_eq_release (hdrain : Drains drain) (hv : v ∈ s.blocked) :
    ∃ k, (unblockNext drain)^[k] (s, [v]) = (s.release v, []) := by
  obtain ⟨k, hk⟩ := exists_unblockNext_done drain s [v]
  obtain ⟨gone, h⟩ := Unblocking.iterate hdrain hv k
  refine ⟨k, Prod.ext ?_ hk⟩
  rw [h.eq_without, release_eq_without]
  exact without_congr (h.mem_gone_iff hk)

/-- On the way nothing is unblocked that is not released in the end, and nobody waits for a vertex
that is not blocked. -/
theorem unblockNext_between (hdrain : Drains drain) (hv : v ∈ s.blocked)
    (hwaited : ∀ p ∈ s.waiting, p.1 ∈ s.blocked) (k : Nat) :
    (s.release v).blocked ⊆ ((unblockNext drain)^[k] (s, [v])).1.blocked ∧
      ∀ w, w ∉ ((unblockNext drain)^[k] (s, [v])).1.blocked →
        ∀ u, ¬ ((unblockNext drain)^[k] (s, [v])).1.Waits w u := by
  obtain ⟨gone, h⟩ := Unblocking.iterate hdrain hv k
  rw [h.eq_without]
  constructor
  · intro u hu
    obtain ⟨hblocked, hfreed⟩ := mem_blocked_release.1 hu
    exact mem_blocked_without.2 ⟨hblocked, fun hgone => hfreed (h.subset u hgone)⟩
  · intro w hw u hwait
    obtain ⟨hwait, hgone⟩ := waits_without.1 hwait
    exact hw (mem_blocked_without.2 ⟨hwaited _ hwait, hgone⟩)

end Interlock.Graph.Search
