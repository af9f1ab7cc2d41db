import Interlock.Graph.Reach
import Mathlib.Data.List.Nodup
import Mathlib.Data.List.Perm.Subperm
import Mathlib.Logic.Relation

/-!
# What the search for reachable vertices finds

The search in rounds finds exactly the vertices that can be reached (`mem_reachable_iff`), given a
list of vertices that `next` does not leave and as many rounds as that list is long.

The rounds keep two facts: everything found can be reached (`reach_subset_of_closed`), and only the
vertices of the frontier can still lead to something new (`Settled`). A round that finds nothing
ends with a closed list, and a round that finds something makes the list longer (`closed_reach`).
-/

namespace Interlock.Graph

/-- One step of a graph that is given by the successors of each vertex. -/
def Edge (next : Nat → List Nat) (v w : Nat) : Prop := w ∈ next v

/-- `next` does not leave a list of vertices. -/
def Closed (next : Nat → List Nat) (vs : List Nat) : Prop := ∀ v ∈ vs, ∀ w ∈ next v, w ∈ vs

/-- Only the vertices of the frontier can lead out of what has been seen. -/
def Settled (next : Nat → List Nat) (frontier seen : List Nat) : Prop :=
  ∀ v ∈ seen, v ∉ frontier → ∀ w ∈ next v, w ∈ seen

variable {next : Nat → List Nat} {frontier seen : List Nat} {v w : Nat}

theorem mem_fresh : w ∈ fresh next frontier seen ↔ (∃ v ∈ frontier, w ∈ next v) ∧ w ∉ seen := by
  simp [fresh]

theorem nodup_eraseDups {α : Type*} [BEq α] [LawfulBEq α] (l : List α) : l.eraseDups.Nodup := by
  induction h : l.length using Nat.strongRecOn generalizing l with
  | ind n ih =>
    cases l with
    | nil => simp
    | cons a l =>
      rw [List.eraseDups_cons, List.nodup_cons]
      refine ⟨by simp, ih _ ?_ _ rfl⟩
      have := List.length_filter_le (fun b => !b == a) l
      rw [List.length_cons] at h
      omega

theorem nodup_fresh : (fresh next frontier seen).Nodup := nodup_eraseDups _

theorem nodup_append_fresh (h : seen.Nodup) : (seen ++ fresh next frontier seen).Nodup :=
  List.nodup_append'.2 ⟨h, nodup_fresh, fun _ hs hf => (mem_fresh.1 hf).2 hs⟩

theorem closed_of_fresh_eq_nil (h : Settled next frontier seen)
    (hf : fresh next frontier seen = []) : Closed next seen := by
  intro v hv w hw
  by_cases hfr : v ∈ frontier
  · by_contra hs
    have : w ∈ fresh next frontier seen := mem_fresh.2 ⟨⟨v, hfr, hw⟩, hs⟩
    simp [hf] at this
  · exact h v hv hfr w hw

theorem Settled.step (h : Settled next frontier seen) :
    Settled next (fresh next frontier seen) (seen ++ fresh next frontier seen) := by
  intro v hv hf w hw
  have hs : v ∈ seen := (List.mem_append.1 hv).resolve_right hf
  by_cases hw' : w ∈ seen
  · exact List.mem_append_left _ hw'
  · by_cases hfr : v ∈ frontier
    · exact List.mem_append_right _ (mem_fresh.2 ⟨⟨v, hfr, hw⟩, hw'⟩)
    · exact absurd (h v hs hfr w hw) hw'

theorem subset_reach (rounds : Nat) : seen ⊆ reach next rounds frontier seen := by
  induction rounds generalizing frontier seen with
  | zero => exact List.Subset.refl _
  | succ rounds ih =>
    simp only [reach]
    split
    · exact List.Subset.refl _
    · exact List.Subset.trans (List.subset_append_left _ _) ih

theorem nodup_reach (rounds : Nat) (h : seen.Nodup) : (reach next rounds frontier seen).Nodup := by
  induction rounds generalizing frontier seen with
  | zero => exact h
  | succ rounds ih =>
    simp only [reach]
    split
    · exact h
    · exact ih (nodup_append_fresh h)

/-- Whatever holds of the vertices seen and is passed on by `next` holds of all that is found. -/
theorem reach_subset_of_closed {P : Nat → Prop} (hP : ∀ v, P v → ∀ w ∈ next v, P w) (rounds : Nat)
    (hf : ∀ v ∈ frontier, P v) (hs : ∀ v ∈ seen, P v) :
    ∀ v ∈ reach next rounds frontier seen, P v := by
  induction rounds generalizing frontier seen with
  | zero => exact hs
  | succ rounds ih =>
    have hnew : ∀ w ∈ fresh next frontier seen, P w := fun w hw => by
      obtain ⟨⟨v, hv, hvw⟩, -⟩ := mem_fresh.1 hw
      exact hP v (hf v hv) w hvw
    simp only [reach]
    split
    · exact hs
    · exact ih hnew fun v hv => (List.mem_append.1 hv).elim (hs v) (hnew v)

/-- With enough rounds for a list that `next` does not leave, the search ends with a closed list. -/
theorem closed_reach {univ : List Nat} (hu : Closed next univ) (rounds : Nat)
    (hfs : frontier ⊆ seen) (hset : Settled next frontier seen) (hnd : seen.Nodup)
    (hsu : seen ⊆ univ) (hlen : univ.length < seen.length + rounds) :
    Closed next (reach next rounds frontier seen) := by
  induction rounds generalizing frontier seen with
  | zero =>
    have := (List.subperm_of_subset hnd hsu).length_le
    omega
  | succ rounds ih =>
    simp only [reach]
    split
    · rename_i h
      exact closed_of_fresh_eq_nil hset (List.isEmpty_iff.1 h)
    · rename_i h
      have hpos : 0 < (fresh next frontier seen).length :=
        List.length_pos_iff.2 fun h' => h (List.isEmpty_iff.2 h')
      have hsu' : seen ++ fresh next frontier seen ⊆ univ := by
        refine List.append_subset.2 ⟨hsu, fun w hw => ?_⟩
        obtain ⟨⟨v, hv, hvw⟩, -⟩ := mem_fresh.1 hw
        exact hu v (hsu (hfs hv)) w hvw
      refine ih (List.subset_append_right _ _) hset.step (nodup_append_fresh hnd) hsu' ?_
      rw [List.length_append]
      omega

/-- **The search finds exactly what can be reached.** -/
theorem mem_reachable_iff (univ : List Nat) (hu : Closed next univ) (hv : v ∈ univ) {n : Nat}
    (hn : univ.length ≤ n) :
    w ∈ reachable next n v ↔ Relation.ReflTransGen (Edge next) v w := by
  constructor
  · intro hw
    have hstart : ∀ u ∈ [v], Relation.ReflTransGen (Edge next) v u := by
      intro u hu
      rw [List.mem_singleton.1 hu]
    exact reach_subset_of_closed (fun u hu w hw => hu.tail hw) n hstart hstart w hw
  · intro h
    have hclosed : Closed next (reachable next n v) :=
      closed_reach hu n (List.Subset.refl _) (fun u hu hn => absurd hu hn) (List.nodup_singleton v)
        (by simpa using hv) (by simp only [List.length_singleton]; omega)
    induction h with
    | refl => exact subset_reach n (List.mem_singleton_self v)
    | tail _ hbc ih => exact hclosed _ ih _ hbc

end Interlock.Graph
