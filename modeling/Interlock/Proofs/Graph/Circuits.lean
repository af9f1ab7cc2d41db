import Interlock.Proofs.Graph.Enumeration

/-!
# The elementary circuits of a graph

`circuits adj limit` lists elementary circuits, each once and from its least vertex on, and it lists
all of them unless it stops at the limit (`circuits_found`).
-/

namespace Interlock.Graph

/-- An elementary circuit, written from its least vertex on. -/
def IsLeastCircuit (adj : Adjacency) (start : Nat) (c : List Nat) : Prop :=
  IsCircuit adj.next start c ∧ ∀ v ∈ c, start ≤ v

/-- Which circuits have been found once the starts below `k` are done. -/
structure Found (adj : Adjacency) (limit k : Nat) (found : List (List Nat)) : Prop where
  nodup : found.Nodup
  sound : ∀ c ∈ found, ∃ start < k, IsLeastCircuit adj start c
  length_le : found.length ≤ limit
  complete : found.length < limit → ∀ start < k, ∀ c, IsLeastCircuit adj start c → c ∈ found

variable {adj : Adjacency} {limit k : Nat} {found : List (List Nat)}

theorem Found.extend (hadj : adj.Within) (hnd : ∀ v, (adj.next v).Nodup)
    (hloop : ∀ v, v ∉ adj.next v) (hk : k < adj.length) (h : Found adj limit k found) :
    Found adj limit (k + 1) (circuitsFrom adj limit found k) := by
  have hsound : ∀ c ∈ found, ∃ start < k + 1, IsLeastCircuit adj start c := fun c hc => by
    obtain ⟨start, hlt, hc'⟩ := h.sound c hc
    exact ⟨start, by omega, hc'⟩
  unfold circuitsFrom
  split
  · exact ⟨h.nodup, hsound, h.length_le, fun hlt => by omega⟩
  · rename_i hlim
    split
    · rename_i hcomp
      refine ⟨h.nodup, hsound, h.length_le, fun hlt start hstart c hc => ?_⟩
      rcases Nat.lt_succ_iff_lt_or_eq.1 hstart with hstart | rfl
      · exact h.complete hlt start hstart c hc
      · exact (Adjacency.not_isCircuit_of_component?_eq_none hadj hloop hk hcomp hc.1 hc.2).elim
    · rename_i component hcomp
      dsimp only
      have hiff {c : List Nat} := Adjacency.isCircuit_component_iff hadj hk hcomp (c := c)
      set next := fun v => (adj.next v).filter component.contains with hnext
      have hlt : ∀ v, ∀ w ∈ next v, w < adj.length := fun v w hw =>
        hadj v w (List.mem_of_mem_filter hw)
      have hlen : ∀ v, (next v).length ≤ adj.length :=
        Adjacency.length_filter_next_le hadj hnd component
      obtain ⟨fresh, hfresh, hfnd, hfsound, hfcomplete⟩ := Search.run_begin limit found
        (fun v => (hnd v).filter component.contains) hlen hlt hk
      have hle : (Search.run next limit (enoughMoves adj.length)
          (.begin next k found)).circuits.length ≤ limit :=
        Search.length_run_le _ (by simp only [Search.begin]; omega)
      rw [hfresh] at hfcomplete hle ⊢
      refine ⟨List.nodup_append'.2 ⟨hfnd, h.nodup, fun c hc hc' => ?_⟩, ?_, hle, ?_⟩
      · -- circuits from different starts differ in their first vertex
        obtain ⟨start, hstart, hc''⟩ := h.sound c hc'
        have : some start = some k := hc''.1.head.symm.trans (hfsound c hc).head
        simp only [Option.some.injEq] at this
        omega
      · intro c hc
        rcases List.mem_append.1 hc with hc | hc
        · exact ⟨k, by omega, hiff.1 (hfsound c hc)⟩
        · exact hsound c hc
      · intro hlim' start hstart c hc
        rcases Nat.lt_succ_iff_lt_or_eq.1 hstart with hstart | rfl
        · exact List.mem_append_right _ (h.complete (by omega) start hstart c hc)
        · exact List.mem_append_left _ (hfcomplete hlim' c (hiff.2 hc))

/-- **Which circuits are listed.** -/
theorem circuits_found (hadj : adj.Within) (hnd : ∀ v, (adj.next v).Nodup)
    (hloop : ∀ v, v ∉ adj.next v) (limit : Nat) :
    Found adj limit adj.length (circuits adj limit) := by
  have hfold : ∀ k ≤ adj.length,
      Found adj limit k ((List.range k).foldl (circuitsFrom adj limit) []) := by
    intro k hk
    induction k with
    | zero => exact ⟨List.nodup_nil, by simp, by simp, fun _ start h => by omega⟩
    | succ k ih =>
      rw [List.range_succ, List.foldl_append, List.foldl_cons, List.foldl_nil]
      exact (ih (by omega)).extend hadj hnd hloop (by omega)
  obtain ⟨hn, hs, hl, hc⟩ := hfold adj.length le_rfl
  exact ⟨List.nodup_reverse.2 hn, fun c hc => hs c (List.mem_reverse.1 hc),
    by simpa [circuits] using hl, fun hlt start hstart c hcirc =>
      List.mem_reverse.2 (hc (by simpa [circuits] using hlt) start hstart c hcirc)⟩

end Interlock.Graph
