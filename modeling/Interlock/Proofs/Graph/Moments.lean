import Interlock.Proofs.Graph.Enumeration
import Interlock.Proofs.Graph.Release

/-!
# A circuit search at every moment

The moments of a search are the states `(Search.step next)^[k] (Search.begin next start earlier)`,
and a search with a limit goes through them in this order until it stops
(`Search.exists_run_eq_iterate`).

Entering a vertex is a call, and the frames are the calls in progress, so the call of the end of the
path goes on until the path is one vertex shorter. Every call comes back, and leaves the path below
it as it was (`Search.exists_return`): the weight of the frames pays for all calls that are made in
between, however often vertices get released and are entered again.

A release is one move, with all that follow from it. So there are no moments inside it, where
vertices that wait have yet to be released: there `Search.InOrder.parked` and `Search.InOrder.cut`
can fail.

`Search.moments` puts together what holds at every moment.
-/

namespace Interlock.Graph

namespace Search

variable {next : Nat → List Nat} {s : Search} {start v : Nat} {outer : List Frame} {f : Frame}
  {earlier : List (List Nat)}

/-! ## The moves -/

/-- What a move makes of the frames: the end of the path looks at one successor, which may be
entered, or it is taken off. -/
theorem frames_step (next : Nat → List Nat) (hframes : s.frames = f :: outer) :
    (∃ w f', f.todo = w :: f'.todo ∧ f'.vertex = f.vertex ∧
      ((s.step next).frames = f' :: outer ∨ ∃ g, (s.step next).frames = g :: f' :: outer)) ∨
    f.todo = [] ∧ (s.step next).frames = resume f.found outer := by
  obtain ⟨start, frames, blocked, waiting, circuits⟩ := s
  subst hframes
  match f with
  | ⟨v, w :: todo, found⟩ =>
    left
    simp only [step]
    split
    · exact ⟨w, ⟨v, todo, true⟩, rfl, rfl, .inl rfl⟩
    · split
      · exact ⟨w, ⟨v, todo, found⟩, rfl, rfl, .inl rfl⟩
      · exact ⟨w, ⟨v, todo, found⟩, rfl, rfl, .inr ⟨_, rfl⟩⟩
  | ⟨v, [], false⟩ => exact .inr ⟨rfl, rfl⟩
  | ⟨v, [], true⟩ => exact .inr ⟨rfl, rfl⟩

/-- Only taking the end off the path unblocks anything. -/
theorem blocked_subset_step (next : Nat → List Nat) (s : Search) :
    s.blocked ⊆ (s.step next).blocked ∨
      ∃ v outer, s.frames = ⟨v, [], true⟩ :: outer ∧
        s.step next = { s with frames := resume true outer }.release v := by
  obtain ⟨start, frames, blocked, waiting, circuits⟩ := s
  match frames with
  | [] => exact .inl (List.Subset.refl _)
  | ⟨v, w :: todo, found⟩ :: outer =>
    left
    simp only [step]
    split
    · exact List.Subset.refl _
    · split
      · exact List.Subset.refl _
      · exact List.subset_cons_self _ _
  | ⟨v, [], false⟩ :: outer => exact .inl (List.Subset.refl _)
  | ⟨v, [], true⟩ :: outer => exact .inr ⟨v, outer, rfl, rfl⟩

theorem invariant_iterate (h : Invariant next s) (k : Nat) :
    Invariant next ((step next)^[k] s) := by
  induction k with
  | zero => exact h
  | succ k ih =>
    rw [Function.iterate_succ_apply']
    exact ih.step

theorem start_iterate (next : Nat → List Nat) (s : Search) (k : Nat) :
    ((step next)^[k] s).start = s.start := by
  induction k with
  | zero => rfl
  | succ k ih => rw [Function.iterate_succ_apply', start_step, ih]

theorem exists_run_eq_iterate (next : Nat → List Nat) (limit moves : Nat) (s : Search) :
    ∃ k ≤ moves, run next limit moves s = (step next)^[k] s := by
  induction moves generalizing s with
  | zero => exact ⟨0, Nat.le_refl _, rfl⟩
  | succ moves ih =>
    rw [run]
    split
    · exact ⟨0, Nat.zero_le _, rfl⟩
    · obtain ⟨k, hk, hrun⟩ := ih (s.step next)
      exact ⟨k + 1, Nat.succ_le_succ hk, hrun⟩

/-! ## Calls come back -/

theorem weight_look_lt {b n w : Nat} {f' : Frame} (hb : 0 < b) (htodo : f.todo = w :: f'.todo) :
    weight b n (f' :: outer) < weight b n (f :: outer) := by
  have hpos : 0 < b ^ (n - (outer.length + 1)) := Nat.pow_pos hb
  simp only [weight, htodo, List.length_cons, Nat.succ_mul]
  omega

/-- **Every call comes back**: the end of the path is taken off in the end and the path below it is
as it was, and until then the path goes on from the end. -/
theorem exists_return {m n : Nat} (hlen : ∀ v, (next v).length ≤ m) (hlt : ∀ v, ∀ w ∈ next v, w < n)
    (hs : s.start < n) (hI : Invariant next s) (hframes : s.frames = f :: outer) :
    ∃ k found, 0 < k ∧ ((step next)^[k] s).frames = resume found outer ∧
      ∀ i < k, (f :: outer).map Frame.vertex <:+ ((step next)^[i] s).frames.map Frame.vertex := by
  induction hN : weight (m + 2) n s.frames using Nat.strong_induction_on generalizing s f outer with
  | _ N ih =>
    subst hN
    have hs' : (s.step next).start < n := start_step next s ▸ hs
    have hweight : weight (m + 2) n (s.step next).frames < weight (m + 2) n s.frames :=
      weight_step_lt hlen (hI.step.length_frames_le hlt hs') (by simp [hframes])
    have hfirst : (f :: outer).map Frame.vertex <:+ s.frames.map Frame.vertex :=
      hframes ▸ List.suffix_rfl
    rcases frames_step next hframes with
      ⟨w, f', htodo, hvertex, hlook | ⟨g, henter⟩⟩ | ⟨-, hleave⟩
    · obtain ⟨k, found, -, hback, hbetween⟩ := ih _ hweight hs' hI.step hlook rfl
      refine ⟨k + 1, found, Nat.succ_pos k, hback, fun i hi => ?_⟩
      cases i with
      | zero => exact hfirst
      | succ i => simpa [hvertex] using hbetween i (by omega)
    · -- the successor's call comes back to this one, which has one successor less to look at
      obtain ⟨k₁, found₁, hk₁, hback₁, hbetween₁⟩ := ih _ hweight hs' hI.step henter rfl
      set t := (step next)^[k₁] (s.step next) with ht
      have hless : weight (m + 2) n t.frames < weight (m + 2) n s.frames := by
        rw [hback₁, weight_resume, hframes]
        exact weight_look_lt (by omega) htodo
      have hst : t.start < n := by rwa [ht, start_iterate]
      obtain ⟨k₂, found₂, -, hback₂, hbetween₂⟩ :=
        ih _ hless hst (invariant_iterate hI.step k₁) hback₁ rfl
      refine ⟨k₂ + k₁ + 1, found₂, Nat.succ_pos _, ?_, fun i hi => ?_⟩
      · rw [Function.iterate_succ_apply, Function.iterate_add_apply]
        exact hback₂
      · cases i with
        | zero => exact hfirst
        | succ i =>
          rw [Function.iterate_succ_apply]
          by_cases hi₁ : i < k₁
          · have hsub := hbetween₁ i hi₁
            rw [List.map_cons, List.map_cons, hvertex] at hsub
            exact (List.suffix_cons _ _).trans hsub
          · obtain ⟨j, rfl⟩ : ∃ j, i = j + k₁ := ⟨i - k₁, by omega⟩
            rw [Function.iterate_add_apply]
            simpa [hvertex] using hbetween₂ j (by omega)
    · refine ⟨1, f.found, Nat.one_pos, hleave, fun i hi => ?_⟩
      obtain rfl : i = 0 := by omega
      exact hfirst

/-- With enough moves ahead of it, a search stops because it is over or at the limit. -/
theorem run_stops {m n limit : Nat} (hlen : ∀ v, (next v).length ≤ m)
    (hlt : ∀ v, ∀ w ∈ next v, w < n) (moves : Nat) (hs : s.start < n) (hI : Invariant next s)
    (hmoves : weight (m + 2) n s.frames ≤ moves) :
    (run next limit moves s).frames = [] ∨ limit ≤ (run next limit moves s).circuits.length := by
  induction moves generalizing s with
  | zero =>
    left
    cases hframes : s.frames with
    | nil => exact hframes
    | cons f outer => simp [hframes, weight] at hmoves
  | succ moves ih =>
    rw [run]
    split
    · rename_i hstop
      simpa using hstop
    · rename_i hgo
      simp only [Bool.or_eq_true, List.isEmpty_iff, not_or] at hgo
      have hs' : (s.step next).start < n := start_step next s ▸ hs
      have hweight := weight_step_lt hlen (hI.step.length_frames_le hlt hs') hgo.1
      exact ih hs' hI.step (by omega)

/-! ## Searches in a component -/

/-- What holds of a search in a component at every moment. -/
structure InOrder (adj : Adjacency) (component : List Nat) (s : Search) : Prop where
  /-- The path is a simple path of the component from the start. -/
  head : s.path ≠ [] → s.path.head? = some s.start
  nodup : s.path.Nodup
  chain : s.path.IsChain (Edge adj.next)
  path_subset : s.path ⊆ component
  /-- All its vertices are blocked. -/
  path_blocked : s.path ⊆ s.blocked
  /-- Nobody waits for a vertex that is not blocked. -/
  unawaited : ∀ w, w ∉ s.blocked → ∀ u, ¬ s.Waits w u
  /-- A blocked vertex off the path waits for each of its successors, and they are all blocked. -/
  parked : ∀ v ∈ component, v ∈ s.blocked → v ∉ s.path → ∀ w ∈ adj.next v, w ∈ component →
    w ≠ s.start ∧ w ∈ s.blocked ∧ s.Waits w v
  /-- So no way leads from it to the start past the path. -/
  cut : ∀ v ∈ s.blocked, ∀ rest ⊆ component, (∀ u ∈ v :: rest, u ∉ s.path) →
    ¬ (v :: rest ++ [s.start]).IsChain (Edge adj.next)

variable {adj : Adjacency} {component : List Nat}

theorem mem_filter_component {w : Nat} :
    w ∈ (adj.next v).filter component.contains ↔ w ∈ adj.next v ∧ w ∈ component := by
  rw [List.mem_filter, List.contains_iff_mem]

/-- A walk whose vertices after the first are in the component stays in it. -/
theorem isChain_component {rest : List Nat} (hrest : rest ⊆ component)
    (hchain : (v :: rest).IsChain (Edge adj.next)) :
    (v :: rest).IsChain (Edge fun v => (adj.next v).filter component.contains) := by
  induction rest generalizing v with
  | nil => exact List.isChain_singleton v
  | cons w rest ih =>
    obtain ⟨hvw, hchain⟩ := List.isChain_cons_cons.1 hchain
    obtain ⟨hw, hrest⟩ := List.cons_subset.1 hrest
    exact List.isChain_cons_cons.2 ⟨mem_filter_component.2 ⟨hvw, hw⟩, ih hrest hchain⟩

theorem Invariant.inOrder (hI : Invariant (fun v => (adj.next v).filter component.contains) s)
    (hstart : s.start ∈ component) : InOrder adj component s where
  head := by
    intro hne
    exact hI.head?_path fun hframes => hne (by simp [path, hframes])
  nodup := hI.nodup_path
  chain := hI.isChain_path.imp fun v w hvw => (mem_filter_component.1 hvw).1
  path_subset := by
    refine hI.isChain_path.induction (· ∈ component) _
      (fun v w hvw _ => (mem_filter_component.1 hvw).2) fun hne => ?_
    have hhead := hI.head?_path fun hframes => hne (by simp [path, hframes])
    rw [List.head?_eq_some_head hne, Option.some.injEq] at hhead
    rwa [hhead]
  path_blocked := fun v hv => hI.onPath v (mem_path.1 hv)
  unawaited := fun w hw u hwait => hw (hI.waited _ hwait)
  parked := by
    intro v _ hv hoff w hw hcomp
    exact hI.parked v hv (fun hmem => hoff (mem_path.2 hmem)) w (mem_filter_component.2 ⟨hw, hcomp⟩)
  cut := by
    intro v hv rest hrest hoff hchain
    refine hI.not_chain_of_blocked rest hv hoff (isChain_component ?_ hchain)
    exact List.append_subset.2 ⟨hrest, by simpa using hstart⟩

/-- The path is extended by the call that is in progress. -/
theorem exists_frame_of_path {p : List Nat} (hpath : s.path = p ++ [v]) :
    ∃ f outer, s.frames = f :: outer ∧ f.vertex = v ∧ outer.map Frame.vertex = p.reverse := by
  have hvertices : s.frames.map Frame.vertex = v :: p.reverse := by
    rw [← List.reverse_reverse (s.frames.map Frame.vertex), ← path, hpath, List.reverse_append,
      List.reverse_singleton, List.singleton_append]
  exact List.map_eq_cons_iff.1 hvertices

theorem exists_length_next_le (adj : Adjacency) (component : List Nat) :
    ∃ m, ∀ v, ((adj.next v).filter component.contains).length ≤ m := by
  refine ⟨adj.flatten.length, fun v => (List.length_filter_le _ _).trans ?_⟩
  rw [Adjacency.next, List.getD_eq_getElem?_getD]
  cases hv : adj[v]? with
  | none => exact Nat.zero_le _
  | some successors =>
    exact (List.sublist_flatten_of_mem (List.mem_of_getElem? hv)).length_le

/-- **A search in the component of its start, at every moment.**

* The path is a simple path of the component from the start, all its vertices are blocked, nobody
  waits for a vertex that is not, and a blocked vertex off the path is cut off from the start
  (`InOrder`).
* A vertex of the path is unblocked only as its own call ends, by way of which a circuit was found.
  It is released with all that wait for it, one after another in any order; this comes to an end,
  and on the way the path below it stays blocked. All this is one move from a moment to the next.
  Inside it `parked` and `cut` of `InOrder` can fail until the last vertex that waits is released,
  and of the states in between only what is said here holds.
* Every call comes back and leaves the path as it was, and until then the path goes on from it.
* A run goes through these moments, and its moves are enough for it to be over or at the limit. -/
theorem moments (hadj : adj.Within) (hs : start < adj.length)
    (hcomp : adj.component? start = some component) (earlier : List (List Nat)) :
    let next v := (adj.next v).filter component.contains
    let moment k := (step next)^[k] (begin next start earlier)
    (∀ k, (moment k).start = start ∧ InOrder adj component (moment k)) ∧
    (∀ k, ∀ v ∈ (moment k).path, v ∉ (moment (k + 1)).blocked →
      ∃ outer, (moment k).frames = ⟨v, [], true⟩ :: outer) ∧
    (∀ k v outer, (moment k).frames = ⟨v, [], true⟩ :: outer → ∀ drain, Drains drain →
      let unblocking j :=
        (unblockNext drain)^[j] ({ moment k with frames := resume true outer }, [v])
      (∃ j, unblocking j = (moment (k + 1), [])) ∧
      ∀ j, (moment (k + 1)).path ⊆ (unblocking j).1.blocked ∧
        ∀ w, w ∉ (unblocking j).1.blocked → ∀ u, ¬ (unblocking j).1.Waits w u) ∧
    (∀ k p v, (moment k).path = p ++ [v] → ∃ j > k, (moment j).path = p ∧
      ∀ i, k ≤ i → i < j → p ++ [v] <+: (moment i).path) ∧
    (∀ limit moves, ∃ k ≤ moves, run next limit moves (begin next start earlier) = moment k) ∧
    ((∀ v, (adj.next v).Nodup) → ∀ limit,
      let last := run next limit (enoughMoves adj.length) (begin next start earlier)
      last.frames = [] ∨ limit ≤ last.circuits.length) := by
  intro next moment
  have hI (k : Nat) : Invariant next (moment k) := invariant_iterate invariant_begin k
  have hstart (k : Nat) : (moment k).start = start := start_iterate next _ k
  have hstep (k : Nat) : moment (k + 1) = (moment k).step next :=
    Function.iterate_succ_apply' (step next) k _
  have hin : start ∈ component := (Adjacency.mem_component? hadj hs hcomp).2 ⟨.refl, .refl⟩
  have horder (k : Nat) : InOrder adj component (moment k) :=
    (hI k).inOrder (by rwa [hstart k])
  have hlt : ∀ v, ∀ w ∈ next v, w < adj.length := fun v w hw =>
    hadj v w (mem_filter_component.1 hw).1
  refine ⟨fun k => ⟨hstart k, horder k⟩, ?_, ?_, ?_, ?_, ?_⟩
  · intro k v hv hfree
    rcases blocked_subset_step next (moment k) with hsub | ⟨w, outer, hframes, hrelease⟩
    · exact absurd (hsub ((horder k).path_blocked hv)) (hstep k ▸ hfree)
    · refine ⟨outer, ?_⟩
      rcases List.mem_cons.1 (hframes ▸ mem_path.1 hv) with rfl | hv
      · exact hframes
      · -- the path below the end is the path of the next moment, which is blocked
        refine absurd ((horder (k + 1)).path_blocked (mem_path.2 ?_)) hfree
        rw [hstep k, hrelease]
        exact map_vertex_resume.symm ▸ hv
  · intro k v outer hframes drain hdrain unblocking
    have hv : v ∈ (moment k).blocked := (hI k).onPath v (by simp [hframes])
    have hrelease : moment (k + 1) = { moment k with frames := resume true outer }.release v := by
      rw [hstep k, step, hframes]
      rfl
    constructor
    · rw [hrelease]
      exact exists_unblockNext_eq_release hdrain hv
    · intro j
      obtain ⟨hkept, hunawaited⟩ := unblockNext_between
        (s := { moment k with frames := resume true outer }) hdrain hv (hI k).waited j
      refine ⟨fun u hu => hkept ?_, hunawaited⟩
      exact hrelease ▸ (horder (k + 1)).path_blocked hu
  · intro k p v hpath
    obtain ⟨f, outer, hframes, rfl, houter⟩ := exists_frame_of_path hpath
    obtain ⟨m, hlen⟩ := exists_length_next_le adj component
    obtain ⟨j, found, hj, hback, hbetween⟩ :=
      exists_return hlen hlt (by rwa [hstart k]) (hI k) hframes
    have hlater (i : Nat) : moment (i + k) = (step next)^[i] (moment k) :=
      Function.iterate_add_apply (step next) i k _
    refine ⟨j + k, by omega, ?_, fun i hki hij => ?_⟩
    · rw [hlater, path, hback, map_vertex_resume, houter, List.reverse_reverse]
    · obtain ⟨i, rfl⟩ : ∃ i', i = i' + k := ⟨i - k, by omega⟩
      have hsuffix := hbetween i (by omega)
      rw [List.map_cons, houter] at hsuffix
      rw [hlater, path, ← List.reverse_suffix]
      simpa using hsuffix
  · intro limit moves
    exact exists_run_eq_iterate next limit moves _
  · intro hnd limit
    have hlen : ∀ v, (next v).length ≤ adj.length :=
      Adjacency.length_filter_next_le hadj hnd component
    exact run_stops hlen hlt _ hs invariant_begin (weight_begin_le earlier (hlen start) hs)

/-- In this graph vertex 2 waits for vertex 1 until the circuit by way of 0 and 1 has been found,
and is then released with it. -/
theorem moments_two_waits :
    let next v := (Adjacency.next [[1], [2, 0], [1]] v).filter [0, 1, 2].contains
    let moment k := (step next)^[k] (begin next 0 [])
    (moment 5).frames = [⟨1, [], true⟩, ⟨0, [], false⟩] ∧ (moment 5).waiting = [(1, 2)] ∧
    (∃ j, (unblockNext entriesFor)^[j] ({ moment 5 with frames := [⟨0, [], true⟩] }, [1]) =
      (moment 6, [])) ∧
    ∃ j > 2, (moment j).path = [0, 1] := by
  have hadj : Adjacency.Within [[1], [2, 0], [1]] := by
    rw [Adjacency.within_iff]
    decide
  have hcomp : Adjacency.component? [[1], [2, 0], [1]] 0 = some [0, 1, 2] := by decide
  obtain ⟨-, -, hrelease, hreturn, -, -⟩ := moments hadj (by decide) hcomp []
  refine ⟨by decide, by decide, ?_, ?_⟩
  · exact (hrelease 5 1 [⟨0, [], false⟩] (by decide) entriesFor drains_entriesFor).1
  · obtain ⟨j, hj, hpath, -⟩ := hreturn 2 [0, 1] 2 (by decide)
    exact ⟨j, hj, hpath⟩

end Search

end Interlock.Graph
