import Interlock.Proofs.Graph.Search
import Mathlib.Tactic.Ring

/-!
# What the circuit search finds

A search that is let run to its end finds every circuit through its start, and each once
(`Search.run_begin`).

A circuit is ahead of a search as long as it leaves the current path by a successor that has not
been looked at (`Search.Ahead`). Each circuit is either ahead of the search or has been found, and
never both (`Search.Progress`): looking at the start finds the path itself, looking at a blocked
vertex passes by no circuit, and going on to a vertex only moves the place where circuits leave the
path. The path is simple, so its length is bounded, and each move lowers a weight in which an
unseen successor counts for more than all that can come of it (`Search.weight_step_lt`).
-/

namespace Interlock.Graph.Search

variable {next : Nat → List Nat} {s : Search} {start v w : Nat} {todo walk c : List Nat}
  {found : Bool} {frames outer : List Frame} {blocked : List Nat} {waiting : List (Nat × Nat)}
  {circuits earlier fresh : List (List Nat)}

/-! ## Circuits ahead -/

/-- A walk leaves the path of some frames by a successor that has not been looked at. -/
def Ahead (walk : List Nat) : List Frame → Prop
  | [] => False
  | f :: outer =>
    (∃ w ∈ f.todo, ((f :: outer).map Frame.vertex).reverse ++ [w] <+: walk) ∨ Ahead walk outer

theorem ahead_resume : Ahead walk (resume found frames) ↔ Ahead walk frames := by
  cases frames <;> rfl

theorem ahead_cons_nil : Ahead walk (⟨v, [], found⟩ :: outer) ↔ Ahead walk outer := by
  simp [Ahead]

theorem ahead_look (found' : Bool) : Ahead walk (⟨v, w :: todo, found⟩ :: outer) ↔
    ((⟨v, todo, found'⟩ :: outer).map Frame.vertex).reverse ++ [w] <+: walk ∨
      Ahead walk (⟨v, todo, found'⟩ :: outer) := by
  simp [Ahead, or_assoc]

theorem ahead_of_enter (h : Ahead walk (⟨w, next w, false⟩ :: ⟨v, todo, found⟩ :: outer)) :
    Ahead walk (⟨v, w :: todo, found⟩ :: outer) := by
  rcases h with ⟨x, -, hx⟩ | h
  · refine .inl ⟨w, List.mem_cons_self, List.IsPrefix.trans ?_ hx⟩
    simp
  · exact (ahead_look found).2 (.inr h)

/-- A walk that follows the path to its end leaves it nowhere below. -/
theorem not_ahead_of_path_prefix (hnd : ∀ v, (next v).Nodup) {f : Frame}
    (hlinks : (f :: outer).IsChain (Link next))
    (hwalk : ((f :: outer).map Frame.vertex).reverse <+: walk) : ¬ Ahead walk outer := by
  induction outer generalizing f with
  | nil => exact id
  | cons g rest ih =>
    obtain ⟨hlink, hlinks⟩ := List.isChain_cons_cons.1 hlinks
    rw [List.map_cons, List.reverse_cons] at hwalk
    rintro (⟨w, hw, hpre⟩ | h)
    · have heq := (List.prefix_of_prefix_length_le hpre hwalk (by simp)).eq_of_length (by simp)
      have hw' : w = f.vertex := by simpa using heq
      have hnd' := hlink.sublist.nodup (hnd g.vertex)
      exact (List.nodup_cons.1 hnd').1 (hw' ▸ hw)
    · exact ih hlinks ((List.prefix_append _ _).trans hwalk) h

/-- A circuit that goes on from the path to another vertex than the start goes on from there. -/
theorem exists_next_of_prefix (hc : IsCircuit next start c) (hne : w ≠ start) {p : List Nat}
    (hpre : p ++ [w] <+: c ++ [start]) : ∃ x ∈ next w, p ++ [w] ++ [x] <+: c ++ [start] := by
  obtain ⟨t, ht⟩ := hpre
  cases t with
  | nil =>
    rw [List.append_nil] at ht
    exact absurd (List.append_inj_right' ht rfl) (by simpa using hne)
  | cons x t =>
    refine ⟨x, ?_, ⟨t, by rw [← ht, List.append_assoc, List.singleton_append]⟩⟩
    have hchain := hc.chain
    rw [← ht, List.append_assoc] at hchain
    exact (List.isChain_cons_cons.1 hchain.right_of_append).1

/-- A circuit that goes from the path to the start is the path. -/
theorem eq_of_prefix_start (hc : IsCircuit next start c) {p : List Nat} (hp : p.head? = some start)
    (hpre : p ++ [start] <+: c ++ [start]) : c = p := by
  obtain ⟨t, ht⟩ := hpre
  rcases List.eq_nil_or_concat t with rfl | ⟨t, x, rfl⟩
  · rw [List.append_nil] at ht
    exact (List.append_cancel_right ht).symm
  · -- otherwise the start would occur twice on the circuit
    have hct : p ++ [start] ++ t = c := by
      rw [List.concat_eq_append, ← List.append_assoc] at ht
      exact List.append_inj_left' ht rfl
    have hnd := hc.nodup
    rw [← hct, List.append_assoc, List.nodup_append'] at hnd
    exact absurd (List.mem_append_left t (List.mem_singleton_self start))
      (fun h => hnd.2.2 (List.mem_of_mem_head? hp) h)

/-! ## Progress -/

/-- How far a search has come with the circuits through its start. -/
structure Progress (next : Nat → List Nat) (s : Search) (fresh : List (List Nat)) : Prop where
  nodup : fresh.Nodup
  sound : ∀ c ∈ fresh, IsCircuit next s.start c
  passed : ∀ c ∈ fresh, ¬ Ahead (c ++ [s.start]) s.frames
  complete : ∀ c, IsCircuit next s.start c → c ∈ fresh ∨ Ahead (c ++ [s.start]) s.frames

theorem progress_begin (circuits : List (List Nat)) :
    Progress next (begin next start circuits) [] where
  nodup := List.nodup_nil
  sound := by simp
  passed := by simp
  complete := by
    intro c hc
    have hchain := hc.chain
    obtain ⟨rest, rfl⟩ := hc.eq_cons
    refine .inr (.inl ?_)
    cases rest with
    | nil => exact ⟨start, (List.isChain_cons_cons.1 hchain).1, by simp [begin]⟩
    | cons x rest => exact ⟨x, (List.isChain_cons_cons.1 hchain).1, by simp [begin]⟩

namespace Progress

/-- Looking at the start finds the path. -/
theorem close (hnd : ∀ v, (next v).Nodup)
    (hI : Invariant next ⟨start, ⟨v, start :: todo, found⟩ :: outer, blocked, waiting, circuits⟩)
    (h : Progress next ⟨start, ⟨v, start :: todo, found⟩ :: outer, blocked, waiting, circuits⟩
      fresh)
    {circuits' : List (List Nat)} :
    Progress next ⟨start, ⟨v, todo, true⟩ :: outer, blocked, waiting, circuits'⟩
      (((⟨v, todo, true⟩ :: outer).map Frame.vertex).reverse :: fresh) := by
  set p := ((⟨v, todo, true⟩ :: outer).map Frame.vertex).reverse with hp
  have hstart : p.head? = some start := hI.head?_path (by simp)
  have htodo : start :: todo <:+ next v := hI.todo _ rfl
  have hahead : Ahead (p ++ [start]) (⟨v, start :: todo, found⟩ :: outer) :=
    (ahead_look true).2 (.inl List.prefix_rfl)
  have hcircuit : IsCircuit next start p := by
    refine ⟨hstart, hI.nodup_path, ?_⟩
    refine hI.isChain_path.append (List.isChain_singleton _) ?_
    simpa [path, Edge] using htodo.subset List.mem_cons_self
  have hpassed : ¬ Ahead (p ++ [start]) (⟨v, todo, true⟩ :: outer) := by
    rintro (⟨w, hw, hpre⟩ | h)
    · have hw' : w = start := by simpa [hp] using hpre.eq_of_length (by simp [hp])
      exact (List.nodup_cons.1 (htodo.sublist.nodup (hnd v))).1 (hw' ▸ hw)
    · exact not_ahead_of_path_prefix hnd hI.links (List.prefix_append _ _) h
  refine ⟨List.nodup_cons.2 ⟨fun hmem => h.passed p hmem hahead, h.nodup⟩, ?_, ?_, ?_⟩
  · intro c hc
    rcases List.mem_cons.1 hc with rfl | hc
    · exact hcircuit
    · exact h.sound c hc
  · intro c hc
    rcases List.mem_cons.1 hc with rfl | hc
    · exact hpassed
    · exact fun h' => h.passed c hc ((ahead_look true).2 (.inr h'))
  · intro c hc
    rcases h.complete c hc with hmem | h'
    · exact .inl (List.mem_cons_of_mem _ hmem)
    · rcases (ahead_look true).1 h' with hpre | h'
      · exact .inl (eq_of_prefix_start hc hstart hpre ▸ List.mem_cons_self)
      · exact .inr h'

/-- Looking at a blocked vertex passes by no circuit. -/
theorem skip
    (hI : Invariant next ⟨start, ⟨v, w :: todo, found⟩ :: outer, blocked, waiting, circuits⟩)
    (h : Progress next ⟨start, ⟨v, w :: todo, found⟩ :: outer, blocked, waiting, circuits⟩ fresh)
    (hne : w ≠ start) (hw : w ∈ blocked) :
    Progress next ⟨start, ⟨v, todo, found⟩ :: outer, blocked, waiting, circuits⟩ fresh := by
  refine ⟨h.nodup, h.sound, fun c hc h' => h.passed c hc ((ahead_look found).2 (.inr h')), ?_⟩
  intro c hc
  refine (h.complete c hc).imp_right fun h' => ((ahead_look found).1 h').resolve_left fun hpre => ?_
  -- a circuit by way of the blocked vertex would lead back to the start past the path
  set p := ((⟨v, todo, found⟩ :: outer).map Frame.vertex).reverse with hp
  obtain ⟨t, ht⟩ := hpre
  rcases List.eq_nil_or_concat t with rfl | ⟨rest, x, rfl⟩
  · rw [List.append_nil] at ht
    exact hne (by simpa using List.append_inj_right' ht rfl)
  · rw [List.concat_eq_append, ← List.append_assoc] at ht
    have hct := List.append_inj_left' ht rfl
    have hnd := hc.nodup
    have hchain := hc.chain
    rw [← hct, List.append_assoc] at hnd
    rw [← hct, List.append_assoc, List.append_assoc] at hchain
    refine hI.not_chain_of_blocked rest hw (fun u hu hmem => ?_) hchain.right_of_append
    exact (List.nodup_append'.1 hnd).2.2 hmem hu

/-- Going on to a vertex loses no circuit that goes on there. -/
theorem enter
    (h : Progress next ⟨start, ⟨v, w :: todo, found⟩ :: outer, blocked, waiting, circuits⟩ fresh)
    (hne : w ≠ start) {blocked' : List Nat} :
    Progress next ⟨start, ⟨w, next w, false⟩ :: ⟨v, todo, found⟩ :: outer, blocked', waiting,
      circuits⟩ fresh := by
  refine ⟨h.nodup, h.sound, fun c hc h' => h.passed c hc (ahead_of_enter h'), fun c hc => ?_⟩
  refine (h.complete c hc).imp_right fun h' => ?_
  rcases (ahead_look found).1 h' with hpre | h'
  · obtain ⟨x, hx, hpre⟩ := exists_next_of_prefix hc hne hpre
    exact .inl ⟨x, hx, by simpa using hpre⟩
  · exact .inr h'

/-- Nothing is ahead at a vertex whose successors have all been looked at. -/
theorem leave
    (h : Progress next ⟨start, ⟨v, [], found⟩ :: outer, blocked, waiting, circuits⟩ fresh)
    {blocked' : List Nat} {waiting' : List (Nat × Nat)} :
    Progress next ⟨start, resume found outer, blocked', waiting', circuits⟩ fresh := by
  have hahead (c : List Nat) : Ahead (c ++ [start]) (resume found outer) ↔
      Ahead (c ++ [start]) (⟨v, [], found⟩ :: outer) := ahead_resume.trans ahead_cons_nil.symm
  exact ⟨h.nodup, h.sound, fun c hc h' => h.passed c hc ((hahead c).1 h'),
    fun c hc => (h.complete c hc).imp_right (hahead c).2⟩

/-- **Every move finds at most one circuit more, and loses none.** -/
theorem step (hnd : ∀ v, (next v).Nodup) (hI : Invariant next s) (h : Progress next s fresh)
    (hfound : s.circuits = fresh ++ earlier) :
    ∃ fresh', (s.step next).circuits = fresh' ++ earlier ∧ Progress next (s.step next) fresh' := by
  obtain ⟨start, frames, blocked, waiting, circuits⟩ := s
  match frames with
  | [] => exact ⟨fresh, hfound, h⟩
  | ⟨v, w :: todo, found⟩ :: outer =>
    simp only [Search.step]
    split
    · rename_i hw
      subst hw
      exact ⟨_, congrArg (List.cons _) hfound, h.close hnd hI⟩
    · rename_i hne
      split
      · rename_i hb
        exact ⟨fresh, hfound, h.skip hI hne (List.contains_iff_mem.1 hb)⟩
      · exact ⟨fresh, hfound, h.enter hne⟩
  | ⟨v, [], false⟩ :: outer => exact ⟨fresh, hfound, h.leave⟩
  | ⟨v, [], true⟩ :: outer => exact ⟨fresh, hfound, h.leave⟩

end Progress

/-! ## The end of the search -/

theorem start_step (next : Nat → List Nat) (s : Search) : (s.step next).start = s.start := by
  unfold step
  split
  · rfl
  · split
    · rfl
    · split <;> rfl
  · dsimp only
    split <;> rfl

/-- The path is simple, so it has at most as many vertices as there are. -/
theorem Invariant.length_frames_le {n : Nat} (h : Invariant next s)
    (hlt : ∀ v, ∀ w ∈ next v, w < n) (hs : s.start < n) : s.frames.length ≤ n := by
  have hpath : ∀ v ∈ s.path, v < n := by
    refine h.isChain_path.induction (· < n) _ (fun v w hvw _ => hlt v w hvw) fun hne => ?_
    have hframes : s.frames ≠ [] := fun e => hne (by simp [path, e])
    have := h.head?_path hframes
    rw [List.head?_eq_some_head hne, Option.some.injEq] at this
    rwa [this]
  have hsub : s.path ⊆ List.range n := fun v hv => List.mem_range.2 (hpath v hv)
  simpa [path] using (List.subperm_of_subset h.nodup_path hsub).length_le

/-- The moves that some frames may still give rise to, on a path of at most `n` vertices with fewer
than `b` moves for each vertex. -/
def weight (b n : Nat) : List Frame → Nat
  | [] => 0
  | f :: outer => f.todo.length * b ^ (n - (outer.length + 1)) + 1 + weight b n outer

theorem weight_resume {b n : Nat} : weight b n (resume found frames) = weight b n frames := by
  cases frames <;> rfl

theorem weight_step_lt {m n : Nat} (hlen : ∀ v, (next v).length ≤ m)
    (hdepth : (s.step next).frames.length ≤ n) (hne : s.frames ≠ []) :
    weight (m + 2) n (s.step next).frames < weight (m + 2) n s.frames := by
  obtain ⟨start, frames, blocked, waiting, circuits⟩ := s
  match frames with
  | [] => exact absurd rfl hne
  | ⟨v, w :: todo, found⟩ :: outer =>
    have hpos : 0 < (m + 2) ^ (n - (outer.length + 1)) := Nat.pow_pos (by omega)
    revert hdepth
    simp only [step]
    split
    · simp only [weight, List.length_cons, Nat.succ_mul]
      omega
    · split
      · simp only [weight, List.length_cons, Nat.succ_mul]
        omega
      · -- the weight of the successor pays for all that can come of it
        intro hdepth
        simp only [List.length_cons] at hdepth
        obtain ⟨k, hk⟩ : ∃ k, n - (outer.length + 1) = k + 1 :=
          ⟨n - (outer.length + 2), by omega⟩
        have hk' : n - (outer.length + 1 + 1) = k := by omega
        have hnew : (next w).length * (m + 2) ^ k + 2 ≤ (m + 2) ^ (k + 1) := by
          have h₁ : (next w).length * (m + 2) ^ k ≤ m * (m + 2) ^ k :=
            Nat.mul_le_mul_right _ (hlen w)
          have h₂ : 1 ≤ (m + 2) ^ k := Nat.one_le_pow _ _ (by omega)
          have h₃ : (m + 2) ^ (k + 1) = m * (m + 2) ^ k + 2 * (m + 2) ^ k := by ring
          omega
        simp only [weight, List.length_cons, hk, hk', Nat.succ_mul]
        omega
  | ⟨v, [], false⟩ :: outer =>
    simp only [step, Bool.false_eq_true, if_false, await, weight_resume, weight]
    omega
  | ⟨v, [], true⟩ :: outer =>
    simp only [step, if_true, release, weight_resume, weight]
    omega

theorem length_circuits_step_le (next : Nat → List Nat) (s : Search) :
    (s.step next).circuits.length ≤ s.circuits.length + 1 := by
  unfold step
  split
  · simp
  · split
    · simp
    · split <;> simp
  · dsimp only
    split <;> simp [release, await]

theorem length_run_le {limit : Nat} (moves : Nat) (h : s.circuits.length ≤ limit) :
    (run next limit moves s).circuits.length ≤ limit := by
  induction moves generalizing s with
  | zero => exact h
  | succ moves ih =>
    simp only [run]
    split
    · exact h
    · rename_i hgo
      simp only [Bool.or_eq_true, decide_eq_true_eq, not_or] at hgo
      refine ih ?_
      have := length_circuits_step_le next s
      omega

/-- A search with enough moves ahead of it either stops at the limit or finds every circuit. -/
theorem run_progress {m n limit : Nat} (hnd : ∀ v, (next v).Nodup)
    (hlen : ∀ v, (next v).length ≤ m) (hlt : ∀ v, ∀ w ∈ next v, w < n) (moves : Nat)
    (hs : s.start < n) (hI : Invariant next s) (h : Progress next s fresh)
    (hfound : s.circuits = fresh ++ earlier) (hmoves : weight (m + 2) n s.frames ≤ moves) :
    ∃ fresh', (run next limit moves s).circuits = fresh' ++ earlier ∧ fresh'.Nodup ∧
      (∀ c ∈ fresh', IsCircuit next s.start c) ∧
      ((run next limit moves s).circuits.length < limit →
        ∀ c, IsCircuit next s.start c → c ∈ fresh') := by
  have hdone (hfr : s.frames = []) : ∀ c, IsCircuit next s.start c → c ∈ fresh := fun c hc =>
    (h.complete c hc).resolve_right (by simp [hfr, Ahead])
  induction moves generalizing s fresh with
  | zero =>
    have hfr : s.frames = [] := by
      cases hframes : s.frames with
      | nil => rfl
      | cons f outer => simp [hframes, weight] at hmoves
    exact ⟨fresh, hfound, h.nodup, h.sound, fun _ => hdone hfr⟩
  | succ moves ih =>
    simp only [run]
    split
    · rename_i hstop
      refine ⟨fresh, hfound, h.nodup, h.sound, fun hlim => hdone ?_⟩
      simp only [Bool.or_eq_true, decide_eq_true_eq, List.isEmpty_iff] at hstop
      exact hstop.resolve_right (by omega)
    · rename_i hgo
      simp only [Bool.or_eq_true, List.isEmpty_iff, not_or] at hgo
      obtain ⟨fresh', hfound', h'⟩ := h.step hnd hI hfound
      have hs' : (s.step next).start < n := start_step next s ▸ hs
      have hweight := weight_step_lt hlen (hI.step.length_frames_le hlt hs') hgo.1
      rw [← start_step next s]
      refine ih hs' hI.step h' hfound' (by omega) fun hfr c hc => ?_
      exact (h'.complete c hc).resolve_right (by simp [hfr, Ahead])

/-- A search that is about to begin has enough moves ahead of it. -/
theorem weight_begin_le {n : Nat} (circuits : List (List Nat)) (hlen : (next start).length ≤ n)
    (hs : start < n) : weight (n + 2) n (begin next start circuits).frames ≤ enoughMoves n := by
  obtain ⟨k, rfl⟩ : ∃ k, n = k + 1 := ⟨n - 1, by omega⟩
  have h₁ : (next start).length * (k + 1 + 2) ^ k ≤ (k + 1) * (k + 1 + 2) ^ k :=
    Nat.mul_le_mul_right _ hlen
  have h₂ : 1 ≤ (k + 1 + 2) ^ k := Nat.one_le_pow _ _ (by omega)
  have h₃ : (k + 1 + 2) ^ (k + 1) = (k + 1) * (k + 1 + 2) ^ k + 2 * (k + 1 + 2) ^ k := by ring
  have h₄ : (k + 1 + 2) ^ (k + 1) ≤ enoughMoves (k + 1) :=
    Nat.pow_le_pow_right (by omega) (by omega)
  simp only [begin, weight, List.length_nil, Nat.zero_add, Nat.add_sub_cancel, Nat.add_zero]
  omega

/-- **A search from a start finds the circuits through it**, each once, unless it stops at the
limit. -/
theorem run_begin {n : Nat} (limit : Nat) (earlier : List (List Nat))
    (hnd : ∀ v, (next v).Nodup) (hlen : ∀ v, (next v).length ≤ n)
    (hlt : ∀ v, ∀ w ∈ next v, w < n) (hs : start < n) :
    ∃ fresh, (run next limit (enoughMoves n) (begin next start earlier)).circuits =
        fresh ++ earlier ∧ fresh.Nodup ∧ (∀ c ∈ fresh, IsCircuit next start c) ∧
      ((run next limit (enoughMoves n) (begin next start earlier)).circuits.length < limit →
        ∀ c, IsCircuit next start c → c ∈ fresh) :=
  run_progress hnd hlen hlt (enoughMoves n) hs invariant_begin (progress_begin earlier) rfl
    (weight_begin_le earlier (hlen start) hs)

end Interlock.Graph.Search
