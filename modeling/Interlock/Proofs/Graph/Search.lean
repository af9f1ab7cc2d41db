import Interlock.Proofs.Graph.Component
import Mathlib.Data.List.Infix

/-!
# The invariant of the circuit search

What every move of a search keeps (`Search.Invariant`, `Search.Invariant.step`):

* the path is a simple path from the start, and all its vertices are blocked;
* a blocked vertex off the path waits for each of its successors, all of which are blocked, and the
  start is not among them (`Invariant.parked`), so that no circuit can come by it before one of
  them is released (`Invariant.not_chain_of_blocked`);
* a vertex that is not blocked has nobody waiting for it (`Invariant.waited`);
* no vertex of the path waits, directly or by way of others, for one that lies above it
  (`Invariant.upward`). Entries of `waiting` may be stale, so a vertex of the path may well wait for
  something; this is why releasing the end of the path never releases the path below it.
-/

namespace Interlock.Graph.Search

variable {next : Nat → List Nat} {s : Search} {start v w : Nat} {todo : List Nat} {found : Bool}
  {frames outer : List Frame} {blocked : List Nat} {waiting : List (Nat × Nat)}
  {circuits : List (List Nat)}

/-! ## Views of a search -/

/-- `u` is listed as waiting for `w`. -/
def Waits (s : Search) (w u : Nat) : Prop := (w, u) ∈ s.waiting

theorem mem_path : v ∈ s.path ↔ v ∈ s.frames.map Frame.vertex := by
  simp [path]

theorem mem_waiters {u : Nat} : u ∈ s.waiters w ↔ s.Waits w u ∧ u ∈ s.blocked := by
  simp only [waiters, Waits, List.mem_map, List.mem_filter, Bool.and_eq_true, decide_eq_true_eq,
    List.contains_iff_mem]
  constructor
  · rintro ⟨⟨a, b⟩, ⟨hmem, rfl, hb⟩, rfl⟩
    exact ⟨hmem, hb⟩
  · rintro ⟨hmem, hu⟩
    exact ⟨(w, u), ⟨hmem, rfl, hu⟩, rfl⟩

/-- What a release of `v` sets free. -/
def freed (s : Search) (v : Nat) : List Nat := reachable s.waiters (s.blocked.length + 1) v

theorem mem_freed {u : Nat} : u ∈ s.freed v ↔ Relation.ReflTransGen (Edge s.waiters) v u := by
  refine mem_reachable_iff (v :: s.blocked) ?_ List.mem_cons_self (by simp)
  exact fun a _ b hb => List.mem_cons_of_mem _ (mem_waiters.1 hb).2

theorem mem_blocked_release {u : Nat} :
    u ∈ (s.release v).blocked ↔ u ∈ s.blocked ∧ u ∉ s.freed v := by
  simp [release, freed]

theorem mem_waiting_release {p : Nat × Nat} :
    p ∈ (s.release v).waiting ↔ p ∈ s.waiting ∧ p.1 ∉ s.freed v := by
  simp [release, freed]

/-- Whoever waits for something that is set free is set free with it. -/
theorem freed_of_waits {u : Nat} (hw : w ∈ s.freed v) (hwait : s.Waits w u) (hu : u ∈ s.blocked) :
    u ∈ s.freed v :=
  mem_freed.2 ((mem_freed.1 hw).tail (mem_waiters.2 ⟨hwait, hu⟩))

theorem reflTransGen_waits_of_mem_freed {u : Nat} (hu : u ∈ s.freed v) :
    Relation.ReflTransGen s.Waits v u := by
  have hle : Edge s.waiters ≤ s.Waits := fun _ _ h => (mem_waiters.1 h).1
  exact Relation.ReflTransGen.mono hle v u (mem_freed.1 hu)

/-! ## Frames -/

/-- As long as no circuit has been found by way of a frame or one above it, the successors that have
been looked at are blocked, and the start is not among them. -/
def Unfound (next : Nat → List Nat) (start : Nat) (blocked : List Nat) : List Frame → Prop
  | [] => True
  | f :: outer => f.found = false →
    (∀ w ∈ next f.vertex, w ∉ f.todo → w ≠ start ∧ w ∈ blocked) ∧ Unfound next start blocked outer

/-- The vertex of a frame is the successor that the frame below it looked at last. -/
def Link (next : Nat → List Nat) (child parent : Frame) : Prop :=
  child.vertex :: parent.todo <:+ next parent.vertex

theorem Unfound.mono {blocked' : List Nat} (hb : blocked ⊆ blocked') :
    Unfound next start blocked frames → Unfound next start blocked' frames := by
  induction frames with
  | nil => exact id
  | cons f outer ih =>
    intro h hf
    exact ⟨fun w hw hnt => ((h hf).1 w hw hnt).imp_right (hb ·), ih (h hf).2⟩

/-- At the end of the path only the vertex matters for the links. -/
theorem isChain_link_cons {f f' : Frame} (h : (f :: outer).IsChain (Link next))
    (hv : f'.vertex = f.vertex) : (f' :: outer).IsChain (Link next) := by
  rw [List.isChain_cons] at h ⊢
  refine ⟨fun g hg => ?_, h.2⟩
  have := h.1 g hg
  rwa [Link, ← hv] at this

theorem map_vertex_resume : (resume found frames).map Frame.vertex = frames.map Frame.vertex := by
  cases frames <;> rfl

theorem unfound_resume (h : found = false → Unfound next start blocked frames) :
    Unfound next start blocked (resume found frames) := by
  cases frames with
  | nil => exact trivial
  | cons f outer =>
    intro hf
    simp only [Bool.or_eq_false_iff] at hf
    exact h hf.2 hf.1

/-! ## The invariant -/

/-- What every move of a search keeps. -/
structure Invariant (next : Nat → List Nat) (s : Search) : Prop where
  base : ∀ f ∈ s.frames.getLast?, f.vertex = s.start
  todo : ∀ f ∈ s.frames.head?, f.todo <:+ next f.vertex
  links : s.frames.IsChain (Link next)
  nodup : (s.frames.map Frame.vertex).Nodup
  onPath : ∀ v ∈ s.frames.map Frame.vertex, v ∈ s.blocked
  parked : ∀ v ∈ s.blocked, v ∉ s.frames.map Frame.vertex → ∀ w ∈ next v,
    w ≠ s.start ∧ w ∈ s.blocked ∧ s.Waits w v
  unfound : Unfound next s.start s.blocked s.frames
  waited : ∀ p ∈ s.waiting, p.1 ∈ s.blocked
  upward : (s.frames.map Frame.vertex).Pairwise fun v u => ¬ Relation.ReflTransGen s.Waits v u

theorem invariant_begin : Invariant next (begin next start circuits) where
  base := by simp [begin]
  todo := by simp [begin]
  links := by simp [begin]
  nodup := by simp [begin]
  onPath := by simp [begin]
  parked := by
    intro v hv hnot
    simp only [begin, List.mem_singleton, List.map_cons, List.map_nil] at hv hnot
    exact absurd hv hnot
  unfound := by
    intro _
    exact ⟨fun w hw hnt => absurd hw hnt, trivial⟩
  waited := by simp [begin]
  upward := by simp [begin]

namespace Invariant

/-- Looking at a successor of the end of the path changes neither the path nor what is blocked. -/
theorem look
    (h : Invariant next ⟨start, ⟨v, w :: todo, found⟩ :: outer, blocked, waiting, circuits⟩)
    {found' : Bool} {circuits' : List (List Nat)}
    (hw : found' = false → found = false ∧ w ≠ start ∧ w ∈ blocked) :
    Invariant next ⟨start, ⟨v, todo, found'⟩ :: outer, blocked, waiting, circuits'⟩ where
  base := by
    have := h.base
    cases outer <;> simpa using this
  todo := by
    have := h.todo
    simp only [List.head?_cons, Option.mem_def, Option.some.injEq, forall_eq'] at this ⊢
    exact (List.suffix_cons _ _).trans this
  links := isChain_link_cons h.links rfl
  nodup := h.nodup
  onPath := h.onPath
  parked := h.parked
  unfound := by
    intro hf
    obtain ⟨hfound, hne, hb⟩ := hw hf
    obtain ⟨hseen, houter⟩ := h.unfound hfound
    refine ⟨fun u hu hnt => ?_, houter⟩
    by_cases hu' : u = w
    · exact hu' ▸ ⟨hne, hb⟩
    · exact hseen u hu (by simpa [hu'] using hnt)
  waited := h.waited
  upward := h.upward

/-- Going on to a successor that is not blocked. -/
theorem enter
    (h : Invariant next ⟨start, ⟨v, w :: todo, found⟩ :: outer, blocked, waiting, circuits⟩)
    (hne : w ≠ start) (hw : w ∉ blocked) :
    Invariant next ⟨start, ⟨w, next w, false⟩ :: ⟨v, todo, found⟩ :: outer, w :: blocked, waiting,
      circuits⟩ where
  base := by
    have := h.base
    cases outer <;> simpa using this
  todo := by simp
  links := by
    refine List.isChain_cons_cons.2 ⟨?_, isChain_link_cons h.links rfl⟩
    exact h.todo _ rfl
  nodup := List.nodup_cons.2 ⟨fun hmem => hw (h.onPath w hmem), h.nodup⟩
  onPath := by
    intro u hu
    rcases List.mem_cons.1 hu with rfl | hu
    · exact List.mem_cons_self
    · exact List.mem_cons_of_mem _ (h.onPath u hu)
  parked := by
    intro u hu hnot x hx
    have huw : u ≠ w := fun e => hnot (by simp [e])
    have hu' := h.parked u ((List.mem_cons.1 hu).resolve_left huw)
      (fun hmem => hnot (List.mem_cons_of_mem _ hmem)) x hx
    exact ⟨hu'.1, List.mem_cons_of_mem _ hu'.2.1, hu'.2.2⟩
  unfound := by
    intro _
    refine ⟨fun x hx hnt => absurd hx hnt, fun hf => ?_⟩
    obtain ⟨hseen, houter⟩ := h.unfound hf
    refine ⟨fun u hu hnt => ?_, houter.mono (List.subset_cons_self _ _)⟩
    by_cases hu' : u = w
    · exact ⟨hu' ▸ hne, hu' ▸ List.mem_cons_self⟩
    · exact (hseen u hu (by simpa [hu'] using hnt)).imp_right (List.mem_cons_of_mem _ ·)
  waited := fun p hp => List.mem_cons_of_mem _ (h.waited p hp)
  upward := by
    refine List.pairwise_cons.2 ⟨fun u hu hreach => ?_, h.upward⟩
    -- nobody waits for a vertex that was not blocked
    rcases hreach.cases_head with rfl | ⟨x, hx, -⟩
    · exact hw (h.onPath _ hu)
    · exact hw (h.waited _ hx)

/-- What is left of the invariant's account of the path when its end is taken off. -/
theorem pathOfOuter
    (h : Invariant next ⟨start, ⟨v, todo, found⟩ :: outer, blocked, waiting, circuits⟩)
    {found' : Bool} :
    (∀ f ∈ (resume found' outer).getLast?, f.vertex = start) ∧
      (∀ f ∈ (resume found' outer).head?, f.todo <:+ next f.vertex) ∧
      (resume found' outer).IsChain (Link next) := by
  obtain ⟨hbase, -, hlinks⟩ := h
  cases outer with
  | nil => simp [resume]
  | cons g rest =>
    obtain ⟨hlink, hlinks⟩ := List.isChain_cons_cons.1 hlinks
    refine ⟨?_, ?_, isChain_link_cons hlinks rfl⟩
    · cases rest <;> simpa [resume] using hbase
    · simpa [resume] using (List.suffix_cons _ _).trans hlink

/-- Taking the end off a path by way of which no circuit was found: it waits for its successors. -/
theorem park (h : Invariant next ⟨start, ⟨v, [], false⟩ :: outer, blocked, waiting, circuits⟩) :
    Invariant next (Search.await ⟨start, resume false outer, blocked, waiting, circuits⟩ (next v) v)
    where
  base := h.pathOfOuter.1
  todo := h.pathOfOuter.2.1
  links := h.pathOfOuter.2.2
  nodup := by
    simp only [await, map_vertex_resume]
    exact (List.nodup_cons.1 h.nodup).2
  onPath := by
    intro u hu
    rw [await, map_vertex_resume] at hu
    exact h.onPath u (List.mem_cons_of_mem _ hu)
  parked := by
    intro u hu hnot x hx
    rw [await, map_vertex_resume] at hnot
    by_cases huv : u = v
    · subst huv
      have hx' := (h.unfound rfl).1 x hx List.not_mem_nil
      exact ⟨hx'.1, hx'.2, List.mem_append_left _ (List.mem_map.2 ⟨x, hx, rfl⟩)⟩
    · have hu' := h.parked u hu (by simpa [huv] using hnot) x hx
      exact ⟨hu'.1, hu'.2.1, List.mem_append_right _ hu'.2.2⟩
  unfound := unfound_resume fun _ => (h.unfound rfl).2
  waited := by
    intro p hp
    rcases List.mem_append.1 hp with hp | hp
    · obtain ⟨x, hx, rfl⟩ := List.mem_map.1 hp
      exact ((h.unfound rfl).1 x hx List.not_mem_nil).2
    · exact h.waited p hp
  upward := by
    simp only [await, map_vertex_resume]
    obtain ⟨hend, hrest⟩ := List.pairwise_cons.1 h.upward
    refine hrest.imp_of_mem fun {x u} _ hu hxu hreach => ?_
    -- all new entries lead to `v`, from where nothing on the path can be reached
    have hsplit : Relation.ReflTransGen
        (Waits ⟨start, ⟨v, [], false⟩ :: outer, blocked, waiting, circuits⟩) x u ∨
        Relation.ReflTransGen
        (Waits ⟨start, ⟨v, [], false⟩ :: outer, blocked, waiting, circuits⟩) v u := by
      clear hu hxu
      induction hreach with
      | refl => exact .inl .refl
      | tail _ hstep ih =>
        rcases List.mem_append.1 hstep with hnew | hold
        · obtain ⟨y, -, hy⟩ := List.mem_map.1 hnew
          obtain ⟨-, rfl⟩ := Prod.mk.inj hy
          exact .inr .refl
        · exact ih.imp (·.tail hold) (·.tail hold)
    exact hsplit.elim hxu (hend u hu)

/-- Taking the end off a path by way of which a circuit was found: it is released. -/
theorem release
    (h : Invariant next ⟨start, ⟨v, [], true⟩ :: outer, blocked, waiting, circuits⟩) :
    Invariant next (Search.release ⟨start, resume true outer, blocked, waiting, circuits⟩ v) := by
  have hpath : ∀ u ∈ outer.map Frame.vertex,
      u ∉ Search.freed ⟨start, resume true outer, blocked, waiting, circuits⟩ v :=
    fun u hu hfreed =>
      (List.pairwise_cons.1 h.upward).1 u hu (reflTransGen_waits_of_mem_freed hfreed)
  constructor
  case base => exact h.pathOfOuter.1
  case todo => exact h.pathOfOuter.2.1
  case links => exact h.pathOfOuter.2.2
  case nodup =>
    simp only [Search.release, map_vertex_resume]
    exact (List.nodup_cons.1 h.nodup).2
  case onPath =>
    intro u hu
    rw [Search.release, map_vertex_resume] at hu
    exact mem_blocked_release.2 ⟨h.onPath u (List.mem_cons_of_mem _ hu), hpath u hu⟩
  case parked =>
    intro u hu hnot x hx
    rw [Search.release, map_vertex_resume] at hnot
    obtain ⟨hu, hfree⟩ := mem_blocked_release.1 hu
    -- `v` itself is set free
    have huv : u ≠ v := fun e => hfree (e ▸ mem_freed.2 .refl)
    obtain ⟨hne, hx, hwait⟩ := h.parked u hu (by simpa [huv] using hnot) x hx
    have hx' : x ∉ Search.freed ⟨start, resume true outer, blocked, waiting, circuits⟩ v :=
      fun hfreed => hfree (freed_of_waits hfreed hwait hu)
    exact ⟨hne, mem_blocked_release.2 ⟨hx, hx'⟩, mem_waiting_release.2 ⟨hwait, hx'⟩⟩
  case unfound => exact unfound_resume nofun
  case waited =>
    intro p hp
    obtain ⟨hp, hfree⟩ := mem_waiting_release.1 hp
    exact mem_blocked_release.2 ⟨h.waited p hp, hfree⟩
  case upward =>
    simp only [Search.release, map_vertex_resume]
    refine (List.pairwise_cons.1 h.upward).2.imp fun {x u} hxu hreach => hxu ?_
    have hle : Waits (Search.release ⟨start, resume true outer, blocked, waiting, circuits⟩ v) ≤
        Waits ⟨start, ⟨v, [], true⟩ :: outer, blocked, waiting, circuits⟩ := fun a b hab =>
      (mem_waiting_release.1 hab).1
    exact Relation.ReflTransGen.mono hle x u hreach

/-- **Every move keeps the invariant.** -/
theorem step (h : Invariant next s) : Invariant next (s.step next) := by
  obtain ⟨start, frames, blocked, waiting, circuits⟩ := s
  match frames with
  | [] => exact h
  | ⟨v, w :: todo, found⟩ :: outer =>
    simp only [Search.step]
    split
    · exact h.look nofun
    · rename_i hne
      split
      · rename_i hb
        exact h.look fun hf => ⟨hf, hne, List.contains_iff_mem.1 hb⟩
      · rename_i hb
        exact h.enter hne fun hmem => hb (List.contains_iff_mem.2 hmem)
  | ⟨v, [], false⟩ :: outer => exact h.park
  | ⟨v, [], true⟩ :: outer => exact h.release

/-! ## What the invariant says of paths and circuits -/

theorem isChain_path (h : Invariant next s) : s.path.IsChain (Edge next) := by
  rw [path, List.isChain_reverse, List.isChain_map]
  exact h.links.imp fun child parent hlink => hlink.subset List.mem_cons_self

theorem nodup_path (h : Invariant next s) : s.path.Nodup := List.nodup_reverse.2 h.nodup

theorem head?_path (h : Invariant next s) (hne : s.frames ≠ []) : s.path.head? = some s.start := by
  rw [path, List.head?_reverse, List.getLast?_map, List.getLast?_eq_some_getLast hne,
    Option.map_some]
  exact congrArg some (h.base _ (List.getLast?_eq_some_getLast hne))

/-- No way leads from a blocked vertex off the path to the start without touching the path. -/
theorem not_chain_of_blocked (h : Invariant next s) (rest : List Nat) (hv : v ∈ s.blocked)
    (hoff : ∀ u ∈ v :: rest, u ∉ s.path) (hchain : (v :: rest ++ [s.start]).IsChain (Edge next)) :
    False := by
  induction rest generalizing v with
  | nil =>
    have hstart : s.start ∈ next v := by simpa [Edge] using hchain
    exact (h.parked v hv (fun hm => hoff v (by simp) (mem_path.2 hm)) _ hstart).1 rfl
  | cons u rest ih =>
    obtain ⟨hvu, hchain⟩ := List.isChain_cons_cons.1 hchain
    have hu := h.parked v hv (fun hm => hoff v (by simp) (mem_path.2 hm)) u hvu
    exact ih hu.2.1 (fun x hx => hoff x (List.mem_cons_of_mem _ hx)) hchain

end Invariant

end Interlock.Graph.Search
