import Interlock.Proofs.Flow.History
import Interlock.Proofs.Flow.Modes
import Interlock.Proofs.Flow.Region

/-!
# What must be held

A lock that the walk reports where it must be held should be held on every path to the report. In
code without loops and `try` statements the paths can be listed, and
`Region.Of.releases_lt_acquisitions` says when this is so, for every region that the walk enters.

* A join keeps a lock that every path ends with, as often as the first path holds it. That is too
  often for another path unless the junction is even (`Junction.Even`).
* A release that finds no open hold does nothing, even inside a `with` statement for the lock. So
  the releases of a path have to be matched by acquisitions (`History.Matched`).
* The arguments of an `acquire` are walked as if the lock was already held.

Every move and every even junction keeps the holds of the walk below those that a path leaves
(`Tracked`), and so does the whole walk (`Flow.follows_ofStmts`). None of the three conditions can
be dropped (`releases_lt_acquisitions_overstated`).
-/

namespace Interlock

open Syntax Lock Lock.HeldLocks

/-! ## Holds and histories -/

/-- A history leaves the lexical holds of the lock that the walk counts, and at least as many open
ones if its releases are matched. -/
structure Tracked (lock : String) (held : HeldLocks) (τ : History) : Prop where
  lexicals : List.count (.enter lock) τ = List.count (.leave lock) τ + held.lexicals.depth lock
  opens : τ.Matched lock →
    held.opens lock + List.count (.release lock) τ ≤ List.count (.acquire lock) τ

/-- If every path ends with the lock, none of them ends with fewer holds than the first. -/
def Junction.Even (lock : String) (j : Junction) : Prop :=
  (∀ fin ∈ j.ends, 0 < fin.depth lock) →
    ∀ first ∈ j.ends.head?, ∀ fin ∈ j.ends, first.depth lock ≤ fin.depth lock

instance (lock : String) (j : Junction) : Decidable (j.Even lock) :=
  inferInstanceAs (Decidable ((∀ fin ∈ j.ends, 0 < fin.depth lock) → _))

namespace Tracked

variable {lock name : String} {held fin : HeldLocks} {τ : History}

theorem nil : Tracked lock [] [] := ⟨rfl, fun _ => Nat.le_refl _⟩

/-- If the walk holds the lock and the releases are matched, the history holds it too. -/
theorem releases_lt (h : Tracked lock held τ) (hτ : τ.Matched lock) (hlock : lock ∈ held.names) :
    τ.releases lock < τ.acquisitions lock := by
  have hdepth := mem_names_iff_depth_pos.1 hlock
  rw [depth_eq] at hdepth
  have hlex := h.lexicals
  have hopens := h.opens hτ
  unfold History.releases History.acquisitions
  omega

theorem acquire (h : Tracked lock held τ) (name : String) :
    Tracked lock (held.push name false) (τ ++ [.acquire name]) := by
  refine ⟨by simpa using h.lexicals, fun hτ => ?_⟩
  have hopens := h.opens hτ.of_concat
  rw [opens_push_open]
  by_cases hname : name = lock
  · subst hname
    simp
    omega
  · simpa [hname, List.count_singleton] using hopens

/-- A release takes an open hold off, if there is one. A matched history has one. -/
theorem release (h : Tracked lock held τ) (name : String) :
    Tracked lock (held.release name false) (τ ++ [.release name]) := by
  refine ⟨by simpa using h.lexicals, fun hτ => ?_⟩
  have hopens := h.opens hτ.of_concat
  rw [opens_release_open]
  by_cases hname : name = lock
  · subst hname
    -- a release that the walk ignores is matched by an acquisition that it no longer counts
    have hlt := hτ.release_lt
    simp
    omega
  · simpa [hname, List.count_singleton] using hopens

theorem enter (h : Tracked lock held τ) (name : String) :
    Tracked lock (held.push name true) (τ ++ [.enter name]) := by
  refine ⟨?_, fun hτ => by simpa using h.opens hτ.of_concat⟩
  have hlex := h.lexicals
  by_cases hname : name = lock
  · subst hname
    simp [depth] at hlex ⊢
    omega
  · simpa [hname, depth, List.count_singleton] using hlex

theorem leave (h : Tracked lock fin τ) (hfin : fin.lexicals = held.lexicals ++ [⟨name, true⟩]) :
    Tracked lock (fin.release name true) (τ ++ [.leave name]) := by
  refine ⟨?_, fun hτ => by simpa using h.opens hτ.of_concat⟩
  have hlex := h.lexicals
  rw [hfin] at hlex
  rw [lexicals_release_lexical hfin]
  by_cases hname : name = lock
  · subst hname
    simp [depth] at hlex ⊢
    omega
  · simpa [hname, depth, List.count_singleton] using hlex

/-- An even junction keeps no hold that a path to it has given back. -/
theorem merge {ends : List HeldLocks} (h : Tracked lock fin τ) (hfin : fin ∈ ends)
    (hlex : ∀ fin ∈ ends, fin.lexicals = held.lexicals) {r : Routine}
    (heven : Junction.Even lock ⟨r, held, ends⟩) : Tracked lock (held.merge .must ends) τ := by
  have hlexicals : (held.merge .must ends).lexicals = fin.lexicals := by
    rw [lexicals_merge hlex, hlex fin hfin]
  have hdepth : (held.merge .must ends).depth lock ≤ fin.depth lock := by
    rcases Nat.eq_zero_or_pos ((held.merge .must ends).depth lock) with hzero | hpos
    · omega
    · have hheld : ∀ fin ∈ ends, 0 < fin.depth lock := fun fin' => depth_pos_of_merge_must hpos
      cases ends with
      | nil => cases hfin
      | cons first rest =>
        exact Nat.le_trans depth_merge_must_le (heven hheld first rfl fin hfin)
  refine ⟨hlexicals ▸ h.lexicals, fun hτ => ?_⟩
  have hopens := h.opens hτ
  rw [depth_eq, depth_eq fin, hlexicals] at hdepth
  omega

end Tracked

/-! ## The walk of what must be held -/

/-- The event reports what stands at the point. A lock that it reports as held is held after every
history of the point whose releases are matched, unless it is about to be taken. -/
structure Point.Sound (r : Routine) (lock : String) (p : Point) (e : Event) : Prop where
  bare : e.bare = p.mark.event r []
  held : lock ∈ e.held.names → p.pending ≠ some lock →
    ∀ τ ∈ p.histories, τ.Matched lock → τ.releases lock < τ.acquisitions lock

/-- A walk reports what stands at some points, and its holds fit the histories after them. -/
structure Follows (r : Routine) (lock : String) (points : List Point × List History)
    (walk : List Event × HeldLocks) : Prop where
  events : List.Forall₂ (Point.Sound r lock) points.1 walk.1
  tracked : ∀ τ ∈ points.2, Tracked lock walk.2 τ

/-- The same for the blocks of an `if`: every history ends as one of the blocks does. -/
structure FollowsArms (r : Routine) (lock : String) (points : List Point × List History)
    (walk : List Event × List HeldLocks) : Prop where
  events : List.Forall₂ (Point.Sound r lock) points.1 walk.1
  tracked : ∀ τ ∈ points.2, ∃ fin ∈ walk.2, Tracked lock fin τ

/-- The junctions are even in a lock. -/
def EvenIn (lock : String) (js : List Junction) : Prop := ∀ j ∈ js, j.Even lock

namespace Flow

variable {r : Routine} {lock : String} {T : List History} {held : HeldLocks}

theorem evenIn_append {js js' : List Junction} :
    EvenIn lock (js ++ js') ↔ EvenIn lock js ∧ EvenIn lock js' :=
  List.forall_mem_append

theorem names_event_subset (m : Mark) : (m.event r held).held.names ⊆ held.names := by
  cases m with
  | enter => exact List.nil_subset _
  | take lock line => exact List.Subset.refl _
  | probe p =>
    obtain ⟨detached, _⟩ | ⟨detached, _, _⟩ := p
    all_goals
      cases detached with
      | false => exact List.Subset.refl _
      | true => exact List.nil_subset _

/-- What is reported with no more holds than the histories leave is reported soundly. -/
theorem sound_event {held' : HeldLocks} (hT : ∀ τ ∈ T, Tracked lock held τ) (m : Mark)
    {pending : Option String}
    (hheld : pending ≠ some lock → lock ∈ held'.names → lock ∈ held.names) :
    Point.Sound r lock ⟨m, pending, T⟩ (m.event r held') := by
  refine ⟨m.bare_event r held', fun hlock hpending τ hτ hmatched => ?_⟩
  exact (hT τ hτ).releases_lt hmatched (hheld hpending (names_event_subset m hlock))

theorem runAll_probes_events {mode : HoldMode} (ps : List Probe) :
    (runAll mode r held (ps.map probe)).1 = ps.map fun p => (Mark.probe p).event r held := by
  induction ps with
  | nil => rfl
  | cons p rest ih => simpa [runAll, run, Mark.event] using ih

/-- What stands at a point is reported soundly if the walk holds what the histories hold, the lock
that is pending apart. -/
theorem sound_probesAt {held' : HeldLocks} (hT : ∀ τ ∈ T, Tracked lock held τ)
    {pending : Option String}
    (hheld : pending ≠ some lock → lock ∈ held'.names → lock ∈ held.names) (ps : List Probe) :
    List.Forall₂ (Point.Sound r lock) (Point.probesAt T pending ps)
      (runAll .must r held' (ps.map probe)).1 := by
  rw [runAll_probes_events]
  refine List.forall₂_map_left_iff.2 (List.forall₂_map_right_iff.2 ?_)
  exact List.forall₂_same.2 fun p _ => sound_event hT (.probe p) hheld

theorem follows_probesAt (hT : ∀ τ ∈ T, Tracked lock held τ) (ps : List Probe) :
    Follows r lock (Point.probesAt T none ps, T) (runAll .must r held (ps.map probe)) := by
  refine ⟨sound_probesAt hT (fun _ hlock => hlock) ps, ?_⟩
  rw [runAll_probes]
  exact hT

/-- What follows something goes on from its histories and its holds. -/
theorem follows_append {fs gs : List Flow} {P Q : List Point × List History}
    (h : Follows r lock P (runAll .must r held fs))
    (h' : Follows r lock Q (runAll .must r (runAll .must r held fs).2 gs)) :
    Follows r lock (P.1 ++ Q.1, Q.2) (runAll .must r held (fs ++ gs)) := by
  rw [runAll_append]
  exact ⟨List.rel_append h.events h'.events, h'.tracked⟩

/-- An expression that stands as a statement is followed. The arguments of an `acquire` are reported
while the lock is pending. -/
theorem follows_ofExpr (s : Scope) (e : Node) (hT : ∀ τ ∈ T, Tracked lock held τ) :
    Follows r lock (Point.ofExpr s T e) (runAll .must r held (ofExprStmt s e)) := by
  rw [ofExprStmt_eq, Point.ofExpr]
  cases s.lockCall? "acquire" e with
  | some name =>
    -- only the lock that is about to be taken counts as held too early
    have hpush (hname : some name ≠ some lock) (hlock : lock ∈ (held.push name false).names) :
        lock ∈ held.names := by
      rw [mem_names_iff_depth_pos] at hlock ⊢
      rwa [depth_push, if_neg fun h => hname (congrArg some h)] at hlock
    constructor
    · refine .cons (sound_event hT (.take name e.line) fun _ hlock => hlock) ?_
      exact sound_probesAt hT hpush _
    · refine List.forall_mem_map.2 fun τ hτ => ?_
      simpa [runAll, run] using (hT τ hτ).acquire name
  | none =>
    cases s.lockCall? "release" e with
    | some name =>
      constructor
      · refine sound_probesAt hT (fun _ hlock => ?_) _
        obtain ⟨l, hl, rfl⟩ := mem_names.1 hlock
        exact mem_names.2 ⟨l, mem_of_mem_release hl, rfl⟩
      · refine List.forall_mem_map.2 fun τ hτ => ?_
        simpa [runAll, run] using (hT τ hτ).release name
    | none => exact follows_probesAt hT _

theorem follows_ofExprs (s : Scope) (es : List Node) (hT : ∀ τ ∈ T, Tracked lock held τ) :
    Follows r lock (Point.ofExprs s T es) (runAll .must r held (es.flatMap (ofExprStmt s))) := by
  induction es generalizing T held with
  | nil => exact ⟨.nil, hT⟩
  | cons e rest ih =>
    rw [List.flatMap_cons]
    have hexpr : Follows r lock (Point.ofExpr s T e) _ := follows_ofExpr s e hT
    exact follows_append hexpr (ih hexpr.tracked)

/-- A body inside the items of a `with` statement is followed if the body is. -/
theorem follows_within {points : List History → List Point × List History} {body : List Flow}
    (hbody : ∀ {T held}, (∀ τ ∈ T, Tracked lock held τ) →
      EvenIn lock (junctionsAll .must r held body) →
      Follows r lock (points T) (runAll .must r held body))
    (items : List WithItem) {T : List History} {held : HeldLocks}
    (hT : ∀ τ ∈ T, Tracked lock held τ)
    (heven : EvenIn lock (junctionsAll .must r held (ofWith items body))) :
    Follows r lock (Point.within points T items) (runAll .must r held (ofWith items body)) := by
  induction items generalizing T held with
  | nil => exact hbody hT heven
  | cons item rest ih =>
    cases item with
    | lock name line =>
      have hinner : ∀ τ ∈ T.map (· ++ [.enter name]), Tracked lock (held.push name true) τ :=
        List.forall_mem_map.2 fun τ hτ => (hT τ hτ).enter name
      have hfollows := ih hinner (by simpa [ofWith, junctionsAll, junctions] using heven)
      rw [ofWith, runAll_singleton, Point.within]
      refine ⟨.cons (sound_event hT (.take name line) fun _ hlock => hlock) hfollows.events, ?_⟩
      have hlex : (runAll .must r (held.push name true) (ofWith rest body)).2.lexicals =
          held.lexicals ++ [⟨name, true⟩] := by
        rw [lexicals_runAll, lexicals_push_lexical]
      exact List.forall_mem_map.2 fun τ hτ => (hfollows.tracked τ hτ).leave hlex
    | probes ps =>
      rw [ofWith, junctionsAll_append, runAll_probes, evenIn_append] at heven
      refine follows_append (follows_probesAt hT ps) ?_
      rw [runAll_probes]
      exact ih hT heven.2

theorem runArms_append {mode : HoldMode} (as bs : List Arm) : runArms mode r held (as ++ bs) =
    ((runArms mode r held as).1 ++ (runArms mode r held bs).1,
      (runArms mode r held as).2 ++ (runArms mode r held bs).2) := by
  induction as with
  | nil => rfl
  | cons arm rest ih => cases arm <;> simp [runArms, ih]

theorem runArms_probes {mode : HoldMode} (ps : List Probe) : runArms mode r held (ps.map .probe) =
    ((runAll mode r held (ps.map probe)).1, []) := by
  induction ps with
  | nil => rfl
  | cons p rest ih => simp [runArms, runAll, run, ih]

/-- The blocks of an `if` are followed one by one, since each starts from the same holds. -/
theorem followsArms_append {as bs : List Arm} {P Q : List Point × List History}
    (h : FollowsArms r lock P (runArms .must r held as))
    (h' : FollowsArms r lock Q (runArms .must r held bs)) :
    FollowsArms r lock (P.1 ++ Q.1, P.2 ++ Q.2) (runArms .must r held (as ++ bs)) := by
  rw [runArms_append]
  refine ⟨List.rel_append h.events h'.events,
    List.forall_mem_append.2 ⟨fun τ hτ => ?_, fun τ hτ => ?_⟩⟩
  · obtain ⟨fin, hfin, htracked⟩ := h.tracked τ hτ
    exact ⟨fin, List.mem_append_left _ hfin, htracked⟩
  · obtain ⟨fin, hfin, htracked⟩ := h'.tracked τ hτ
    exact ⟨fin, List.mem_append_right _ hfin, htracked⟩

/-- After an `if` the histories are those at the ends of its blocks, and those before it unless one
of the blocks has to run. -/
theorem follows_branch {arms : List Arm} {P : List Point × List History} (exhaustive : Bool)
    (hT : ∀ τ ∈ T, Tracked lock held τ) (h : FollowsArms r lock P (runArms .must r held arms))
    (heven : EvenIn lock (junctions .must r held (.branch arms exhaustive))) :
    Follows r lock (P.1, if exhaustive then P.2 else P.2 ++ T)
      (run .must r held (.branch arms exhaustive)) := by
  have heven := heven _ (List.mem_append_right _ (List.mem_singleton_self _))
  refine ⟨h.events, fun τ hτ => ?_⟩
  cases exhaustive with
  | true =>
    obtain ⟨fin, hfin, htracked⟩ := h.tracked τ hτ
    exact htracked.merge hfin (fun fin hfin => lexicals_runArms arms hfin) heven
  | false =>
    have hlex : ∀ fin ∈ (runArms .must r held arms).2 ++ [held], fin.lexicals = held.lexicals :=
      List.forall_mem_append.2
        ⟨fun fin hfin => lexicals_runArms arms hfin, by simp⟩
    rcases List.mem_append.1 hτ with hτ | hτ
    · obtain ⟨fin, hfin, htracked⟩ := h.tracked τ hτ
      exact htracked.merge (List.mem_append_left _ hfin) hlex heven
    · exact (hT τ hτ).merge (List.mem_append_right _ (List.mem_singleton_self _)) hlex heven

/-- Some block of an `if` always runs if it has an `else`. -/
theorem isExhaustive_of_ifStatement {n : Node} (h : n.kind = .ifStatement) :
    isExhaustive n = n.hasElse := by
  simp [isExhaustive, Node.hasElse, h, Bool.and_comm]

mutual

/-- **The walk follows every statement of branching code**: each event is sound, and what is held
after it fits every history. The induction is on the tree, and the histories before the statement
are those that the walk has been tracked for. -/
theorem follows_ofStmt (s : Scope) (n : Node) {T : List History} {held : HeldLocks}
    (hn : n.isBranchingCode = true) (hT : ∀ τ ∈ T, Tracked lock held τ)
    (heven : EvenIn lock (junctionsAll .must r held (ofStmt s [] n))) :
    Follows r lock (Point.ofStmt s T n) (runAll .must r held (ofStmt s [] n)) := by
  obtain ⟨kind, field, text, row, flaw, children⟩ := n
  rw [Node.isBranchingCode.eq_def] at hn
  dsimp only at hn
  split at hn
  · exact follows_ofExprs s _ hT
  · exact ⟨(follows_probesAt hT _).events, by simp [Point.ofStmt]⟩
  · exact ⟨.nil, hT⟩
  · exact ⟨.nil, hT⟩
  · exact follows_within (fun hT' heven' => follows_ofBlockField s .body children hn hT' heven') _
      hT heven
  · rw [ofStmt_of_isBranching (by rfl), isExhaustive_of_ifStatement rfl] at heven ⊢
    rw [junctionsAll, junctionsAll, List.append_nil] at heven
    rw [runAll_singleton]
    have harms := followsArms_armsOf s children hn hT (evenIn_append.1 heven).1
    exact follows_branch _ hT harms heven
  · cases hn

theorem follows_ofStmts (s : Scope) (ns : List Node) {T : List History} {held : HeldLocks}
    (hns : Node.isBranchingBlock ns = true) (hT : ∀ τ ∈ T, Tracked lock held τ)
    (heven : EvenIn lock (junctionsAll .must r held (ofStmts s ns))) :
    Follows r lock (Point.ofStmts s T ns) (runAll .must r held (ofStmts s ns)) := by
  match ns with
  | [] => exact ⟨.nil, hT⟩
  | c :: rest =>
    rw [Node.isBranchingBlock, Bool.and_eq_true] at hns
    rw [ofStmts, junctionsAll_append, evenIn_append] at heven
    have hhere : Follows r lock (if c.isNamed then Point.ofStmt s T c else ([], T))
        (runAll .must r held (if c.isNamed then ofStmt s [] c else [])) := by
      split
      · rename_i hnamed
        rw [if_pos hnamed] at heven
        exact follows_ofStmt s c (by simpa [hnamed] using hns.1) hT heven.1
      · exact ⟨.nil, hT⟩
    exact follows_append hhere (follows_ofStmts s rest hns.2 hhere.tracked heven.2)

theorem follows_ofBlockField (s : Scope) (f : Field) (ns : List Node) {T : List History}
    {held : HeldLocks} (hns : Node.isBranchingField f ns = true)
    (hT : ∀ τ ∈ T, Tracked lock held τ)
    (heven : EvenIn lock (junctionsAll .must r held (ofBlockField s f ns))) :
    Follows r lock (Point.ofBlockField s T f ns) (runAll .must r held (ofBlockField s f ns)) := by
  match ns with
  | [] => exact ⟨.nil, hT⟩
  | ⟨kind, field, text, row, flaw, children⟩ :: rest =>
    rw [Node.isBranchingField] at hns
    rw [ofBlockField] at heven ⊢
    rw [Point.ofBlockField]
    by_cases hfield : field = some f
    · simp only [if_pos hfield] at hns heven ⊢
      exact follows_ofStmts s children hns hT heven
    · simp only [if_neg hfield] at hns heven ⊢
      exact follows_ofBlockField s f rest hns hT heven

/-- The clauses of an `if` are followed down to their blocks. -/
theorem followsArms_armsOf (s : Scope) (ns : List Node) {T : List History} {held : HeldLocks}
    (hns : Node.areBranchingArms ns = true) (hT : ∀ τ ∈ T, Tracked lock held τ)
    (heven : EvenIn lock (junctionsArms .must r held (armsOf s ns))) :
    FollowsArms r lock (Point.ofArms s T ns) (runArms .must r held (armsOf s ns)) := by
  match ns with
  | [] => exact ⟨.nil, by simp [Point.ofArms]⟩
  | ⟨kind, field, text, row, flaw, children⟩ :: rest =>
    rw [Node.areBranchingArms, Bool.and_eq_true] at hns
    rw [armsOf, junctionsArms_append, evenIn_append] at heven
    rw [armsOf, Point.ofArms]
    refine followsArms_append ?_ (followsArms_armsOf s rest hns.2 hT heven.2)
    replace hns := hns.1
    replace heven := heven.1
    split
    · exact ⟨.nil, by simp⟩
    · rename_i hnamed
      rw [if_neg hnamed] at heven
      split
      · rename_i hblock
        rw [if_pos hblock] at hns heven
        have ih := follows_ofStmts s children hns hT (by simpa [junctionsArms] using heven)
        refine ⟨by simpa [runArms] using ih.events, fun τ hτ => ?_⟩
        exact ⟨_, List.mem_singleton_self _, ih.tracked τ hτ⟩
      · rename_i hblock
        rw [if_neg hblock] at hns heven
        split
        · rename_i hclause
          rw [if_pos hclause] at hns heven
          exact followsArms_armsOf s children hns hT heven
        · split
          · exact ⟨.nil, by simp⟩
          · rw [runArms_probes]
            exact ⟨(follows_probesAt hT _).events, by simp⟩

end

/-- In the body of a class branching code has nothing but expressions for the walk. -/
theorem ofMembers_of_isBranchingBlock (s : Scope) {ns : List Node}
    (h : Node.isBranchingBlock ns = true) :
    ofMembers s ns = (ns.flatMap s.memberProbes).map probe := by
  induction ns with
  | nil => rfl
  | cons m rest ih =>
    rw [Node.isBranchingBlock, Bool.and_eq_true] at h
    rw [ofMembers, ih h.2, List.flatMap_cons, List.map_append]
    congr 1
    by_cases hnamed : m.isNamed = true
    · have hm : m.isBranchingCode = true := by simpa [hnamed] using h.1
      obtain ⟨kind, field, text, row, flaw, children⟩ := m
      rw [Node.isBranchingCode.eq_def] at hm
      dsimp only at hm
      split at hm
      all_goals simp_all [Scope.memberProbes, ofMember]
    · simp [Scope.memberProbes, hnamed]

end Flow

/-! ## Regions -/

namespace Region

/-- Whether a region consists of expression statements, `return`, `pass`, `with` and `if`. -/
def isBranchingCode : Region → Bool
  | routine _ _ body => Node.isBranchingBlock body
  | members _ body => Node.isBranchingBlock body

/-- The points of a region, with all paths to them. -/
def points : Region → List Point
  | routine s decorators body =>
    (Point.within (fun T => Point.ofStmts s T body) [[]] decorators).1
  | members s body => Point.probesAt [[]] none (body.flatMap s.memberProbes)

/-- What the walk of a region reports. -/
def events (mode : HoldMode) (region : Region) : List Event :=
  (Flow.runAll mode region.scope.routine [] region.flow).1

/-- The junctions in the walk of a region. -/
def junctions (mode : HoldMode) (region : Region) : List Junction :=
  Flow.junctionsAll mode region.scope.routine [] region.flow

theorem sound_events {region : Region} {lock : String} (h : region.isBranchingCode = true)
    (heven : EvenIn lock (region.junctions .must)) :
    List.Forall₂ (Point.Sound region.scope.routine lock) region.points (region.events .must) := by
  have hnil : ∀ τ ∈ [([] : History)], Tracked lock [] τ :=
    List.forall_mem_singleton.2 .nil
  cases region with
  | routine s decorators body =>
    exact (Flow.follows_within (fun hT heven' => Flow.follows_ofStmts s body h hT heven')
      decorators hnil heven).events
  | members s body =>
    rw [events, flow, Flow.ofMembers_of_isBranchingBlock s h]
    exact (Flow.follows_probesAt hnil _).events

end Region

/-- **What must be held is held**: in a region that the walk enters and that branches but has no
loops and no `try`, a lock that the walk reports as held has been taken more often than given back
on every path to the report. This asks that the junctions of the region are even in the lock, that
the explicit releases on the path are matched, and that the report is not made for an argument of
the `acquire` of this lock. -/
theorem Region.Of.releases_lt_acquisitions {names : Names} {u : SourceUnit} {region : Region}
    (h : region.Of names u) (hcode : region.isBranchingCode = true) {lock : String}
    (heven : ∀ j ∈ region.junctions .must, j.Even lock) :
    .enter region.scope.routine :: region.events .must <:+: walk .must names u ∧
      List.Forall₂ (fun p e => e.bare = p.mark.event region.scope.routine [] ∧
          (lock ∈ e.held.names → p.pending ≠ some lock →
            ∀ τ ∈ p.histories, τ.Matched lock → τ.releases lock < τ.acquisitions lock))
        region.points (region.events .must) :=
  ⟨h.infix_walk, (Region.sound_events hcode heven).imp fun _ _ hsound => ⟨hsound.bare, hsound.held⟩⟩

/-! ## Fixed files -/

open Node

/-- The body of the method of a pool. -/
def poolRegion (body : List Node) : Region :=
  let put := function (ident 1 "put") ["self", "again"] body
  let pool := (Scope.ofUnit ⟨[]⟩ (poolOf body)).ofClass "Pool" ((blockOf [put]).playing .body)
  .routine (pool.ofFunction .method [] put "put") [] body

theorem poolRegion_of (body : List Node) : (poolRegion body).Of ⟨[]⟩ (poolOf body) := by
  let put := function (ident 1 "put") ["self", "again"] body
  let pool := classOf (ident 0 "Pool") [put]
  have hpool := @Region.Of.classBody ⟨[]⟩ (poolOf body) _ pool pool ((ident 0 "Pool").playing .name)
    ((blockOf [put]).playing .body) .top (.here (List.mem_singleton_self _) rfl) rfl rfl rfl rfl
  exact @Region.Of.function ⟨[]⟩ (poolOf body) _ put put ((ident 1 "put").playing .name)
    ((blockOf body).playing .body) hpool ⟨List.mem_singleton_self _, rfl⟩ rfl rfl rfl rfl

/-- Where both paths take the lock, it is held on both. -/
theorem releases_lt_acquisitions_either :
    (poolRegion either).Of ⟨[]⟩ (poolOf either) ∧ (poolRegion either).isBranchingCode = true ∧
      (∀ j ∈ (poolRegion either).junctions .must, j.Even "Pool.lock") ∧
      ∃ pe ∈ (poolRegion either).points.zip ((poolRegion either).events .must),
        "Pool.lock" ∈ pe.2.held.names ∧
          pe.1.histories = [[.acquire "Pool.lock"], [.acquire "Pool.lock"]] ∧
          ∀ τ ∈ pe.1.histories, τ.releases "Pool.lock" < τ.acquisitions "Pool.lock" := by
  have hof := poolRegion_of either
  have hcode : (poolRegion either).isBranchingCode = true := by decide +kernel
  have heven : ∀ j ∈ (poolRegion either).junctions .must, j.Even "Pool.lock" := by decide +kernel
  obtain ⟨-, hsound⟩ := hof.releases_lt_acquisitions hcode heven
  obtain ⟨pe, hmem, hheld, hpending, hhistories, hmatched⟩ :
      ∃ pe ∈ (poolRegion either).points.zip ((poolRegion either).events .must),
        "Pool.lock" ∈ pe.2.held.names ∧ pe.1.pending ≠ some "Pool.lock" ∧
          pe.1.histories = [[.acquire "Pool.lock"], [.acquire "Pool.lock"]] ∧
          ∀ τ ∈ pe.1.histories, τ.Matched "Pool.lock" := by
    decide +kernel
  refine ⟨hof, hcode, heven, pe, hmem, hheld, hhistories, fun τ hτ => ?_⟩
  exact ((List.forall₂_iff_zip.1 hsound).2 hmem).2 hheld hpending τ hτ (hmatched τ hτ)

/-- Whether an event is an access to an attribute. -/
def Event.isAccess : Event → Bool
  | access _ _ _ => true
  | _ => false

/-- At some access in the method of a pool the lock is reported as held, and a path to the access
has given it back as often as it has taken it. Whether the junctions are even, the releases of the
path are matched, and the access is an argument of the `acquire` is as said. -/
structure Overstates (body : List Node) (even matched pending : Bool) : Prop where
  accepted : (poolOf body).check = .ok ()
  region : (poolRegion body).Of ⟨[]⟩ (poolOf body)
  code : (poolRegion body).isBranchingCode = true
  junctions : decide (∀ j ∈ (poolRegion body).junctions .must, j.Even "Pool.lock") = even
  access : ∃ pe ∈ (poolRegion body).points.zip ((poolRegion body).events .must),
    pe.2.isAccess = true ∧ "Pool.lock" ∈ pe.2.held.names ∧
      decide (pe.1.pending = some "Pool.lock") = pending ∧
      ∃ τ ∈ pe.1.histories, decide (τ.Matched "Pool.lock") = matched ∧
        τ.acquisitions "Pool.lock" ≤ τ.releases "Pool.lock"

/-- Writes an attribute of the pool. -/
def poolWrite (row : Nat) : Node := assign ((ident row "self").dot "x")

/-- Takes the lock once more on one path inside a `with`, and leaves the `with`. -/
def halfRegrip : List Node :=
  [withOn (poolLock 2) [ifOn (ident 3 "again") [invoke (poolLock 4) "acquire"]], poolWrite 5]

/-- Takes the lock twice on one path and once on the other, and gives it back once. -/
def uneven : List Node :=
  [ifElse (ident 2 "again") [invoke (poolLock 3) "acquire", invoke (poolLock 4) "acquire"]
      [invoke (poolLock 6) "acquire"],
    invoke (poolLock 7) "release", poolWrite 8]

/-- Gives back the lock of a `with` inside it. -/
def openedUp : List Node :=
  [withOn (poolLock 2) [invoke (poolLock 3) "release", poolWrite 4]]

/-- Gives the lock back before taking it. -/
def overdrawn : List Node :=
  [invoke (poolLock 2) "release", invoke (poolLock 3) "acquire", poolWrite 4]

/-- Reads an attribute to take the lock. -/
def asked : List Node := [invokeWith (poolLock 2) "acquire" ((ident 2 "self").dot "x")]

/-- **The walk reports locks that are not held**, if the paths of an `if` end with the lock
unevenly, if a release is not matched, and in the arguments of an `acquire`: each of the three is
enough. -/
theorem releases_lt_acquisitions_overstated :
    (Overstates halfRegrip false true false ∧ Overstates uneven false true false) ∧
      (Overstates openedUp true false false ∧ Overstates overdrawn true false false) ∧
      Overstates asked true true true := by
  refine ⟨⟨?_, ?_⟩, ⟨?_, ?_⟩, ?_⟩
  all_goals
    refine ⟨?_, poolRegion_of _, ?_, ?_, ?_⟩
    all_goals decide +kernel

end Interlock
