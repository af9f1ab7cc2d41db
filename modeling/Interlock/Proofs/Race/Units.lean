import Interlock.Proofs.LockOrder.Permutation
import Interlock.Proofs.Path.Order
import Interlock.Proofs.Race.Report

/-!
# The races of many units

An analysis of many units sorts all their races at once, by path first. If no two units have the
same path, this comes to putting the races of the units one after another, units in the order of
their paths (`RaceAnalysis.findings_eq`): a race has the path of its unit, and the races of one unit
are in order already. So the order in which the units are given does not matter. This is
`RaceAnalysis.run_units`.
-/

namespace Interlock.RaceAnalysis

open Syntax

/-- The units stand in the order of their paths, and no two have the same path. -/
def InPathOrder (units : List SourceUnit) : Prop :=
  units.Pairwise fun u v => Path.compare u.path v.path = .lt

/-- No two units have the same path. -/
def PathsDiffer (units : List SourceUnit) : Prop :=
  units.Pairwise fun u v => Path.compare u.path v.path ≠ .eq

instance (units : List SourceUnit) : Decidable (InPathOrder units) :=
  inferInstanceAs (Decidable (units.Pairwise _))

instance (units : List SourceUnit) : Decidable (PathsDiffer units) :=
  inferInstanceAs (Decidable (units.Pairwise _))

variable (settings : RaceSettings) {units sorted : List SourceUnit}

/-! ## The order of races -/

/-- What the races of many units are sorted by. -/
def keyAcross (race : Race) : List (Nat ×ₗ String) ×ₗ (Nat ×ₗ String) :=
  toLex (Path.key race.state.path, sortKey race)

theorem ordersBy_keyAcross : OrdersBy compareAcross keyAcross :=
  (Path.ordersBy_key.comap fun race : Race => race.state.path).andThen ordersBy_sortKey

theorem path_of_mem_racesAmong {u : SourceUnit} {race : Race}
    (h : race ∈ racesAmong settings (statesOf settings u)) : race.state.path = u.path := by
  obtain ⟨name, hrace⟩ := exists_race? settings h
  exact congrArg SharedState.path (race?_eq_some hrace).1

/-- The races of units in the order of their paths are in order. -/
theorem pairwise_flatMap_racesAmong (h : InPathOrder sorted) :
    (sorted.flatMap fun u => racesAmong settings (statesOf settings u)).Pairwise fun a b =>
      keyAcross a < keyAcross b := by
  refine List.pairwise_flatMap.2 ⟨fun u _ => ?_, h.imp fun hlt a ha b hb => ?_⟩
  · refine (pairwise_racesAmong settings _ (nodup_names_statesOf settings u)).imp_of_mem ?_
    intro a b ha hb hab
    have hpath : Path.key a.state.path = Path.key b.state.path := by
      rw [path_of_mem_racesAmong settings ha, path_of_mem_racesAmong settings hb]
    exact Prod.Lex.toLex_lt_toLex.2 (.inr ⟨hpath, precedes_iff.1 hab⟩)
  · refine Prod.Lex.toLex_lt_toLex.2 (.inl ?_)
    rw [path_of_mem_racesAmong settings ha, path_of_mem_racesAmong settings hb]
    exact Path.ordersBy_key.lt_iff.1 hlt

/-! ## The races of a run -/

theorem checksFirst_visit : Run.ChecksFirst (visit settings)
    (fun u => (statesOf settings u).filterMap (race? settings)) fun count u =>
      count + (statesOf settings u).length where
  of_ok count u hu := by
    rw [visit, states_eq settings hu]
  of_error count u refusal hu := by
    rw [visit, states, hu]
    rfl

/-- **A run has the races of the accepted units**, all of them sorted at once. -/
theorem run_eq (units : List SourceUnit) : run settings units =
    (⟨((accepted units).flatMap fun u =>
        (statesOf settings u).filterMap (race? settings)).mergeSort fun a b =>
          (compareAcross a b).isLE,
      (refused units).map .ofRefusal, (accepted units).length, (refused units).length⟩,
      ((accepted units).map fun u => (statesOf settings u).length).sum) := by
  rw [run, (checksFirst_visit settings).across_eq, List.sum_eq_foldl, List.foldl_map]

theorem findings_run_perm : (run settings units).1.findings.Perm
    ((accepted units).flatMap fun u => racesAmong settings (statesOf settings u)) := by
  rw [run_eq]
  refine (List.mergeSort_perm _ _).trans ?_
  exact .flatMap_left _ fun u _ => (racesAmong_perm settings _).symm

theorem pairwise_findings_run :
    (run settings units).1.findings.Pairwise fun a b => keyAcross a ≤ keyAcross b := by
  rw [run_eq]
  exact ordersBy_keyAcross.pairwise_mergeSort _

/-- The races of a run are those of its units, in the order of their paths. -/
theorem findings_eq (hperm : sorted.Perm (accepted units)) (hsorted : InPathOrder sorted) :
    (run settings units).1.findings =
      sorted.flatMap fun u => racesAmong settings (statesOf settings u) := by
  have hlt := pairwise_flatMap_racesAmong settings hsorted
  have hsame := (findings_run_perm settings).trans (hperm.symm.flatMap_right _)
  -- the races have different keys, since one of any two comes before the other
  have hinj := List.inj_on_of_nodup_map (List.pairwise_map.2 (hlt.imp ne_of_lt))
  refine hsame.eq_of_pairwise (fun a b ha hb hab hba => ?_) (pairwise_findings_run settings)
    (hlt.imp le_of_lt)
  exact hinj (hsame.mem_iff.1 ha) hb (hab.antisymm hba)

theorem exists_inPathOrder (h : PathsDiffer units) :
    ∃ sorted, sorted.Perm (accepted units) ∧ InPathOrder sorted := by
  have hby := Path.ordersBy_key.comap SourceUnit.path
  have hperm := List.mergeSort_perm (accepted units) fun u v => (Path.compare u.path v.path).isLE
  have hne : ((accepted units).mergeSort fun u v => (Path.compare u.path v.path).isLE).Pairwise
      fun u v => Path.key u.path ≠ Path.key v.path := by
    refine (hperm.pairwise_iff Ne.symm).2 ((h.sublist List.filter_sublist).imp fun huv e => ?_)
    exact huv (hby.eq_iff.2 e)
  refine ⟨_, hperm, ((hby.pairwise_mergeSort _).and hne).imp fun ⟨hle, hne⟩ => ?_⟩
  exact hby.lt_iff.2 (lt_of_le_of_ne hle hne)

theorem mapM_accepted {α : Type} {f : SourceUnit → Except Refusal α} {g : SourceUnit → α}
    (hf : ∀ u, u.check = .ok () → f u = .ok (g u)) (hsub : ∀ u ∈ sorted, u.check = .ok ()) :
    sorted.mapM f = .ok (sorted.map g) := by
  induction sorted with
  | nil => rfl
  | cons u rest ih =>
    obtain ⟨hu, hrest⟩ := List.forall_mem_cons.1 hsub
    rw [List.mapM_cons, hf u hu, ih hrest]
    rfl

/-- **The races of many units.** If no two units have the same path, the races are those of the
units that can be analysed, one unit after another in the order of their paths. So they do not
depend on the order in which the units are given, and neither does the number of shared states,
which is the sum of those of the units. -/
theorem run_units (h : PathsDiffer units) :
    (∃ sorted, sorted.Perm (accepted units) ∧ InPathOrder sorted) ∧
    (∀ sorted, sorted.Perm (accepted units) → InPathOrder sorted →
      ∃ found, sorted.mapM (races settings) = .ok found ∧
        (run settings units).1.findings = found.flatten) ∧
    (∃ models, (accepted units).mapM (states settings) = .ok models ∧
      (run settings units).2 = (models.map List.length).sum) ∧
    ∀ units', units'.Perm units →
      (run settings units').1.findings = (run settings units).1.findings ∧
        (run settings units').2 = (run settings units).2 := by
  have hok : ∀ u ∈ accepted units, u.check = .ok () := fun u hu => (mem_accepted.1 hu).2
  have hcount (units : List SourceUnit) : (run settings units).2 =
      ((accepted units).map fun u => (statesOf settings u).length).sum := by
    rw [run_eq]
  refine ⟨exists_inPathOrder h, fun sorted hperm hsorted => ?_, ?_, fun units' hunits => ⟨?_, ?_⟩⟩
  · refine ⟨_, mapM_accepted (fun u hu => races_eq settings hu) fun u hu =>
      hok u (hperm.mem_iff.1 hu), ?_⟩
    rw [findings_eq settings hperm hsorted, List.flatMap_def]
  · refine ⟨_, mapM_accepted (fun u hu => states_eq settings hu) hok, ?_⟩
    rw [hcount, List.map_map]
    rfl
  · obtain ⟨sorted, hperm, hsorted⟩ := exists_inPathOrder h
    rw [findings_eq settings hperm hsorted,
      findings_eq settings (hperm.trans (accepted_perm hunits).symm) hsorted]
  · rw [hcount, hcount]
    exact ((accepted_perm hunits).map _).sum_nat

/-- A copy of one file at another path. -/
def shelf (path : String) : SourceUnit := { stock with path }

/-- Two copies and a file that cannot be analysed. -/
def shelves : List SourceUnit := [shelf "z-a.py", LockOrder.torn, shelf "z/a.py"]

/-- A directory comes before the file, though as texts the paths are the other way round. Each copy
has two races. -/
theorem run_units_shelves : PathsDiffer shelves ∧ ∃ found found',
    races {} (shelf "z/a.py") = .ok found ∧ races {} (shelf "z-a.py") = .ok found' ∧
      found.length = 2 ∧ found'.length = 2 ∧
      (run {} shelves).1.findings = found ++ found' ∧
      (run {} shelves.reverse).1.findings = found ++ found' := by
  have hdiffer : PathsDiffer shelves := by decide +kernel
  have hperm : [shelf "z/a.py", shelf "z-a.py"].Perm (accepted shelves) := .swap _ _ _
  obtain ⟨-, hsorted, -, horder⟩ := run_units {} hdiffer
  obtain ⟨found, hfound, hfindings⟩ := hsorted _ hperm (by decide +kernel)
  have hfirst := races_eq {} (u := shelf "z/a.py") rfl
  have hsecond := races_eq {} (u := shelf "z-a.py") rfl
  rw [List.mapM_cons, List.mapM_cons, List.mapM_nil, hfirst, hsecond] at hfound
  obtain rfl := Except.ok.inj hfound
  rw [List.flatten_cons, List.flatten_cons, List.flatten_nil, List.append_nil] at hfindings
  refine ⟨hdiffer, _, _, hfirst, hsecond, ?_, ?_, hfindings, ?_⟩
  · rw [racesAmong, List.length_mergeSort]
    decide +kernel
  · rw [racesAmong, List.length_mergeSort]
    decide +kernel
  · rw [(horder _ (List.reverse_perm _)).1, hfindings]

end Interlock.RaceAnalysis
