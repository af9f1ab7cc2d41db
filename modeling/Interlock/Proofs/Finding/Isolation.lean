import Interlock.Proofs.LockOrder.Edges
import Interlock.Proofs.Race.Units

/-!
# Units that cannot be analysed

A unit that is refused has no effect on what is found in the others: the analysis finds what it
finds in the accepted units alone, and of each of the others there is one diagnostic (`Isolates`).
This holds of every run whose steps look at their units first (`Run.ChecksFirst.isolates`), whatever
is made of what it has found (`Isolates.conclude`), and both analyses are of this kind.
-/

namespace Interlock

open Syntax

namespace Syntax

theorem SourceUnit.path_of_check_eq_error {u : SourceUnit} {refusal : Refusal}
    (h : u.check = .error refusal) : refusal.path = u.path := by
  unfold check at h
  split at h
  · obtain rfl := Except.error.inj h
    rfl
  · split at h
    · obtain rfl := Except.error.inj h
      rfl
    · cases h

end Syntax

/-! ## Accepted and refused units -/

theorem accepted_accepted (units : List SourceUnit) :
    accepted (accepted units) = accepted units := by
  simp only [accepted, List.filter_filter, Bool.and_self]

theorem refused_accepted (units : List SourceUnit) : refused (accepted units) = [] := by
  induction units with
  | nil => rfl
  | cons u rest ih =>
    cases h : u.check with
    | ok => rw [accepted_cons_of_ok h, refused_cons_of_ok h, ih]
    | error refusal => rw [accepted_cons_of_error h, ih]

theorem length_accepted_add_refused (units : List SourceUnit) :
    (accepted units).length + (refused units).length = units.length := by
  induction units with
  | nil => rfl
  | cons u rest ih =>
    cases h : u.check with
    | ok =>
      rw [accepted_cons_of_ok h, refused_cons_of_ok h, List.length_cons, List.length_cons]
      omega
    | error refusal =>
      rw [accepted_cons_of_error h, refused_cons_of_error h, List.length_cons, List.length_cons]
      omega

/-- A diagnostic says of a unit why it is refused. -/
def Reports (u : SourceUnit) (d : Diagnostic) : Prop :=
  d.path = u.path ∧ ∃ refusal, u.check = .error refusal ∧ d = .ofRefusal refusal

theorem forall₂_reports (units : List SourceUnit) :
    List.Forall₂ Reports (units.filter fun u => !u.check.isOk)
      ((refused units).map Diagnostic.ofRefusal) := by
  induction units with
  | nil => exact .nil
  | cons u rest ih =>
    cases h : u.check with
    | ok =>
      rw [refused_cons_of_ok h, List.filter_cons_of_neg (by simp [h, Except.isOk, Except.toBool])]
      exact ih
    | error refusal =>
      rw [refused_cons_of_error h, List.filter_cons_of_pos (by rw [h]; rfl)]
      exact .cons ⟨u.path_of_check_eq_error h, refusal, h, rfl⟩ ih

/-! ## The outcome of an analyser -/

/-- A run on some units, with what it leaves, is the one on the accepted units alone, with a report
on each of the others. -/
structure Isolates {α σ : Type} (units : List SourceUnit) (run alone : Run α × σ) : Prop where
  findings_eq : run.1.findings = alone.1.findings
  left_eq : run.2 = alone.2
  reports : List.Forall₂ Reports (units.filter fun u => !u.check.isOk) run.1.diagnostics
  diagnostics_alone : alone.1.diagnostics = []
  analyzed_eq : run.1.analyzed = alone.1.analyzed
  skipped_alone : alone.1.skipped = 0
  skipped_eq : run.1.skipped = run.1.diagnostics.length
  analyzed_add_skipped : run.1.analyzed + run.1.skipped = units.length

/-- **A run whose steps look first isolates the units that they refuse.** -/
theorem Run.ChecksFirst.isolates {α σ : Type} {step : σ → SourceUnit → Except Refusal (List α) × σ}
    {found : SourceUnit → List α} {next : σ → SourceUnit → σ} (h : ChecksFirst step found next)
    (start : σ) (units : List SourceUnit) :
    Isolates units (across step start units) (across step start (accepted units)) := by
  rw [h.across_eq, h.across_eq, accepted_accepted, refused_accepted]
  exact {
    findings_eq := rfl
    left_eq := rfl
    reports := forall₂_reports units
    diagnostics_alone := rfl
    analyzed_eq := rfl
    skipped_alone := rfl
    skipped_eq := (List.length_map _).symm
    analyzed_add_skipped := length_accepted_add_refused units }

/-- What is made of the findings of a run and of what it leaves cannot tell the two runs apart. -/
theorem Isolates.conclude {α σ : Type} {units : List SourceUnit} {run alone : Run α × σ}
    (h : Isolates units run alone) (f : List α → σ → List α) :
    Isolates units ({ run.1 with findings := f run.1.findings run.2 }, run.2)
      ({ alone.1 with findings := f alone.1.findings alone.2 }, alone.2) :=
  { h with
    findings_eq := by
      show f run.1.findings run.2 = f alone.1.findings alone.2
      rw [h.findings_eq, h.left_eq] }

theorem RaceAnalysis.isolates_run (settings : RaceSettings) (units : List SourceUnit) :
    Isolates units (run settings units) (run settings (accepted units)) :=
  ((checksFirst_visit settings).isolates 0 units).conclude fun found _ =>
    found.mergeSort fun a b => (compareAcross a b).isLE

theorem LockOrder.isolates_run (settings : LockOrderSettings) (units : List SourceUnit) :
    Isolates units (run settings units) (run settings (accepted units)) :=
  ((checksFirst_visit settings).isolates .empty units).conclude fun _ g => deadlocks g

end Interlock
