import Interlock.Command.Run
import Interlock.Proofs.Race.Units

/-!
# Severities that count

A check reports the races from some severity on and ends with exit code 1 if there are any. Three
parts of it look at severities: the report selects races, its summary counts them by severity
(`Summary.ofSeverities_eq`), and the exit code goes by the count from the threshold on
(`Summary.atOrAbove_ofSeverities`). `Command.check_thresholds` says that they agree for every list
of findings.

A race that the analysis finds is never of low severity (`RaceAnalysis.medium_le_of_mem_run`), so
that a check from medium severity on is the same as a check for everything.
-/

namespace Interlock

open Files

/-! ## Severities and summaries -/

namespace Severity

theorem le_iff {a b : Severity} : a ≤ b ↔ a.rank ≤ b.rank := Iff.rfl

theorem le_trans {a b c : Severity} (hab : a ≤ b) (hbc : b ≤ c) : a ≤ c :=
  Nat.le_trans hab hbc

theorem low_le (a : Severity) : low ≤ a := Nat.zero_le a.rank

end Severity

namespace Summary

variable (severities : List Severity)

theorem foldl_add (s : Summary) : severities.foldl add s =
    ⟨s.critical + severities.count .critical, s.high + severities.count .high,
      s.medium + severities.count .medium, s.low + severities.count .low,
      s.total + severities.length⟩ := by
  induction severities generalizing s with
  | nil => rfl
  | cons severity rest ih =>
    rw [List.foldl_cons, ih]
    cases severity <;> simp [add] <;> omega

/-- Each counter of a summary is the number of its severity, and the total is the number of all. -/
theorem ofSeverities_eq : ofSeverities severities =
    ⟨severities.count .critical, severities.count .high, severities.count .medium,
      severities.count .low, severities.length⟩ := by
  rw [ofSeverities, foldl_add]
  simp [empty]

theorem sum_counts : severities.count .critical + severities.count .high +
    severities.count .medium + severities.count .low = severities.length := by
  induction severities with
  | nil => rfl
  | cons severity rest ih => cases severity <;> simp <;> omega

/-- **The cumulative count is the number of severities from the threshold on.** -/
theorem atOrAbove_ofSeverities (threshold : Severity) :
    (ofSeverities severities).atOrAbove threshold =
      severities.countP fun s => threshold ≤ s := by
  rw [ofSeverities_eq]
  induction severities with
  | nil => cases threshold <;> rfl
  | cons severity rest ih =>
    rw [List.countP_cons, ← ih]
    cases threshold <;> cases severity <;>
      simp [atOrAbove, Severity.le_iff, Severity.rank] <;> omega

end Summary

/-! ## Reports -/

/-- A report has the findings from a severity on, in their order, and its summary counts them. -/
structure RaceReport.Selects (report : RaceReport) (findings : List Race) (threshold : Severity) :
    Prop where
  races_eq : report.races = findings.filter fun r => threshold ≤ r.severity
  sum_eq : report.summary.critical + report.summary.high + report.summary.medium +
    report.summary.low = report.summary.total
  total_eq : report.summary.total = report.races.length
  atOrAbove_eq : ∀ u, report.summary.atOrAbove u = report.races.countP fun r => u ≤ r.severity

theorem RaceAnalysis.medium_le_of_mem_run {settings : RaceSettings}
    {units : List Syntax.SourceUnit} {race : Race} (h : race ∈ (run settings units).1.findings) :
    .medium ≤ race.severity := by
  obtain ⟨u, -, hrace⟩ := List.mem_flatMap.1 ((findings_run_perm settings).mem_iff.1 h)
  obtain ⟨name, hrace⟩ := exists_race? settings hrace
  exact (race?_eq_some hrace).2.2.1

namespace Command

section Report

variable (unread : List Diagnostic) (run : Run Race) (states : Nat) {t t' : Severity}

theorem selects_reportOn (t : Severity) :
    (reportOn unread run states t).Selects run.findings t := by
  refine ⟨rfl, ?_, ?_, fun u => ?_⟩
  · simp only [reportOn, Summary.ofSeverities_eq]
    exact Summary.sum_counts _
  · simp [reportOn, Summary.ofSeverities_eq]
  · simp only [reportOn, Summary.atOrAbove_ofSeverities, List.countP_map]
    rfl

/-- A report counts something from its own threshold on if some finding reaches it. -/
theorem atOrAbove_reportOn_eq_zero : (reportOn unread run states t).summary.atOrAbove t = 0 ↔
    ¬ ∃ r ∈ run.findings, t ≤ r.severity := by
  rw [(selects_reportOn unread run states t).atOrAbove_eq, List.countP_eq_zero]
  simp [reportOn]

theorem sublist_reportOn (h : t ≤ t') :
    (reportOn unread run states t').races.Sublist (reportOn unread run states t).races := by
  have himp : ∀ r : Race, decide (t' ≤ r.severity) = true → decide (t ≤ r.severity) = true := by
    intro r hr
    exact decide_eq_true (Severity.le_trans h (of_decide_eq_true hr))
  exact List.monotone_filter_right run.findings himp

/-- Two thresholds that the same findings reach give the same report. -/
theorem reportOn_congr (h : ∀ r ∈ run.findings, t ≤ r.severity ↔ t' ≤ r.severity) :
    reportOn unread run states t = reportOn unread run states t' := by
  have hraces : (run.findings.filter fun r => t ≤ r.severity) =
      run.findings.filter fun r => t' ≤ r.severity :=
    List.filter_congr fun r hr => decide_eq_decide.2 (h r hr)
  simp only [reportOn, hraces]

end Report

/-! ## Exit codes -/

section Delivery

variable {fs after : FileSystem} {report : RaceReport} {format : OutputFormat}
  {output : Option String} {printed : Outcome}

theorem exitCode_of_emit {text : String} (h : emit fs text output = .ok (after, printed)) :
    printed.exitCode = 0 := by
  unfold emit at h
  split at h
  · obtain ⟨-, rfl⟩ := Prod.mk.inj (Except.ok.inj h)
    rfl
  · split at h
    · obtain ⟨-, rfl⟩ := Prod.mk.inj (Except.ok.inj h)
      rfl
    · cases h

/-- A report that can be printed or written is delivered, and only the exit code and the note on it
depend on what was found. -/
theorem deliverRaces_of_emit {t : Severity}
    (h : emit fs (report.render format) output = .ok (after, printed)) :
    ∃ outcome, deliverRaces fs report t format output = .ok (after, outcome) ∧
      outcome.stdout = printed.stdout ∧
      outcome.exitCode = if report.summary.atOrAbove t = 0 then 0 else 1 := by
  simp only [deliverRaces, h, bind, Except.bind]
  split
  · exact ⟨printed, rfl, rfl, exitCode_of_emit h⟩
  · exact ⟨_, rfl, rfl, rfl⟩

theorem deliverRaces_of_emit_error {t : Severity} {e : CommandError}
    (h : emit fs (report.render format) output = .error e) :
    deliverRaces fs report t format output = .error e := by
  simp only [deliverRaces, h, bind, Except.bind]

end Delivery

/-- What can be seen of a command that has ended, apart from its notes. -/
def seen (result : FileSystem × Outcome) : FileSystem × String × Nat :=
  (result.1, result.2.stdout, result.2.exitCode)

/-- Thresholds with the same report and the same findings to count end in the same way. -/
theorem map_seen_deliverRaces {report : RaceReport} {t t' : Severity} (fs : FileSystem)
    (format : OutputFormat) (output : Option String)
    (h : report.summary.atOrAbove t = report.summary.atOrAbove t') :
    (deliverRaces fs report t format output).map seen =
      (deliverRaces fs report t' format output).map seen := by
  cases hemit : emit fs (report.render format) output with
  | error e => rw [deliverRaces_of_emit_error hemit, deliverRaces_of_emit_error hemit]
  | ok result =>
    obtain ⟨after, printed⟩ := result
    obtain ⟨o, ho, hstdout, hexit⟩ := deliverRaces_of_emit (t := t) hemit
    obtain ⟨o', ho', hstdout', hexit'⟩ := deliverRaces_of_emit (t := t') hemit
    rw [ho, ho']
    simp only [Except.map, seen, hstdout, hstdout', hexit, hexit', h]

/-! ## Low and medium severity -/

theorem raceReport_low (p : Project) : raceReport p .low = raceReport p .medium :=
  reportOn_congr _ _ _ fun r hr =>
    iff_of_true r.severity.low_le (RaceAnalysis.medium_le_of_mem_run hr)

theorem atOrAbove_low_raceReport (p : Project) : (raceReport p .medium).summary.atOrAbove .low =
    (raceReport p .medium).summary.atOrAbove .medium := by
  have hselects : (raceReport p .medium).Selects
      (RaceAnalysis.run p.settings.race p.sources.units).1.findings .medium :=
    selects_reportOn _ _ _ _
  rw [hselects.atOrAbove_eq, hselects.atOrAbove_eq]
  refine List.countP_congr fun r hr => ?_
  rw [hselects.races_eq] at hr
  exact iff_of_true (decide_eq_true r.severity.low_le) (List.mem_filter.1 hr).2

/-- **The parts of a check that look at severities agree.** For every run and every threshold, the
report has the findings from the threshold on and counts them; a report that can be delivered gives
exit code 1 if some finding of the run reaches the threshold, and 0 if none does; a higher threshold
leaves out further findings and changes nothing else. A check of a project does this with the run of
the analysis, for which the thresholds low and medium make no difference. -/
theorem check_thresholds (unread : List Diagnostic) (run : Run Race) (states : Nat) (t : Severity) :
    (reportOn unread run states t).Selects run.findings t ∧
    (∀ t', t ≤ t' →
      (reportOn unread run states t').races.Sublist (reportOn unread run states t).races) ∧
    (∀ fs format output after printed,
      emit fs ((reportOn unread run states t).render format) output = .ok (after, printed) →
        ∃ outcome, deliverRaces fs (reportOn unread run states t) t format output =
            .ok (after, outcome) ∧ outcome.stdout = printed.stdout ∧
          outcome.exitCode = if ∃ r ∈ run.findings, t ≤ r.severity then 1 else 0) ∧
    ∀ (p : Project) (fs : FileSystem),
      (∀ path severity format output format', openProject fs path = .ok p →
        formatOf format p.settings.display = .ok format' →
        thresholdOf severity p.settings.display = .ok t →
          let found := RaceAnalysis.run p.settings.race p.sources.units
          runCheck fs path severity format output =
            deliverRaces fs (reportOn p.sources.diagnostics found.1 found.2 t) t format' output) ∧
      raceReport p .low = raceReport p .medium ∧
      ∀ format output, (deliverRaces fs (raceReport p .low) .low format output).map seen =
        (deliverRaces fs (raceReport p .medium) .medium format output).map seen := by
  refine ⟨selects_reportOn unread run states t, fun t' => sublist_reportOn unread run states, ?_,
    fun p fs => ⟨?_, raceReport_low p, fun format output => ?_⟩⟩
  · intro fs format output after printed hemit
    obtain ⟨outcome, houtcome, hstdout, hexit⟩ := deliverRaces_of_emit (t := t) hemit
    refine ⟨outcome, houtcome, hstdout, hexit.trans ?_⟩
    by_cases hfound : ∃ r ∈ run.findings, t ≤ r.severity
    · rw [if_neg (mt (atOrAbove_reportOn_eq_zero unread run states).1 (not_not.2 hfound)),
        if_pos hfound]
    · rw [if_pos ((atOrAbove_reportOn_eq_zero unread run states).2 hfound), if_neg hfound]
  · intro path severity format output format' hp hformat ht
    simp only [runCheck, hp, hformat, ht, bind, Except.bind]
    rfl
  · rw [raceReport_low]
    exact map_seen_deliverRaces fs format output (atOrAbove_low_raceReport p)

/-- Races of three severities, out of order. -/
def mixedRun : Run Race where
  findings := [.low, .critical, .medium].map fun severity => { (default : Race) with severity }
  diagnostics := []
  analyzed := 1
  skipped := 0

theorem check_thresholds_mixed :
    (reportOn [] mixedRun 3 .medium).races.map Race.severity = [.critical, .medium] ∧
      ∃ outcome, deliverRaces default (reportOn [] mixedRun 3 .medium) .medium .json none =
        .ok (default, outcome) ∧ outcome.exitCode = 1 := by
  obtain ⟨hselects, -, hexit, -⟩ := check_thresholds [] mixedRun 3 .medium
  obtain ⟨outcome, houtcome, -, hcode⟩ := hexit default .json none default _ rfl
  refine ⟨by rw [hselects.races_eq]; decide, outcome, houtcome, ?_⟩
  rw [hcode, if_pos (by decide)]

end Command

end Interlock
