import Interlock.Command.Run
import Interlock.Proofs.Command.Threshold
import Interlock.Proofs.Finding.Isolation

/-!
# The account of the files of a command

Each file that a command collects is analysed or reported on, never both and never neither, whether
it cannot be read, cannot be decoded or holds a unit that is refused (`Files.Accounts`). A command
whose project opens, whose options can be made out and whose report can be put out ends with such an
account (`Command.Delivers`), no other command ends well (`Command.AccountsAt`), and a project opens
whenever its files can be collected.
-/

namespace Interlock

open Syntax Files

/-! ## Files that are read -/

namespace Files

theorem path_of_readSource_eq_ok {fs : FileSystem} {file : String} {u : SourceUnit}
    (h : readSource fs file = .ok u) : u.path = file := by
  unfold readSource at h
  split at h
  · nomatch h
  · split at h
    · nomatch h
    · split at h
      · nomatch h
      · obtain rfl := Except.ok.inj h
        rfl

theorem path_of_readSource_eq_error {fs : FileSystem} {file : String} {e : SourceError}
    (h : readSource fs file = .error e) : e.path = file := by
  unfold readSource at h
  split at h
  · obtain rfl := Except.error.inj h
    rfl
  · split at h
    · obtain rfl := Except.error.inj h
      rfl
    · split at h
      · obtain rfl := Except.error.inj h
        rfl
      · nomatch h

variable (fs : FileSystem)

/-- Whether a file can be read and its unit is accepted. -/
def isAnalyzed (file : String) : Bool :=
  match readSource fs file with
  | .ok u => u.check.isOk
  | .error _ => false

variable {fs}

theorem isAnalyzed_of_ok {file : String} {u : SourceUnit} (h : readSource fs file = .ok u) :
    isAnalyzed fs file = u.check.isOk := by
  unfold isAnalyzed
  rw [h]

theorem isAnalyzed_of_error {file : String} {e : SourceError} (h : readSource fs file = .error e) :
    isAnalyzed fs file = false := by
  unfold isAnalyzed
  rw [h]

theorem readSources_cons_of_ok {file : String} {files : List String} {u : SourceUnit}
    (h : readSource fs file = .ok u) :
    readSources fs (file :: files) =
      ⟨u :: (readSources fs files).units, (readSources fs files).diagnostics⟩ := by
  rw [readSources, List.filterMap_cons_some (by rw [h]; rfl), List.filterMap_cons_none (by rw [h])]
  rfl

theorem readSources_cons_of_error {file : String} {files : List String} {e : SourceError}
    (h : readSource fs file = .error e) :
    readSources fs (file :: files) =
      ⟨(readSources fs files).units, e.diagnostic :: (readSources fs files).diagnostics⟩ := by
  rw [readSources, List.filterMap_cons_none (by rw [h]; rfl), List.filterMap_cons_some (by rw [h])]
  rfl

/-- The diagnostics on files that cannot be read, and then those on units that are refused. -/
def Sources.allDiagnostics (s : Sources) : List Diagnostic :=
  s.diagnostics ++ (refused s.units).map Diagnostic.ofRefusal

/-- The accepted units are those of the files that are analysed, in order. -/
theorem map_path_accepted (fs : FileSystem) (files : List String) :
    (accepted (readSources fs files).units).map SourceUnit.path = files.filter (isAnalyzed fs) := by
  induction files with
  | nil => rfl
  | cons file rest ih =>
    cases hread : readSource fs file with
    | error e =>
      have hfile : ¬isAnalyzed fs file := by simp [isAnalyzed_of_error hread]
      rw [readSources_cons_of_error hread, List.filter_cons_of_neg hfile, ih]
    | ok u =>
      rw [readSources_cons_of_ok hread]
      cases hu : u.check with
      | error refusal =>
        have hfile : ¬isAnalyzed fs file := by
          simp [isAnalyzed_of_ok hread, hu, Except.isOk, Except.toBool]
        rw [accepted_cons_of_error hu, List.filter_cons_of_neg hfile, ih]
      | ok =>
        have hfile : isAnalyzed fs file := by rw [isAnalyzed_of_ok hread, hu]; rfl
        rw [accepted_cons_of_ok hu, List.filter_cons_of_pos hfile, List.map_cons, ih,
          path_of_readSource_eq_ok hread]

/-- Each of the other files has one diagnostic. They are not in order: the files that cannot be read
come first. -/
theorem map_path_allDiagnostics_perm (fs : FileSystem) (files : List String) :
    ((readSources fs files).allDiagnostics.map Diagnostic.path).Perm
      (files.filter fun file => !isAnalyzed fs file) := by
  induction files with
  | nil => exact .refl _
  | cons file rest ih =>
    rw [Sources.allDiagnostics] at ih ⊢
    cases hread : readSource fs file with
    | error e =>
      have hfile : (!isAnalyzed fs file) = true := by simp [isAnalyzed_of_error hread]
      rw [readSources_cons_of_error hread, List.cons_append, List.map_cons,
        List.filter_cons_of_pos (p := (!isAnalyzed fs ·)) hfile]
      have hpath : e.diagnostic.path = file := path_of_readSource_eq_error hread
      exact hpath ▸ ih.cons _
    | ok u =>
      rw [readSources_cons_of_ok hread]
      cases hu : u.check with
      | error refusal =>
        have hfile : (!isAnalyzed fs file) = true := by
          simp [isAnalyzed_of_ok hread, hu, Except.isOk, Except.toBool]
        have hpath : (Diagnostic.ofRefusal refusal).path = file :=
          (u.path_of_check_eq_error hu).trans (path_of_readSource_eq_ok hread)
        -- the refusal comes after the files that cannot be read
        rw [refused_cons_of_error hu, List.map_cons,
          List.filter_cons_of_pos (p := (!isAnalyzed fs ·)) hfile]
        exact (List.perm_middle.map _).trans (by rw [List.map_cons, hpath]; exact ih.cons _)
      | ok =>
        have hfile : ¬(!isAnalyzed fs file) = true := by
          simp [isAnalyzed_of_ok hread, hu, Except.isOk, Except.toBool]
        rw [refused_cons_of_ok hu, List.filter_cons_of_neg (p := (!isAnalyzed fs ·)) hfile]
        exact ih

/-- A report accounts for some files: it counts those that are analysed and has a diagnostic for
each of the others. -/
structure Accounts (fs : FileSystem) (files : List String) (analyzed : Nat)
    (diagnostics : List Diagnostic) : Prop where
  analyzed_eq : analyzed = (files.filter (isAnalyzed fs)).length
  paths_perm : (diagnostics.map Diagnostic.path).Perm (files.filter fun file => !isAnalyzed fs file)
  analyzed_add_diagnostics : analyzed + diagnostics.length = files.length

theorem accounts_readSources (fs : FileSystem) (files : List String) :
    Accounts fs files (accepted (readSources fs files).units).length
      (readSources fs files).allDiagnostics := by
  have hcount := congrArg List.length (map_path_accepted fs files)
  have hperm := map_path_allDiagnostics_perm fs files
  have hrest := hperm.length_eq
  rw [List.length_map] at hcount hrest
  have hsplit := files.length_eq_length_filter_add (isAnalyzed fs)
  exact ⟨hcount, hperm, by omega⟩

end Files

/-! ## Commands -/

namespace Command

/-- The source files that a command collects at a path. -/
def collectAt (fs : FileSystem) (path : String) : Except CommandError (List String) := do
  let path ← locate fs path
  (collect fs path (Settings.load fs path).exclude).mapError .uncollected

variable {fs : FileSystem} {path : String}

theorem exists_of_bind_eq_ok {ε α β : Type} {x : Except ε α} {f : α → Except ε β} {b : β}
    (h : (x >>= f) = .ok b) : ∃ a, x = .ok a ∧ f a = .ok b := by
  cases x with
  | error e => nomatch h
  | ok a => exact ⟨a, rfl, h⟩

theorem eq_ok_of_toOption {ε α : Type} {x : Except ε α} {a : α} (h : x.toOption = some a) :
    x = .ok a := by
  cases x with
  | error e => cases h
  | ok b => exact congrArg _ (Option.some.inj h)

/-- A project opens whenever its files can be collected, whatever is wrong with them. -/
theorem exists_openProject {files : List String} (h : collectAt fs path = .ok files) :
    ∃ p, openProject fs path = .ok p ∧ p.sources = readSources fs files := by
  obtain ⟨place, hplace, hfiles⟩ := exists_of_bind_eq_ok h
  refine ⟨⟨Settings.load fs place, readSources fs files⟩, ?_, rfl⟩
  simp only [openProject, hplace, bind, Except.bind, hfiles]
  rfl

/-- The files that a project is made of. -/
theorem exists_collectAt {p : Project} (h : openProject fs path = .ok p) :
    ∃ files, collectAt fs path = .ok files ∧ p.sources = readSources fs files := by
  obtain ⟨place, hplace, h⟩ := exists_of_bind_eq_ok h
  obtain ⟨files, hfiles, h⟩ := exists_of_bind_eq_ok h
  obtain rfl := Except.ok.inj h
  refine ⟨files, ?_, rfl⟩
  rw [collectAt, hplace]
  exact hfiles

theorem accounts_raceReport {p : Project} {files : List String}
    (h : p.sources = readSources fs files) (threshold : Severity) :
    Accounts fs files (raceReport p threshold).filesAnalyzed
      (raceReport p threshold).diagnostics := by
  have hfiles := accounts_readSources fs files
  rw [← h] at hfiles
  rw [raceReport, RaceAnalysis.run_eq]
  exact hfiles

theorem accounts_deadlockReport {p : Project} {files : List String}
    (h : p.sources = readSources fs files) :
    Accounts fs files (deadlockReport p).filesAnalyzed (deadlockReport p).diagnostics := by
  have hfiles := accounts_readSources fs files
  rw [← h] at hfiles
  simp only [deadlockReport, LockOrder.run_eq]
  exact hfiles

/-- A command ends well and prints or writes its report if that is possible, and fails otherwise. The
report accounts for some files. -/
structure Delivers (fs : FileSystem) (files : List String) (attempt : Attempt) (report : String)
    (output : Option String) (analyzed : Nat) (diagnostics : List Diagnostic) : Prop where
  ends : ∀ after printed, emit fs report output = .ok (after, printed) →
    ∃ outcome, attempt = .ok (after, outcome) ∧ outcome.stdout = printed.stdout
  fails : ∀ e, emit fs report output = .error e → attempt = .error e
  accounts : Accounts fs files analyzed diagnostics

section

variable {p : Project} {files : List String} {format : Option OutputFormat}
  {format' : OutputFormat}

theorem runCheck_delivers {severity : Option Severity} {threshold : Severity}
    (output : Option String) (hp : openProject fs path = .ok p)
    (hsources : p.sources = readSources fs files)
    (hformat : formatOf format p.settings.display = .ok format')
    (hthreshold : thresholdOf severity p.settings.display = .ok threshold) :
    let report := raceReport p threshold
    Delivers fs files (runCheck fs path severity format output) (report.render format') output
      report.filesAnalyzed report.diagnostics := by
  intro report
  have hrun : runCheck fs path severity format output =
      deliverRaces fs report threshold format' output := by
    simp only [runCheck, hp, hformat, hthreshold, bind, Except.bind, report]
  rw [hrun]
  refine ⟨fun after printed hemit => ?_, fun e => deliverRaces_of_emit_error,
    accounts_raceReport hsources threshold⟩
  obtain ⟨outcome, houtcome, hstdout, -⟩ := deliverRaces_of_emit (t := threshold) hemit
  exact ⟨outcome, houtcome, hstdout⟩

/-- A check that ends well has opened its project and made out its options. -/
theorem opened_of_runCheck {severity : Option Severity} {output : Option String}
    {result : FileSystem × Outcome} (h : runCheck fs path severity format output = .ok result) :
    ∃ p format' threshold, openProject fs path = .ok p ∧
      formatOf format p.settings.display = .ok format' ∧
      thresholdOf severity p.settings.display = .ok threshold := by
  obtain ⟨p, hp, h⟩ := exists_of_bind_eq_ok h
  obtain ⟨format', hformat, h⟩ := exists_of_bind_eq_ok h
  obtain ⟨threshold, hthreshold, -⟩ := exists_of_bind_eq_ok h
  exact ⟨p, format', threshold, hp, hformat, hthreshold⟩

theorem runDeadlock_delivers (output : Option String) (hp : openProject fs path = .ok p)
    (hsources : p.sources = readSources fs files)
    (hformat : formatOf format p.settings.display = .ok format') :
    let report := deadlockReport p
    Delivers fs files (runDeadlock fs path format output) (report.render format') output
      report.filesAnalyzed report.diagnostics := by
  refine ⟨fun after printed hemit => ?_, fun e hemit => ?_, accounts_deadlockReport hsources⟩
  · simp only [runDeadlock, hp, hformat, hemit, bind, Except.bind]
    -- finding something changes the exit code and the note, not the report
    split
    · exact ⟨printed, rfl, rfl⟩
    · exact ⟨_, rfl, rfl⟩
  · simp only [runDeadlock, hp, hformat, hemit, bind, Except.bind]

theorem opened_of_runDeadlock {output : Option String} {result : FileSystem × Outcome}
    (h : runDeadlock fs path format output = .ok result) :
    ∃ p format', openProject fs path = .ok p ∧
      formatOf format p.settings.display = .ok format' := by
  obtain ⟨p, hp, h⟩ := exists_of_bind_eq_ok h
  obtain ⟨format', hformat, -⟩ := exists_of_bind_eq_ok h
  exact ⟨p, format', hp, hformat⟩

end

/-- The commands on a path account for the files that they collect there. -/
structure AccountsAt (fs : FileSystem) (path : String) : Prop where
  /-- A project opens whenever its files can be collected, whatever is wrong with them. -/
  opens : ∀ files, collectAt fs path = .ok files → ∃ p, openProject fs path = .ok p
  /-- A check whose options can be made out ends with a report on all files. -/
  check : ∀ p severity threshold format format' output, openProject fs path = .ok p →
    formatOf format p.settings.display = .ok format' →
    thresholdOf severity p.settings.display = .ok threshold →
      ∃ files, collectAt fs path = .ok files ∧
        let report := raceReport p threshold
        Delivers fs files (runCheck fs path severity format output) (report.render format') output
          report.filesAnalyzed report.diagnostics
  /-- No other check ends well. -/
  of_check : ∀ severity format output result, runCheck fs path severity format output = .ok result →
    ∃ p format' threshold, openProject fs path = .ok p ∧
      formatOf format p.settings.display = .ok format' ∧
      thresholdOf severity p.settings.display = .ok threshold
  /-- So does a search for deadlocks. -/
  deadlock : ∀ p format format' output, openProject fs path = .ok p →
    formatOf format p.settings.display = .ok format' →
      ∃ files, collectAt fs path = .ok files ∧
        let report := deadlockReport p
        Delivers fs files (runDeadlock fs path format output) (report.render format') output
          report.filesAnalyzed report.diagnostics
  of_deadlock : ∀ format output result, runDeadlock fs path format output = .ok result →
    ∃ p format', openProject fs path = .ok p ∧ formatOf format p.settings.display = .ok format'

theorem accountsAt (fs : FileSystem) (path : String) : AccountsAt fs path where
  opens files hfiles := by
    obtain ⟨p, hp, -⟩ := exists_openProject hfiles
    exact ⟨p, hp⟩
  check p severity threshold format format' output hp hformat hthreshold := by
    obtain ⟨files, hfiles, hsources⟩ := exists_collectAt hp
    exact ⟨files, hfiles, runCheck_delivers output hp hsources hformat hthreshold⟩
  of_check _ _ _ _ h := opened_of_runCheck h
  deadlock p format format' output hp hformat := by
    obtain ⟨files, hfiles, hsources⟩ := exists_collectAt hp
    exact ⟨files, hfiles, runDeadlock_delivers output hp hsources hformat⟩
  of_deadlock _ _ _ h := opened_of_runDeadlock h

/-- **Units that cannot be analysed are isolated.** Both analyses find in some units what they find
in the accepted ones alone, and report each of the others once, in order; a scan of a refused unit
leaves the graph as it was. A command whose project opens, whose options can be made out and whose
report can be put out, and no other, ends well; and each file that it collects is either counted as
analysed or reported once, whatever is wrong with the files. -/
theorem faults_isolated (raceSettings : RaceSettings) (lockSettings : LockOrderSettings) :
    (∀ units, Isolates units (RaceAnalysis.run raceSettings units)
      (RaceAnalysis.run raceSettings (accepted units))) ∧
    (∀ units, Isolates units (LockOrder.run lockSettings units)
      (LockOrder.run lockSettings (accepted units))) ∧
    (∀ (g : LockGraph) (u : SourceUnit) (refusal : Refusal), u.check = .error refusal →
      LockOrder.scan lockSettings g u = (.error refusal, g)) ∧
    ∀ fs path, AccountsAt fs path :=
  ⟨RaceAnalysis.isolates_run raceSettings, LockOrder.isolates_run lockSettings,
    fun g _ _ hu => LockOrder.scan_of_error lockSettings g hu, accountsAt⟩

/-- A directory with an empty file, one whose bytes are no text, and one that is not understood. -/
def package : FileSystem where
  root := [("p", .dir [("__init__.py", .file ⟨⟨#[]⟩, none⟩), ("blob.py", .file ⟨⟨#[255]⟩, none⟩),
    ("torn.py", .file ⟨⟨#[40]⟩, none⟩)])]
  working := []

/-- The files of the directory. -/
def packageFiles : List String := ["/p/__init__.py", "/p/blob.py", "/p/torn.py"]

theorem collectAt_package : collectAt package "/p" = .ok packageFiles := by
  have hplace : (locate package "/p").toOption = some "/p" := by decide +kernel
  have hfound : (find package "/p" (Settings.load package "/p").exclude).toOption =
      some packageFiles := by decide +kernel
  have hsorted : packageFiles.Pairwise fun a b => (Path.compare a b).isLE = true := by
    decide +kernel
  rw [collectAt, eq_ok_of_toOption hplace]
  show ((find package "/p" _).map _).mapError _ = _
  rw [eq_ok_of_toOption hfound]
  show Except.ok (packageFiles.mergeSort _) = _
  rw [List.mergeSort_of_pairwise hsorted]

/-- Of the three files the empty one is analysed, and the two others are reported. -/
theorem faults_isolated_package : ∃ p, openProject package "/p" = .ok p ∧
    (∃ outcome, runCheck package "/p" (some .low) (some .json) none = .ok (package, outcome)) ∧
    (∃ outcome, runDeadlock package "/p" (some .json) none = .ok (package, outcome)) ∧
    (raceReport p .low).filesAnalyzed = 1 ∧ (deadlockReport p).filesAnalyzed = 1 ∧
    ((raceReport p .low).diagnostics.map Diagnostic.path).Perm ["/p/blob.py", "/p/torn.py"] ∧
    ((deadlockReport p).diagnostics.map Diagnostic.path).Perm ["/p/blob.py", "/p/torn.py"] := by
  have haccount : AccountsAt package "/p" := (faults_isolated {} {}).2.2.2 package "/p"
  obtain ⟨p, hp⟩ := haccount.opens _ collectAt_package
  obtain ⟨files, hfiles, hcheck⟩ :=
    haccount.check p (some .low) .low (some .json) .json none hp rfl rfl
  obtain ⟨files', hfiles', hdeadlock⟩ := haccount.deadlock p (some .json) .json none hp rfl
  obtain rfl : packageFiles = files := Except.ok.inj (collectAt_package.symm.trans hfiles)
  obtain rfl : packageFiles = files' := Except.ok.inj (collectAt_package.symm.trans hfiles')
  obtain ⟨outcome, houtcome, -⟩ := hcheck.ends _ _ rfl
  obtain ⟨outcome', houtcome', -⟩ := hdeadlock.ends _ _ rfl
  have hanalyzed : (packageFiles.filter (isAnalyzed package)).length = 1 := by decide +kernel
  have hothers : (packageFiles.filter fun file => !isAnalyzed package file) =
      ["/p/blob.py", "/p/torn.py"] := by decide +kernel
  exact ⟨p, hp, ⟨outcome, houtcome⟩, ⟨outcome', houtcome'⟩,
    hcheck.accounts.analyzed_eq.trans hanalyzed, hdeadlock.accounts.analyzed_eq.trans hanalyzed,
    hothers ▸ hcheck.accounts.paths_perm, hothers ▸ hdeadlock.accounts.paths_perm⟩

end Command

end Interlock
