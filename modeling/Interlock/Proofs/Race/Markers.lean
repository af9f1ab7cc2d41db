import Interlock.Proofs.Flow.Taken
import Interlock.Proofs.Race.Fields
import Interlock.Proofs.Race.Guarded
import Interlock.Proofs.Syntax.Nesting

/-!
# Files without signs of threads

The settings may ask for a file to be judged as if threads were about. This changes nothing for a
file that shows a sign of threads by itself: it imports a concurrency module somewhere
(`Node.ImportsThreads`), or a lock is taken in it. In any other file nothing is reported unless the
settings ask for it, since every access is confined to one thread or atomic
(`RaceAnalysis.races_assuming`). So the settings can only add races.

Import statements are recognised by the text of the module name up to its first dot. A name that is
written with a blank there, as in `import concurrent . futures`, is missed
(`RaceAnalysis.races_assuming_blank`).
-/

namespace Interlock

open Syntax Lock Lock.HeldLocks

/-! ## Import statements -/

namespace Syntax.Node

/-- The names of the modules that a statement imports, or imports from. -/
def moduleNames (n : Node) : List Node :=
  match n.kind with
  | .importStatement =>
    n.named.filterMap fun c =>
      match c.kind with
      | .aliasedImport => c.child? .name
      | .dottedName => some c
      | _ => none
  | .importFromStatement => (n.child? .moduleName).toList
  | _ => []

/-- The package that a dotted name starts with. A relative name has none. -/
def package? (name : Node) : Option String :=
  if name.kind = .dottedName then name.first?.map text else none

/-- A concurrency module is imported somewhere in a tree. -/
def ImportsThreads (root : Node) : Prop :=
  ∃ n ∈ root.preorder, ∃ name ∈ n.moduleNames, ∃ package ∈ name.package?,
    package ∈ concurrencyModules

instance (root : Node) : Decidable root.ImportsThreads :=
  inferInstanceAs (Decidable (∃ n ∈ root.preorder, ∃ name ∈ n.moduleNames,
    ∃ package ∈ name.package?, package ∈ concurrencyModules))

/-- Whether a node is an import statement. -/
def isImport (n : Node) : Bool := n.kind = .importStatement || n.kind = .importFromStatement

/-- An import statement has no other below it, and a module name in it is written without a blank
before its first dot; a relative name starts with a dot. -/
structure PlainImport (n : Node) : Prop where
  head_eq : ∀ name ∈ n.moduleNames, Text.head name.text = name.package?.getD ""
  isImport_below : n.isImport = true → ∀ c ∈ n.children, c.Everywhere fun m => m.isImport = false

instance : DecidablePred PlainImport := fun n =>
  decidable_of_iff
    ((∀ name ∈ n.moduleNames, Text.head name.text = name.package?.getD "") ∧
      (n.isImport = true → ∀ c ∈ n.children, c.Everywhere fun m => m.isImport = false))
    ⟨fun h => ⟨h.1, h.2⟩, fun h => ⟨h.head_eq, h.isImport_below⟩⟩

variable {n : Node}

theorem moduleNames_of_isImport (h : n.isImport = false) : n.moduleNames = [] := by
  unfold moduleNames
  unfold isImport at h
  split <;> simp_all

theorem importedNames_eq (h : n.isImport = true) : importedNames n = n.moduleNames.map text := by
  have hkind : n.kind = .importStatement ∨ n.kind = .importFromStatement := by
    simpa [isImport] using h
  rcases hkind with hkind | hkind
  · simp only [importedNames, moduleNames, hkind, List.map_filterMap]
    refine congrArg (List.filterMap · _) (funext fun c => ?_)
    split <;> simp_all
  · simp only [importedNames, moduleNames, hkind]
    cases n.child? .moduleName <;> rfl

theorem importsThreads_iff : n.ImportsThreads ↔
    (∃ name ∈ n.moduleNames, ∃ package ∈ name.package?, package ∈ concurrencyModules) ∨
      ∃ c ∈ n.children, c.ImportsThreads := by
  unfold ImportsThreads
  rw [preorder_eq n]
  constructor
  · rintro ⟨m, hm, h⟩
    rcases List.mem_cons.1 hm with rfl | hm
    · exact .inl h
    · obtain ⟨c, hc, hm⟩ := List.mem_flatMap.1 hm
      exact .inr ⟨c, hc, m, hm, h⟩
  · rintro (h | ⟨c, hc, m, hm, h⟩)
    · exact ⟨n, List.mem_cons_self, h⟩
    · exact ⟨m, List.mem_cons_of_mem _ (List.mem_flatMap.2 ⟨c, hc, hm⟩), h⟩

theorem not_importsThreads (h : n.Everywhere fun m => m.isImport = false) : ¬ n.ImportsThreads := by
  rintro ⟨m, hm, name, hname, -⟩
  rw [moduleNames_of_isImport (h m hm)] at hname
  cases hname

end Syntax.Node

open Syntax.Node

theorem anyImportsConcurrency_iff {nodes : List Node} : anyImportsConcurrency nodes = true ↔
    ∃ c ∈ nodes, c.isNamed = true ∧ importsConcurrency c = true := by
  induction nodes with
  | nil => simp [anyImportsConcurrency]
  | cons c rest ih => simp [anyImportsConcurrency, ih]

theorem importsConcurrency_of_isImport {n : Node} (h : n.isImport = true) :
    importsConcurrency n = true ↔
      ∃ name ∈ n.moduleNames, Text.head name.text ∈ concurrencyModules := by
  obtain ⟨kind, field, text, row, flaw, children⟩ := n
  have hkind : kind = .importStatement ∨ kind = .importFromStatement := by
    simpa [isImport] using h
  rw [importsConcurrency, if_pos hkind, importedNames_eq h]
  simp

theorem importsConcurrency_of_not_isImport {n : Node} (h : n.isImport = false) :
    importsConcurrency n = anyImportsConcurrency n.children := by
  obtain ⟨kind, field, text, row, flaw, children⟩ := n
  have hkind : ¬ (kind = .importStatement ∨ kind = .importFromStatement) := by
    simpa [isImport] using h
  rw [importsConcurrency, if_neg hkind]

/-- Without blanks in module names, the text of a name tells its package. -/
theorem Syntax.Node.PlainImport.head_mem_iff {n name : Node} (h : n.PlainImport)
    (hname : name ∈ n.moduleNames) : Text.head name.text ∈ concurrencyModules ↔
      ∃ package ∈ name.package?, package ∈ concurrencyModules := by
  rw [h.head_eq name hname]
  cases name.package? with
  | none => simp [concurrencyModules]
  | some package => simp

/-- **Imports are found wherever they stand.** -/
theorem importsConcurrency_iff (n : Node) (hplain : n.Everywhere PlainImport)
    (hnamed : n.Everywhere fun m => m.flaw = none) :
    importsConcurrency n = true ↔ n.ImportsThreads := by
  induction n using Node.ofChildren with
  | h n ih =>
    rw [importsThreads_iff]
    cases himport : n.isImport with
    | true =>
      -- nothing counts below an import statement
      have hbelow : ¬ ∃ c ∈ n.children, c.ImportsThreads := fun ⟨c, hc, hthreads⟩ =>
        not_importsThreads (hplain.here.isImport_below himport c hc) hthreads
      rw [importsConcurrency_of_isImport himport, or_iff_left hbelow]
      exact exists_congr fun name => and_congr_right hplain.here.head_mem_iff
    | false =>
      rw [importsConcurrency_of_not_isImport himport, anyImportsConcurrency_iff,
        moduleNames_of_isImport himport]
      simp only [List.not_mem_nil, false_and, exists_false, false_or]
      refine exists_congr fun c => and_congr_right fun hc => ?_
      rw [ih c hc (hplain.child hc) (hnamed.child hc)]
      simp [isNamed, (hnamed.child hc).here]

/-! ## Accesses without locks -/

/-- Where no lock is taken, none is held. -/
theorem held_eq_nil_of_no_acquire {mode : HoldMode} {names : Names} {u : SourceUnit} {e : Event}
    (h : ¬ ∃ r held lock line, .acquire r held lock line ∈ walk mode names u)
    (he : e ∈ walk mode names u) : e.held = [] := by
  refine List.eq_nil_iff_forall_not_mem.2 fun l hl => h ?_
  obtain ⟨e', he', htaken⟩ := exists_taken_of_mem_held he (mem_names.2 ⟨l, hl, rfl⟩)
  obtain ⟨r, held, line, rfl⟩ := e'.exists_of_taken? htaken
  exact ⟨r, held, l.name, line, he'⟩

theorem Protection.isSome_classify_false (r : Routine) (lock : Option String) (a : AttrAccess) :
    (classify r lock a false).isSome := by
  rw [classify_isSome_iff]
  refine .inr (.inr ?_)
  unfold confinement?
  split_ifs <;> simp_all

/-- The point of an access shows that it is kept from other threads without a lock. -/
structure AccessPoint.Apart (p : AccessPoint) (protection : Option Protection) : Prop where
  isSome_protection : p.protection.isSome
  lockHeld_eq : p.lockHeld = false
  exists_protection : ∃ q, protection = some q ∧ ∀ lock, q ≠ .lockHeld lock

theorem RecordedAccess.apart {path : String} {r : RecordedAccess} (h : r.lock = none) :
    (r.point path false).Apart (r.protection false) := by
  have hsome : (r.protection false).isSome := Protection.isSome_classify_false _ _ _
  obtain ⟨q, hq⟩ := Option.isSome_iff_exists.1 hsome
  refine ⟨by simpa [point] using hsome, by simp [point, h], q, hq, ?_⟩
  rintro lock rfl
  have hlock : r.lock = some lock := Protection.classify_eq_lockHeld_iff.1 hq
  rw [h] at hlock
  cases hlock

/-! ## Two settings -/

/-- The settings, with or without the assumption that threads are about. -/
def RaceSettings.assuming (settings : RaceSettings) (concurrent : Bool) : RaceSettings :=
  { settings with assumeConcurrent := concurrent }

namespace RaceAnalysis

open StateTable

/-- The unit imports a concurrency module, or a lock is taken in it. -/
def ShowsThreads (names : Names) (u : SourceUnit) : Prop :=
  u.tree.ImportsThreads ∨ ∃ r held lock line, .acquire r held lock line ∈ walk .must names u

variable (settings : RaceSettings) (u : SourceUnit)

theorem isConcurrent_assuming (hu : u.check = .ok ()) (hplain : u.tree.Everywhere PlainImport) :
    isConcurrent (settings.assuming false) u
        (.ofEvents (walk .must ⟨settings.lockNames⟩ u)) = true ↔
      ShowsThreads ⟨settings.lockNames⟩ u := by
  rw [ShowsThreads, ← importsConcurrency_iff u.tree hplain (SourceUnit.flaw_of_check hu).2,
    ← sawLock_ofEvents, or_comm]
  simp [isConcurrent, RaceSettings.assuming]

/-- A unit with signs of threads has the same states either way. -/
theorem statesOf_assuming (hu : u.check = .ok ()) (hplain : u.tree.Everywhere PlainImport)
    (h : ShowsThreads ⟨settings.lockNames⟩ u) :
    statesOf (settings.assuming false) u = statesOf (settings.assuming true) u := by
  have hfalse := (isConcurrent_assuming settings u hu hplain).2 h
  have htrue : isConcurrent (settings.assuming true) u
      (.ofEvents (walk .must ⟨settings.lockNames⟩ u)) = true := by
    simp [isConcurrent, RaceSettings.assuming]
  exact congrArg (StateTable.states _ u.path) (hfalse.trans htrue.symm)

/-- In a unit without signs of threads every access is kept apart without a lock. -/
theorem apart_of_mem_statesOf (hu : u.check = .ok ()) (hplain : u.tree.Everywhere PlainImport)
    (h : ¬ ShowsThreads ⟨settings.lockNames⟩ u) {t : TrackedState}
    (ht : t ∈ statesOf (settings.assuming false) u) :
    t.protections.length = t.state.points.length ∧
      ∀ x ∈ t.state.points.zip t.protections, x.1.Apart x.2 := by
  have hfalse : isConcurrent (settings.assuming false) u
      (.ofEvents (walk .must ⟨settings.lockNames⟩ u)) = false :=
    Bool.eq_false_iff.2 (mt (isConcurrent_assuming settings u hu hplain).1 h)
  have ht : t ∈ (ofEvents (walk .must ⟨settings.lockNames⟩ u)).states u.path false := hfalse ▸ ht
  refine ⟨length_protections _ _ _ ht, fun x hx => ?_⟩
  rw [states_eq_map] at ht
  obtain ⟨name, -, rfl⟩ := List.mem_map.1 ht
  simp only [track, List.zip_map'] at hx
  obtain ⟨r, hr, rfl⟩ := List.mem_map.1 hx
  obtain ⟨held, c, he, -, -, hlock⟩ := exists_event hr
  have hheld : held = [] := held_eq_nil_of_no_acquire (not_or.1 h).2 he
  exact RecordedAccess.apart (by rw [hlock, hheld]; rfl)

theorem racesAmong_eq_nil {tracked : List TrackedState}
    (h : ∀ t ∈ tracked, ∀ x ∈ t.state.points.zip t.protections, x.2.isSome) :
    racesAmong settings tracked = [] := by
  refine List.perm_nil.1 ((racesAmong_perm settings tracked).trans (.of_eq ?_))
  refine List.filterMap_eq_nil_iff.2 fun t ht => ?_
  have hopen : unprotected t = [] := by
    refine List.map_eq_nil_iff.2 (List.filter_eq_nil_iff.2 fun w hw hnone => ?_)
    have hsome := h t ht w (List.mem_of_mem_filter hw)
    simp [Option.isNone_iff_eq_none.1 hnone] at hsome
  simp [race?, hopen]

/-- **Assuming threads can only add races.** A unit that shows a sign of threads by itself has the
same races with and without the assumption. Any other has none without it, and each of its accesses
is then kept apart without a lock. -/
theorem races_assuming (hu : u.check = .ok ()) (hplain : u.tree.Everywhere PlainImport) :
    (ShowsThreads ⟨settings.lockNames⟩ u →
      races (settings.assuming false) u = races (settings.assuming true) u) ∧
    (¬ ShowsThreads ⟨settings.lockNames⟩ u → races (settings.assuming false) u = .ok [] ∧
      ∃ tracked, states (settings.assuming false) u = .ok tracked ∧ ∀ t ∈ tracked,
        t.protections.length = t.state.points.length ∧
          ∀ x ∈ t.state.points.zip t.protections, x.1.Apart x.2) ∧
    ∃ found found', races (settings.assuming false) u = .ok found ∧
      races (settings.assuming true) u = .ok found' ∧ found.Sublist found' := by
  have hsame (h : ShowsThreads ⟨settings.lockNames⟩ u) :
      racesAmong (settings.assuming false) (statesOf (settings.assuming false) u) =
        racesAmong (settings.assuming true) (statesOf (settings.assuming true) u) := by
    rw [statesOf_assuming settings u hu hplain h]
    rfl
  have hapart (h : ¬ ShowsThreads ⟨settings.lockNames⟩ u) :=
    fun t => @apart_of_mem_statesOf settings u hu hplain h t
  have hnone (h : ¬ ShowsThreads ⟨settings.lockNames⟩ u) :
      racesAmong (settings.assuming false) (statesOf (settings.assuming false) u) = [] :=
    racesAmong_eq_nil _ fun t ht x hx => by
      obtain ⟨q, hq, -⟩ := ((hapart h t ht).2 x hx).exists_protection
      simp [hq]
  simp only [races_eq _ hu, states_eq _ hu]
  refine ⟨fun h => congrArg _ (hsame h), fun h => ⟨congrArg _ (hnone h), _, rfl, hapart h⟩, _, _,
    rfl, rfl, ?_⟩
  by_cases h : ShowsThreads ⟨settings.lockNames⟩ u
  · rw [hsame h]
  · rw [hnone h]
    exact List.nil_sublist _

open Node in
/-- A class with a method that sets an attribute, below some other statements. -/
def tallyWith (statements : List Node) : SourceUnit :=
  .ofStatements "tally.py" <| statements ++
    [classOf (ident 2 "Tally")
      [function (ident 3 "add") ["self"] [assign ((ident 4 "self").dot "total")]]]

open Node in
/-- An import counts also where it stands inside a function, and a file without any has no races
unless they are asked for. -/
theorem races_assuming_tally :
    let pooled := tallyWith [function (ident 0 "start") []
      [importOf 1 "concurrent.futures" ["concurrent", "futures"]]]
    (pooled.tree.ImportsThreads ∧
      races (RaceSettings.assuming {} false) pooled =
        races (RaceSettings.assuming {} true) pooled) ∧
    ¬ ShowsThreads ⟨[]⟩ (tallyWith []) ∧
      races (RaceSettings.assuming {} false) (tallyWith []) = .ok [] := by
  have himports : (tallyWith [function (ident 0 "start") []
      [importOf 1 "concurrent.futures" ["concurrent", "futures"]]]).tree.ImportsThreads := by
    decide +kernel
  have hquiet : ¬ ShowsThreads ⟨[]⟩ (tallyWith []) := by
    refine not_or.2 ⟨by decide +kernel, fun h => ?_⟩
    have hsaw := (sawLock_ofEvents _).2 h
    revert hsaw
    decide +kernel
  exact ⟨⟨himports, (races_assuming {} _ rfl (by decide +kernel)).1 (.inl himports)⟩, hquiet,
    ((races_assuming {} (tallyWith []) rfl (by decide +kernel)).2.1 hquiet).1⟩

open Node in
/-- With a blank before its first dot, the name of a concurrency module is not recognised: the file
counts as one without threads, and the assumption changes what is reported. -/
theorem races_assuming_blank :
    let u := tallyWith [importOf 0 "concurrent . futures" ["concurrent", "futures"]]
    u.check = .ok () ∧ u.tree.ImportsThreads ∧
      races (RaceSettings.assuming {} false) u = .ok [] ∧
      races (RaceSettings.assuming {} true) u ≠ .ok [] := by
  intro u
  have hu : u.check = .ok () := rfl
  refine ⟨hu, by decide +kernel, ?_, ?_⟩
  · have hnone : (statesOf (RaceSettings.assuming {} false) u).filterMap
        (race? (RaceSettings.assuming {} false)) = [] := by
      decide +kernel
    have hperm := racesAmong_perm (RaceSettings.assuming {} false)
      (statesOf (RaceSettings.assuming {} false) u)
    rw [races_eq _ hu, List.perm_nil.1 (hperm.trans (.of_eq hnone))]
  · rw [races_eq _ hu]
    intro hempty
    have hlength := (racesAmong_perm (RaceSettings.assuming {} true)
      (statesOf (RaceSettings.assuming {} true) u)).length_eq
    rw [Except.ok.inj hempty] at hlength
    revert hlength
    decide +kernel

end RaceAnalysis

end Interlock
