import Interlock.Proofs.Race.Report
import Interlock.Proofs.Race.Tracking
import Mathlib.Data.Prod.Lex

/-!
# What a shared state says of its accesses

A shared state sums up its accesses: how the attribute is used, whether every write is protected,
which lock protects it and where it is declared. `TrackedState.Agrees` says what each of these
fields means in terms of the points of the state, their protections and the events behind them, and
`StateTable.agrees_of_mem_states` that every state of a table keeps to it.

The line of a state is the only field that its points do not determine: a write in the class body
counts before one in `__init__`, and a point does not show the kind of its routine. It is therefore
read off the events (`declarationLine_of_write`).
-/

namespace Interlock

/-- How a routine ranks as the place of a declaration: a class body comes first, then `__init__`,
then all else. -/
def Routine.rank (r : Routine) : Nat :=
  match r.kind with
  | .classBody => 0
  | .method => if r.shortName = "__init__" then 1 else 2
  | .module | .function | .closure => 2

/-- What the order of declarations goes by: the rank of the routine, then the line. -/
def declarationKey (r : Routine) (a : AttrAccess) : Nat ×ₗ Nat := toLex (r.rank, a.line)

/-- The fields of a shared state agree with the accesses to its attribute, given as events in the
order of the walk. -/
structure TrackedState.Agrees (path : String) (concurrent : Bool) (accesses : List Event)
    (t : TrackedState) : Prop where
  shown : List.Forall₂ (Event.Shown path concurrent) accesses (t.state.points.zip t.protections)
  length_protections_eq : t.protections.length = t.state.points.length
  both_iff : t.state.accessType = .both ↔ (∃ p ∈ t.state.points, p.kind = .write) ∧
    ∃ p ∈ t.state.points, p.kind = .read ∨ p.kind = .write ∧ p.readModifyWrite = true
  write_iff : t.state.accessType = .write ↔ (∃ p ∈ t.state.points, p.kind = .write) ∧
    ¬ ∃ p ∈ t.state.points, p.kind = .read ∨ p.kind = .write ∧ p.readModifyWrite = true
  read_iff : t.state.accessType = .read ↔ ¬ ∃ p ∈ t.state.points, p.kind = .write
  isProtected_iff : t.state.isProtected = true ↔ ∀ w ∈ t.writes, w.2.isSome
  /-- The lock is that of the first write with a lock held. -/
  lockName_eq_some_iff : ∀ lock, t.state.lockName = some lock ↔ ∃ before p after,
    t.writes = before ++ (p, some (.lockHeld lock)) :: after ∧
      ∀ w ∈ before, ∀ lock', w.2 ≠ some (.lockHeld lock')
  lockName_eq_none_iff : t.state.lockName = none ↔
    ∀ w ∈ t.writes, ∀ lock, w.2 ≠ some (.lockHeld lock)
  lockHeld_iff : ∀ x ∈ t.state.points.zip t.protections,
    x.1.lockHeld = true ↔ ∃ lock, x.2 = some (.lockHeld lock)
  /-- The line is that of a write that comes first as a declaration. -/
  line_of_write : (∃ p ∈ t.state.points, p.kind = .write) →
    ∃ r held a, .access r held a ∈ accesses ∧ a.kind = .write ∧ t.state.line = a.line ∧
      ∀ r' held' a', .access r' held' a' ∈ accesses → a'.kind = .write →
        declarationKey r a ≤ declarationKey r' a'
  /-- Without a write, the line is the smallest. -/
  line_of_read : (¬ ∃ p ∈ t.state.points, p.kind = .write) →
    ∃ p ∈ t.state.points, t.state.line = p.line ∧ ∀ q ∈ t.state.points, p.line ≤ q.line

/-! ## The line of the declaration -/

theorem leastPair?_eq_none_iff {ps : List (Nat × Nat)} : leastPair? ps = none ↔ ps = [] := by
  cases ps with
  | nil => simp [leastPair?]
  | cons p rest =>
    rw [leastPair?]
    cases leastPair? rest <;> simp

/-- The least pair of a list is one of its pairs and below all of them. -/
theorem mem_and_le_of_leastPair? {ps : List (Nat × Nat)} {p : Nat × Nat}
    (h : leastPair? ps = some p) : p ∈ ps ∧ ∀ q ∈ ps, toLex p ≤ toLex q := by
  induction ps generalizing p with
  | nil => simp [leastPair?] at h
  | cons first rest ih =>
    rw [leastPair?] at h
    cases hrest : leastPair? rest with
    | none =>
      rw [hrest] at h
      obtain rfl := leastPair?_eq_none_iff.1 hrest
      obtain rfl := Option.some.inj h
      simp
    | some q =>
      obtain ⟨hmem, hle⟩ := ih hrest
      rw [hrest] at h
      obtain rfl := Option.some.inj h
      -- the later pair wins only if it is smaller
      have hlt : (q.1 < first.1 ∨ q.1 = first.1 ∧ q.2 < first.2) ↔ toLex q < toLex first :=
        Prod.Lex.toLex_lt_toLex.symm
      by_cases hq : toLex q < toLex first
      · rw [if_pos (hlt.2 hq)]
        refine ⟨List.mem_cons_of_mem _ hmem, List.forall_mem_cons.2 ⟨hq.le, hle⟩⟩
      · rw [if_neg (mt hlt.1 hq)]
        refine ⟨List.mem_cons_self, List.forall_mem_cons.2 ⟨le_rfl, fun x hx => ?_⟩⟩
        exact (not_lt.1 hq).trans (hle x hx)

theorem exists_leastPair? {α : Type} {xs : List α} (key : α → Nat × Nat) (h : xs ≠ []) :
    ∃ x ∈ xs, leastPair? (xs.map key) = some (key x) ∧ ∀ y ∈ xs, toLex (key x) ≤ toLex (key y) := by
  have hsome : leastPair? (xs.map key) ≠ none := fun hnone =>
    h (List.map_eq_nil_iff.1 (leastPair?_eq_none_iff.1 hnone))
  obtain ⟨p, hp⟩ := Option.ne_none_iff_exists'.1 hsome
  obtain ⟨hmem, hle⟩ := mem_and_le_of_leastPair? hp
  obtain ⟨x, hx, rfl⟩ := List.mem_map.1 hmem
  exact ⟨x, hx, hp, fun y hy => hle _ (List.mem_map_of_mem hy)⟩

theorem RecordedAccess.declarationRank_eq (r : RecordedAccess) :
    r.declarationRank = r.routine.rank := by
  unfold declarationRank Routine.rank
  cases r.routine.kind <;> simp

section Line

variable {accesses : List RecordedAccess}

theorem declarationLine_of_write (h : ∃ r ∈ accesses, r.isWrite = true) :
    ∃ r ∈ accesses, r.isWrite = true ∧ declarationLine accesses = r.access.line ∧
      ∀ r' ∈ accesses, r'.isWrite = true →
        declarationKey r.routine r.access ≤ declarationKey r'.routine r'.access := by
  have hne : accesses.filter RecordedAccess.isWrite ≠ [] := by
    obtain ⟨r, hr, hwrite⟩ := h
    exact List.ne_nil_of_mem (List.mem_filter.2 ⟨hr, hwrite⟩)
  obtain ⟨r, hr, hleast, hle⟩ := exists_leastPair? (fun r => (r.declarationRank, r.access.line)) hne
  obtain ⟨hr, hwrite⟩ := List.mem_filter.1 hr
  refine ⟨r, hr, hwrite, by simp [declarationLine, hleast], fun r' hr' hwrite' => ?_⟩
  simpa only [declarationKey, RecordedAccess.declarationRank_eq] using
    hle r' (List.mem_filter.2 ⟨hr', hwrite'⟩)

theorem declarationLine_of_read (hne : accesses ≠ [])
    (h : ¬ ∃ r ∈ accesses, r.isWrite = true) :
    ∃ r ∈ accesses, declarationLine accesses = r.access.line ∧
      ∀ r' ∈ accesses, r.access.line ≤ r'.access.line := by
  have hwrites : accesses.filter RecordedAccess.isWrite = [] :=
    List.filter_eq_nil_iff.2 fun r hr hwrite => h ⟨r, hr, hwrite⟩
  obtain ⟨r, hr, hleast, hle⟩ := exists_leastPair? (fun r => (0, r.access.line)) hne
  refine ⟨r, hr, by simp [declarationLine, hwrites, leastPair?, hleast], fun r' hr' => ?_⟩
  simpa [Prod.Lex.toLex_le_toLex] using hle r' hr'

end Line

/-! ## The other fields -/

theorem Protection.classify_eq_lockHeld_iff {r : Routine} {lock : Option String} {a : AttrAccess}
    {concurrent : Bool} {name : String} :
    classify r lock a concurrent = some (.lockHeld name) ↔ lock = some name := by
  cases lock with
  | some l => simp [classify]
  | none => cases h : atomicIdiom? a <;> simp [classify, h]

namespace StateTable

theorem heldLock?_eq_some_iff {p : Option Protection} {lock : String} :
    heldLock? p = some lock ↔ p = some (.lockHeld lock) := by
  cases p with
  | none => simp [heldLock?]
  | some p => cases p <;> simp [heldLock?]

theorem heldLock?_eq_none_iff {p : Option Protection} :
    heldLock? p = none ↔ ∀ lock, p ≠ some (.lockHeld lock) := by
  simp only [Option.eq_none_iff_forall_ne_some, ne_eq, heldLock?_eq_some_iff]

section Track

variable {path : String} {concurrent : Bool} {entry : String × List RecordedAccess}

theorem exists_write_track :
    (∃ p ∈ (track path concurrent entry).state.points, p.kind = .write) ↔
      ∃ r ∈ entry.2, r.isWrite = true := by
  simp [track, RecordedAccess.point, RecordedAccess.isWrite]

/-- A read, or a write that reads the old value first. -/
theorem exists_read_track :
    (∃ p ∈ (track path concurrent entry).state.points,
      p.kind = .read ∨ p.kind = .write ∧ p.readModifyWrite = true) ↔
      ∃ r ∈ entry.2, (!r.isWrite || r.access.readModifyWrite) = true := by
  simp only [track, List.mem_map, exists_exists_and_eq_and, RecordedAccess.point,
    RecordedAccess.isWrite]
  refine exists_congr fun r => and_congr_right fun _ => ?_
  cases r.access.kind <;> simp

theorem accessType_track : (track path concurrent entry).state.accessType =
    if ∃ p ∈ (track path concurrent entry).state.points, p.kind = .write then
      if ∃ p ∈ (track path concurrent entry).state.points,
        p.kind = .read ∨ p.kind = .write ∧ p.readModifyWrite = true then .both else .write
    else .read := by
  simp only [exists_write_track, exists_read_track]
  simp [track, accessType]

theorem isProtected_track : (track path concurrent entry).state.isProtected = true ↔
    ∀ w ∈ (track path concurrent entry).writes, w.2.isSome := by
  rw [RaceAnalysis.writes_track, List.forall_mem_map]
  simp only [track, List.all_map, List.all_eq_true]
  rfl

theorem lockName_track : (track path concurrent entry).state.lockName =
    (track path concurrent entry).writes.findSome? fun w => heldLock? w.2 := by
  rw [RaceAnalysis.writes_track]
  simp only [track, List.findSome?_map]
  rfl

theorem lockHeld_track {x : AccessPoint × Option Protection}
    (hx : x ∈ (track path concurrent entry).state.points.zip
      (track path concurrent entry).protections) :
    x.1.lockHeld = true ↔ ∃ lock, x.2 = some (.lockHeld lock) := by
  simp only [track, List.zip_map'] at hx
  obtain ⟨r, -, rfl⟩ := List.mem_map.1 hx
  simp [RecordedAccess.point, RecordedAccess.protection, Protection.classify_eq_lockHeld_iff,
    Option.isSome_iff_exists]

end Track

/-! ## The states of a table -/

variable {events : List Event} {name : String}

theorem mem_accessesTo_iff {r : RecordedAccess} : r ∈ accessesTo events name ↔
    ∃ held, .access r.routine held r.access ∈ events.filter (fun e => e.stateName? = some name) ∧
      r.lock = held.innermost? := by
  constructor
  · intro h
    obtain ⟨held, c, he, hc, hname, hlock⟩ := exists_event h
    exact ⟨held, List.mem_filter.2 ⟨he, by simp [Event.stateName?, hc, hname]⟩, hlock⟩
  · rintro ⟨held, he, hlock⟩
    obtain ⟨he, hname⟩ := List.mem_filter.1 he
    obtain ⟨c, hc, hname⟩ := Option.map_eq_some_iff.1 (of_decide_eq_true hname)
    refine List.mem_map.2 ⟨(name, r), List.mem_filter.2 ⟨List.mem_filterMap.2 ⟨_, he, ?_⟩, ?_⟩, rfl⟩
    · simp [Event.recorded?, hc, hname, ← hlock]
    · simp

theorem accessesTo_ne_nil (h : name ∈ namesIn events) : accessesTo events name ≠ [] := by
  obtain ⟨x, hx, rfl⟩ := List.mem_map.1 (List.mem_eraseDups.1 h)
  exact List.ne_nil_of_mem (List.mem_map_of_mem (List.mem_filter.2 ⟨hx, by simp⟩))

/-- **The fields of a shared state agree with its accesses.** -/
theorem agrees_of_mem_states (events : List Event) (path : String) (concurrent : Bool) :
    ∀ t ∈ (ofEvents events).states path concurrent,
      t.Agrees path concurrent (events.filter fun e => e.stateName? = some t.state.name) := by
  intro t ht
  have hshown := forall₂_shown events path concurrent ht
  have hlength := length_protections events path concurrent ht
  rw [states_eq_map] at ht
  obtain ⟨name, hname, rfl⟩ := List.mem_map.1 ht
  refine ⟨hshown, hlength, ?_, ?_, ?_, isProtected_track, fun lock => ?_, ?_,
    fun x => lockHeld_track, fun hwrite => ?_, fun hread => ?_⟩
  · rw [accessType_track]
    split_ifs <;> simp_all
  · rw [accessType_track]
    split_ifs <;> simp_all
  · rw [accessType_track]
    split_ifs <;> simp_all
  · rw [lockName_track, List.findSome?_eq_some_iff]
    simp only [heldLock?_eq_some_iff, heldLock?_eq_none_iff]
    constructor
    · rintro ⟨before, ⟨p, _⟩, after, hwrites, rfl, hbefore⟩
      exact ⟨before, p, after, hwrites, hbefore⟩
    · rintro ⟨before, p, after, hwrites, hbefore⟩
      exact ⟨before, (p, _), after, hwrites, rfl, hbefore⟩
  · rw [lockName_track]
    simp [List.findSome?_eq_none_iff, heldLock?_eq_none_iff]
  · obtain ⟨r, hr, hwrite, hline, hle⟩ := declarationLine_of_write (exists_write_track.1 hwrite)
    obtain ⟨held, he, -⟩ := mem_accessesTo_iff.1 hr
    refine ⟨r.routine, held, r.access, he, of_decide_eq_true hwrite, hline, ?_⟩
    intro r' held' a' he' hwrite'
    exact hle ⟨r', held'.innermost?, a'⟩ (mem_accessesTo_iff.2 ⟨held', he', rfl⟩)
      (decide_eq_true hwrite')
  · obtain ⟨r, hr, hline, hle⟩ :=
      declarationLine_of_read (accessesTo_ne_nil hname) fun h => hread (exists_write_track.2 h)
    exact ⟨_, List.mem_map_of_mem hr, hline, List.forall_mem_map.2 hle⟩

/-- A level that one method raises with a lock held and another sets without, and that is declared
in the class body, behind its first accesses and behind `__init__`. -/
def levelEvents : List Event :=
  let method (name : String) : Routine := ⟨s!"Gauge.{name}", name, some "Gauge", .method⟩
  let write (line : Nat) (readModifyWrite : Bool) : AttrAccess :=
    ⟨"level", .write, line, readModifyWrite, "self", none, none⟩
  [.acquire (method "raise") [] "Gauge.lock" 3,
    .access (method "raise") [⟨"Gauge.lock", true⟩] (write 4 true),
    .access (method "__init__") [] (write 7 false), .access (method "reset") [] (write 9 false),
    .access ⟨"Gauge", "Gauge", some "Gauge", .classBody⟩ [] (write 12 false)]

theorem agrees_of_mem_states_level :
    ∃ t ∈ (ofEvents levelEvents).states "gauge.py" true,
      t.state.accessType = .both ∧ t.state.isProtected = false ∧
      t.state.lockName = some "Gauge.lock" ∧ t.state.line = 12 ∧
      t.Agrees "gauge.py" true (levelEvents.filter fun e => e.stateName? = some t.state.name) :=
  ⟨_, List.mem_cons_self, rfl, rfl, rfl, rfl,
    agrees_of_mem_states levelEvents "gauge.py" true _ List.mem_cons_self⟩

end StateTable

end Interlock
