import Interlock.Proofs.Data.Record
import Interlock.Report.Decode
import Interlock.Report.Render

/-!
# Reports read back

A report in JSON is read as the report it was written from. The one condition is that its numbers
have the width that is read: lines 32 bits, counts 64 (`RaceReport.InRange`,
`DeadlockReport.InRange`). The condition is exact, since whatever has been read satisfies it.
-/

namespace Interlock

open Data

/-! ## Names -/

theorem Severity.ofName?_name (s : Severity) : ofName? s.name = some s := by
  cases s <;> simp [ofName?, all, name]

theorem AccessType.ofName?_name (t : AccessType) : ofName? t.name = some t := by
  cases t <;> simp [ofName?, all, name]

theorem AccessKind.ofName?_name (k : AccessKind) : ofName? k.name = some k := by
  cases k <;> simp [ofName?, all, name]

theorem DiagnosticKind.ofName?_name (k : DiagnosticKind) : ofName? k.name = some k := by
  cases k <;> simp [ofName?, all, name]

/-! ## Numbers of the width that is read -/

structure AccessPoint.InRange (p : AccessPoint) : Prop where
  line : p.line < Nat.pow 2 32

structure SharedState.InRange (s : SharedState) : Prop where
  line : s.line < Nat.pow 2 32
  points : ∀ p ∈ s.points, p.InRange

structure Race.InRange (r : Race) : Prop where
  state : r.state.InRange
  points : ∀ p ∈ r.points, p.InRange

structure AcquisitionSite.InRange (s : AcquisitionSite) : Prop where
  line : s.line < Nat.pow 2 32

structure Deadlock.InRange (d : Deadlock) : Prop where
  sites : ∀ s ∈ d.sites, s.InRange

structure Diagnostic.InRange (d : Diagnostic) : Prop where
  line : ∀ n ∈ d.line, n < Nat.pow 2 32

structure Summary.InRange (s : Summary) : Prop where
  critical : s.critical < Nat.pow 2 64
  high : s.high < Nat.pow 2 64
  medium : s.medium < Nat.pow 2 64
  low : s.low < Nat.pow 2 64
  total : s.total < Nat.pow 2 64

structure RaceReport.InRange (r : RaceReport) : Prop where
  races : ∀ f ∈ r.races, f.InRange
  summary : r.summary.InRange
  diagnostics : ∀ d ∈ r.diagnostics, d.InRange
  filesAnalyzed : r.filesAnalyzed < Nat.pow 2 64
  sharedStates : r.sharedStates < Nat.pow 2 64

structure DeadlockReport.InRange (r : DeadlockReport) : Prop where
  deadlocks : ∀ d ∈ r.deadlocks, d.InRange
  diagnostics : ∀ d ∈ r.diagnostics, d.InRange
  filesAnalyzed : r.filesAnalyzed < Nat.pow 2 64
  locks : r.locks < Nat.pow 2 64
  lockPairs : r.lockPairs < Nat.pow 2 64

/-! ## Parts of reports -/

/-- An access point is read from the table that is written for it. -/
theorem AccessPoint.InRange.standsFor {p : AccessPoint} (h : p.InRange) :
    StandsFor ofValue? p.toValue p := by
  have hline := StandsFor.line h.line
  constructor
  · refine .table _ ?_
    cases p.receiver <;> simp [Json.Plain.text, Json.Plain.bool, hline.plain]
  · obtain ⟨kind, path, line, lockHeld, routine, readModifyWrite, receiver, protection⟩ := p
    have hread : Value.line? (.ofNat line) = some line := hline.read_eq
    cases receiver <;> simp [ofValue?, toValue, AccessKind.ofName?_name, hread]

/-- So is a shared state, with its access points. -/
theorem SharedState.InRange.standsFor {s : SharedState} (h : s.InRange) :
    StandsFor ofValue? s.toValue s := by
  have hline := StandsFor.line h.line
  have hpoints := StandsFor.list fun p hp => (h.points p hp).standsFor
  constructor
  · refine .table _ ?_
    simp [Json.Plain.text, Json.Plain.bool, hline.plain, hpoints.plain]
  · simp [ofValue?, toValue, AccessType.ofName?_name, hline.read_eq, hpoints.read_eq]

theorem Race.InRange.standsFor {r : Race} (h : r.InRange) : StandsFor ofValue? r.toValue r := by
  have hstate := h.state.standsFor
  have hpoints := StandsFor.list fun p hp => (h.points p hp).standsFor
  constructor
  · refine .table _ ?_
    simp [Json.Plain.text, hstate.plain, hpoints.plain]
  · simp [ofValue?, toValue, Severity.ofName?_name, hstate.read_eq, hpoints.read_eq]

theorem AcquisitionSite.InRange.standsFor {s : AcquisitionSite} (h : s.InRange) :
    StandsFor ofValue? s.toValue s := by
  have hline := StandsFor.line h.line
  constructor
  · refine .table _ ?_
    simp [Json.Plain.text, hline.plain]
  · simp [ofValue?, toValue, hline.read_eq]

/-- A deadlock is read with its sites, which alone have numbers in them. -/
theorem Deadlock.InRange.standsFor {d : Deadlock} (h : d.InRange) :
    StandsFor ofValue? d.toValue d := by
  have hlocks := StandsFor.list fun s (_ : s ∈ d.locks) => StandsFor.text s
  have hsites := StandsFor.list fun s hs => (h.sites s hs).standsFor
  constructor
  · refine .table _ ?_
    simp [Json.Plain.text, hlocks.plain, hsites.plain]
  · simp [ofValue?, toValue, Severity.ofName?_name, hlocks.read_eq, hsites.read_eq]

/-- A diagnostic is read also if it has no line. -/
theorem Diagnostic.InRange.standsFor {d : Diagnostic} (h : d.InRange) :
    StandsFor ofValue? d.toValue d := by
  constructor
  · refine .table _ ?_
    simp [Json.Plain.text, Json.plain_ofNat? h.line]
  · simp [ofValue?, toValue, DiagnosticKind.ofName?_name, Slot.optional_ofNat? h.line]

theorem Summary.InRange.standsFor {s : Summary} (h : s.InRange) :
    StandsFor ofValue? s.toValue s := by
  have hcritical := StandsFor.word h.critical
  have hhigh := StandsFor.word h.high
  have hmedium := StandsFor.word h.medium
  have hlow := StandsFor.word h.low
  have htotal := StandsFor.word h.total
  constructor
  · refine .table _ ?_
    simp [hcritical.plain, hhigh.plain, hmedium.plain, hlow.plain, htotal.plain]
  · simp [ofValue?, toValue, hcritical.read_eq, hhigh.read_eq, hmedium.read_eq, hlow.read_eq,
      htotal.read_eq]

/-- **A race report is read from the table that is written for it**, part by part. -/
theorem RaceReport.InRange.standsFor {r : RaceReport} (h : r.InRange) :
    StandsFor ofValue? r.toValue r := by
  have hraces := StandsFor.list fun f hf => (h.races f hf).standsFor
  have hsummary := h.summary.standsFor
  have hdiagnostics := StandsFor.list fun d hd => (h.diagnostics d hd).standsFor
  have hfiles := StandsFor.word h.filesAnalyzed
  have hstates := StandsFor.word h.sharedStates
  constructor
  · refine .table _ ?_
    simp [hraces.plain, hsummary.plain, hdiagnostics.plain, hfiles.plain, hstates.plain]
  · simp [ofValue?, toValue, hraces.read_eq, hsummary.read_eq, hdiagnostics.read_eq,
      hfiles.read_eq, hstates.read_eq]

/-- **So is a deadlock report.** -/
theorem DeadlockReport.InRange.standsFor {r : DeadlockReport} (h : r.InRange) :
    StandsFor ofValue? r.toValue r := by
  have hdeadlocks := StandsFor.list fun d hd => (h.deadlocks d hd).standsFor
  have hdiagnostics := StandsFor.list fun d hd => (h.diagnostics d hd).standsFor
  have hfiles := StandsFor.word h.filesAnalyzed
  have hlocks := StandsFor.word h.locks
  have hpairs := StandsFor.word h.lockPairs
  constructor
  · refine .table _ ?_
    simp [hdeadlocks.plain, hdiagnostics.plain, hfiles.plain, hlocks.plain, hpairs.plain]
  · simp [ofValue?, toValue, hdeadlocks.read_eq, hdiagnostics.read_eq, hfiles.read_eq,
      hlocks.read_eq, hpairs.read_eq]

/-! ## What has been read is in range -/

/-- A line that has been read has 32 bits. -/
theorem AccessPoint.inRange_of_ofValue? (v : Value) (p : AccessPoint) (h : ofValue? v = some p) :
    p.InRange := by
  simp only [ofValue?, bind, Option.bind_eq_some_iff] at h
  obtain ⟨slots, -, h⟩ := h
  split at h
  · simp only [pure, Option.bind_eq_some_iff, Option.some.injEq] at h
    obtain ⟨_, -, _, -, line, hline, _, -, _, -, _, -, _, -, _, -, rfl⟩ := h
    exact ⟨Slot.lt_of_required hline⟩
  · simp at h

theorem SharedState.inRange_of_ofValue? (v : Value) (s : SharedState) (h : ofValue? v = some s) :
    s.InRange := by
  simp only [ofValue?, bind, Option.bind_eq_some_iff] at h
  obtain ⟨slots, -, h⟩ := h
  split at h
  · simp only [pure, Option.bind_eq_some_iff, Option.some.injEq] at h
    obtain ⟨_, -, _, -, line, hline, _, -, _, -, _, -, points, hpoints, rfl⟩ := h
    exact ⟨Slot.lt_of_required hline,
      Slot.forall_of_required_list AccessPoint.inRange_of_ofValue? hpoints⟩
  · simp at h

/-- A race that has been read is in range, since its state and its access points have been read. -/
theorem Race.inRange_of_ofValue? (v : Value) (r : Race) (h : ofValue? v = some r) : r.InRange := by
  simp only [ofValue?, bind, Option.bind_eq_some_iff] at h
  obtain ⟨slots, -, h⟩ := h
  split at h
  · simp only [pure, Option.bind_eq_some_iff, Option.some.injEq] at h
    obtain ⟨_, -, state, hstate, _, -, _, -, _, -, points, hpoints, rfl⟩ := h
    obtain ⟨w, hw⟩ := Slot.exists_of_required hstate
    exact ⟨SharedState.inRange_of_ofValue? w state hw,
      Slot.forall_of_required_list AccessPoint.inRange_of_ofValue? hpoints⟩
  · simp at h

theorem AcquisitionSite.inRange_of_ofValue? (v : Value) (s : AcquisitionSite)
    (h : ofValue? v = some s) : s.InRange := by
  simp only [ofValue?, bind, Option.bind_eq_some_iff] at h
  obtain ⟨slots, -, h⟩ := h
  split at h
  · simp only [pure, Option.bind_eq_some_iff, Option.some.injEq] at h
    obtain ⟨_, -, _, -, _, -, line, hline, _, -, rfl⟩ := h
    exact ⟨Slot.lt_of_required hline⟩
  · simp at h

theorem Deadlock.inRange_of_ofValue? (v : Value) (d : Deadlock) (h : ofValue? v = some d) :
    d.InRange := by
  simp only [ofValue?, bind, Option.bind_eq_some_iff] at h
  obtain ⟨slots, -, h⟩ := h
  split at h
  · simp only [pure, Option.bind_eq_some_iff, Option.some.injEq] at h
    obtain ⟨_, -, _, -, _, -, _, -, _, -, sites, hsites, rfl⟩ := h
    exact ⟨Slot.forall_of_required_list AcquisitionSite.inRange_of_ofValue? hsites⟩
  · simp at h

theorem Diagnostic.inRange_of_ofValue? (v : Value) (d : Diagnostic) (h : ofValue? v = some d) :
    d.InRange := by
  simp only [ofValue?, bind, Option.bind_eq_some_iff] at h
  obtain ⟨slots, -, h⟩ := h
  split at h
  · simp only [pure, Option.bind_eq_some_iff, Option.some.injEq] at h
    obtain ⟨_, -, line, hline, _, -, _, -, rfl⟩ := h
    exact ⟨Slot.lt_of_optional hline⟩
  · simp at h

theorem Summary.inRange_of_ofValue? (v : Value) (s : Summary) (h : ofValue? v = some s) :
    s.InRange := by
  simp only [ofValue?, bind, Option.bind_eq_some_iff] at h
  obtain ⟨slots, -, h⟩ := h
  split at h
  · simp only [pure, Option.bind_eq_some_iff, Option.some.injEq] at h
    obtain ⟨critical, hcritical, high, hhigh, medium, hmedium, low, hlow, total, htotal, rfl⟩ := h
    exact ⟨Slot.lt_of_required hcritical, Slot.lt_of_required hhigh, Slot.lt_of_required hmedium,
      Slot.lt_of_required hlow, Slot.lt_of_required htotal⟩
  · simp at h

/-- Whatever value a race report has been read from, its numbers are in range. -/
theorem RaceReport.inRange_of_ofValue? (v : Value) (r : RaceReport) (h : ofValue? v = some r) :
    r.InRange := by
  simp only [ofValue?, bind, Option.bind_eq_some_iff] at h
  obtain ⟨slots, -, h⟩ := h
  split at h
  · simp only [pure, Option.bind_eq_some_iff, Option.some.injEq] at h
    obtain ⟨races, hraces, summary, hsummary, diagnostics, hdiagnostics, files, hfiles, states,
      hstates, rfl⟩ := h
    obtain ⟨w, hw⟩ := Slot.exists_of_required hsummary
    exact ⟨Slot.forall_of_required_list Race.inRange_of_ofValue? hraces,
      Summary.inRange_of_ofValue? w summary hw,
      Slot.forall_of_required_list Diagnostic.inRange_of_ofValue? hdiagnostics,
      Slot.lt_of_required hfiles, Slot.lt_of_required hstates⟩
  · simp at h

theorem DeadlockReport.inRange_of_ofValue? (v : Value) (r : DeadlockReport)
    (h : ofValue? v = some r) : r.InRange := by
  simp only [ofValue?, bind, Option.bind_eq_some_iff] at h
  obtain ⟨slots, -, h⟩ := h
  split at h
  · simp only [pure, Option.bind_eq_some_iff, Option.some.injEq] at h
    obtain ⟨deadlocks, hdeadlocks, diagnostics, hdiagnostics, files, hfiles, locks, hlocks, pairs,
      hpairs, rfl⟩ := h
    exact ⟨Slot.forall_of_required_list Deadlock.inRange_of_ofValue? hdeadlocks,
      Slot.forall_of_required_list Diagnostic.inRange_of_ofValue? hdiagnostics,
      Slot.lt_of_required hfiles, Slot.lt_of_required hlocks, Slot.lt_of_required hpairs⟩
  · simp at h

/-! ## Whole reports -/

/-- The race report that a text holds. -/
def RaceReport.ofJson? (text : String) : Option RaceReport :=
  (Json.read? text).bind RaceReport.ofValue?

/-- The deadlock report that a text holds. -/
def DeadlockReport.ofJson? (text : String) : Option DeadlockReport :=
  (Json.read? text).bind DeadlockReport.ofValue?

/-- Reading undoes writing wherever the numbers fit, and nowhere else. -/
structure ReadsBack {α : Type} (inRange : α → Prop) (write : α → String)
    (read : String → Option α) : Prop where
  read_write_iff : ∀ a, read (write a) = some a ↔ inRange a
  /-- What is read back has the same text again. -/
  write_eq_of_read : ∀ a b, inRange a → read (write a) = some b → write b = write a
  /-- A report read from whatever text is read back from its own. -/
  read_write_of_read : ∀ text a, read text = some a → read (write a) = some a

/-- If values are read as what they stand for exactly where the numbers are in range, so are their
texts, since a text is read as the value that it was written from. -/
theorem ReadsBack.of_standsFor {α : Type} {inRange : α → Prop} {toValue : α → Value}
    {ofValue? : Value → Option α} (hstands : ∀ a, inRange a → StandsFor ofValue? (toValue a) a)
    (hrange : ∀ v a, ofValue? v = some a → inRange a) :
    ReadsBack inRange (fun a => Json.pretty (toValue a))
      (fun text => (Json.read? text).bind ofValue?) := by
  have hread : ∀ a, inRange a → (Json.read? (Json.pretty (toValue a))).bind ofValue? = some a :=
    fun a ha => (hstands a ha).read?_pretty
  have hrangeText : ∀ text a, (Json.read? text).bind ofValue? = some a → inRange a := by
    intro text a h
    obtain ⟨v, -, hv⟩ := Option.bind_eq_some_iff.mp h
    exact hrange v a hv
  refine ⟨fun a => ⟨hrangeText _ a, hread a⟩, ?_, fun text a h => hread a (hrangeText text a h)⟩
  intro a b ha hb
  have heq : some a = some b := (hread a ha).symm.trans hb
  rw [Option.some.inj heq]

/-- Reports in JSON are read as the reports they were written from, with every part and every
character, and are then written as before. -/
theorem readsBack_json :
    ReadsBack RaceReport.InRange (RaceReport.render · .json) RaceReport.ofJson? ∧
      ReadsBack DeadlockReport.InRange (DeadlockReport.render · .json) DeadlockReport.ofJson? :=
  ⟨.of_standsFor (fun _ h => h.standsFor) RaceReport.inRange_of_ofValue?,
    .of_standsFor (fun _ h => h.standsFor) DeadlockReport.inRange_of_ofValue?⟩

/-- A report with control characters, quotes and a character beyond sixteen bits in its texts, with
parts that are absent, an empty list and the greatest count. -/
def roughReport (line : Nat) : RaceReport where
  races :=
    [{ id := "\x00\x1f", severity := .high, description := "\"😀\\", suggestion := ""
       state := ⟨"Tally.ü", "a\n\t.py", line, .both, false, none, []⟩
       points := [⟨.write, "", line, false, "run", true, none, none⟩,
         ⟨.read, "\x7f", 0, true, "run", false, some "self", some "lock"⟩] }]
  summary := ⟨0, 1, 0, 0, 1⟩
  diagnostics := [⟨"c.py", none, .parseError, "\r"⟩, ⟨"d.py", some line, .readError, ""⟩]
  filesAnalyzed := Nat.pow 2 64 - 1
  sharedStates := 0

/-- The line is the only number of the report that may be too great. -/
theorem inRange_roughReport_iff (line : Nat) :
    (roughReport line).InRange ↔ line < Nat.pow 2 32 := by
  constructor
  · intro h
    exact (h.races _ List.mem_cons_self).state.line
  · intro h
    have hraces : ∀ r ∈ (roughReport line).races, r.InRange := by
      simp only [roughReport, List.forall_mem_singleton]
      refine ⟨⟨h, by simp⟩, ?_⟩
      simp only [List.forall_mem_cons]
      exact ⟨⟨h⟩, ⟨by decide⟩, by simp⟩
    have hdiagnostics : ∀ d ∈ (roughReport line).diagnostics, d.InRange := by
      simp only [roughReport, List.forall_mem_cons]
      exact ⟨⟨by simp⟩, ⟨by simpa using h⟩, by simp⟩
    have hzero : 0 < Nat.pow 2 64 := by decide
    have hone : 1 < Nat.pow 2 64 := by decide
    have hmax : Nat.pow 2 64 - 1 < Nat.pow 2 64 := by decide
    exact ⟨hraces, ⟨hzero, hone, hzero, hzero, hone⟩, hdiagnostics, hmax, hzero⟩

/-- The greatest line of 32 bits is read back, and the next one is not. -/
theorem readsBack_json_rough :
    RaceReport.ofJson? ((roughReport 4294967295).render .json) = some (roughReport 4294967295) ∧
      RaceReport.ofJson? ((roughReport 4294967296).render .json) ≠
        some (roughReport 4294967296) := by
  have hiff := fun line => (readsBack_json.1.read_write_iff (roughReport line)).trans
    (inRange_roughReport_iff line)
  exact ⟨(hiff _).mpr (by decide), fun h => absurd ((hiff _).mp h) (by decide)⟩

end Interlock
