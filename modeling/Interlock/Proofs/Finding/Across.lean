import Interlock.Finding.Run
import Mathlib.Data.List.Perm.Basic

/-!
# Runs over many units

An analyser takes its units one after another and hands something on from each to the next. What
comes of it can be read off the units that are accepted and those that are refused (`accepted`,
`refused`) if each step looks at its unit first and, where it refuses it, hands on what it got
(`Run.ChecksFirst`, `Run.ChecksFirst.across_eq`).
-/

namespace Interlock

open Syntax

/-! ## Accepted and refused units -/

/-- The units that can be analysed, in order. -/
def accepted (units : List SourceUnit) : List SourceUnit :=
  units.filter fun u => u.check.isOk

/-- Why the other units cannot be analysed, in order. -/
def refused (units : List SourceUnit) : List Refusal :=
  units.filterMap fun u =>
    match u.check with
    | .ok _ => none
    | .error r => some r

section

variable {u : SourceUnit} {units units' : List SourceUnit} {refusal : Refusal}

theorem accepted_cons_of_ok (h : u.check = .ok ()) :
    accepted (u :: units) = u :: accepted units :=
  List.filter_cons_of_pos (by rw [h]; rfl)

theorem accepted_cons_of_error (h : u.check = .error refusal) :
    accepted (u :: units) = accepted units :=
  List.filter_cons_of_neg (by simp [h, Except.isOk, Except.toBool])

theorem refused_cons_of_ok (h : u.check = .ok ()) : refused (u :: units) = refused units :=
  List.filterMap_cons_none (by rw [h])

theorem refused_cons_of_error (h : u.check = .error refusal) :
    refused (u :: units) = refusal :: refused units :=
  List.filterMap_cons_some (by rw [h])

theorem mem_accepted : u ∈ accepted units ↔ u ∈ units ∧ u.check = .ok () := by
  rw [accepted, List.mem_filter]
  cases u.check <;> simp [Except.isOk, Except.toBool]

/-- What the accepted units show together, one of them shows. -/
theorem exists_mem_flatMap_accepted {α : Type} {f : SourceUnit → List α} {Q : α → Prop} :
    (∃ a ∈ (accepted units).flatMap f, Q a) ↔
      ∃ u ∈ units, u.check = .ok () ∧ ∃ a ∈ f u, Q a := by
  simp only [List.mem_flatMap, mem_accepted]
  constructor
  · rintro ⟨a, ⟨u, ⟨hu, hok⟩, ha⟩, hQ⟩
    exact ⟨u, hu, hok, a, ha, hQ⟩
  · rintro ⟨u, hu, hok, a, ha, hQ⟩
    exact ⟨a, ⟨u, ⟨hu, hok⟩, ha⟩, hQ⟩

theorem accepted_perm (h : units.Perm units') : (accepted units).Perm (accepted units') :=
  h.filter _

theorem refused_perm (h : units.Perm units') : (refused units).Perm (refused units') :=
  h.filterMap _

end

/-! ## One unit after another -/

namespace Run

variable {α σ : Type} {step : σ → SourceUnit → Except Refusal (List α) × σ}
  {found : SourceUnit → List α} {next : σ → SourceUnit → σ}

/-- A step refuses a unit if the unit is refused, and hands on what it got; in any other unit it
finds something, and hands on something, whatever the units before it were. -/
structure ChecksFirst (step : σ → SourceUnit → Except Refusal (List α) × σ)
    (found : SourceUnit → List α) (next : σ → SourceUnit → σ) : Prop where
  of_ok : ∀ state u, u.check = .ok () → step state u = (.ok (found u), next state u)
  of_error : ∀ state u refusal, u.check = .error refusal → step state u = (.error refusal, state)

/-- One visit to a unit that is accepted. -/
theorem ChecksFirst.visit_of_ok (h : ChecksFirst step found next) (before : Run α × σ)
    {u : SourceUnit} (hu : u.check = .ok ()) : visit step before u =
      ({ before.1 with
          findings := before.1.findings ++ found u, analyzed := before.1.analyzed + 1 },
        next before.2 u) := by
  rw [visit, h.of_ok _ _ hu]
  rfl

/-- One visit to a unit that is refused. -/
theorem ChecksFirst.visit_of_error (h : ChecksFirst step found next) (before : Run α × σ)
    {u : SourceUnit} {refusal : Refusal} (hu : u.check = .error refusal) : visit step before u =
      ({ before.1 with
          diagnostics := before.1.diagnostics ++ [.ofRefusal refusal]
          skipped := before.1.skipped + 1 },
        before.2) := by
  rw [visit, h.of_error _ _ _ hu]
  rfl

theorem ChecksFirst.foldl_visit (h : ChecksFirst step found next) (before : Run α × σ)
    (units : List SourceUnit) : units.foldl (visit step) before =
      (⟨before.1.findings ++ (accepted units).flatMap found,
        before.1.diagnostics ++ (refused units).map .ofRefusal,
        before.1.analyzed + (accepted units).length,
        before.1.skipped + (refused units).length⟩,
        (accepted units).foldl next before.2) := by
  induction units generalizing before with
  | nil =>
    show before = (⟨before.1.findings ++ [], before.1.diagnostics ++ [], before.1.analyzed,
      before.1.skipped⟩, before.2)
    rw [List.append_nil, List.append_nil]
  | cons u rest ih =>
    rw [List.foldl_cons, ih]
    cases hu : u.check with
    | ok =>
      rw [h.visit_of_ok before hu, accepted_cons_of_ok hu, refused_cons_of_ok hu,
        List.flatMap_cons, List.foldl_cons, List.length_cons, List.append_assoc, Nat.add_assoc,
        Nat.add_comm 1]
    | error refusal =>
      rw [h.visit_of_error before hu, accepted_cons_of_error hu, refused_cons_of_error hu,
        List.map_cons, List.length_cons, List.append_assoc, List.singleton_append, Nat.add_assoc,
        Nat.add_comm 1]

/-- **A run whose steps look first finds what the accepted units hold**, one after another, and has
a diagnostic for each of the others. -/
theorem ChecksFirst.across_eq (h : ChecksFirst step found next) (start : σ)
    (units : List SourceUnit) :
    across step start units =
      (⟨(accepted units).flatMap found, (refused units).map .ofRefusal, (accepted units).length,
        (refused units).length⟩, (accepted units).foldl next start) := by
  rw [across, h.foldl_visit]
  simp only [empty, List.nil_append, Nat.zero_add]

end Run

end Interlock
