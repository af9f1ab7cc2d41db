import Interlock.Lock.Held
import Mathlib.Data.List.Basic

/-!
# Held locks at branches

What taking, giving back and joining do to a list of holds. A join adds no hold that no path has
(`HeldLocks.mem_of_mem_merge`) and keeps those that all paths keep (`HeldLocks.mem_merge`), in both
modes.

The lexical holds (`HeldLocks.lexicals`) are a stack: an explicit release does not touch them, a
`with` statement leaves them as they were (`HeldLocks.lexicals_release_lexical`), and so does a
join of paths that leave them as they were (`HeldLocks.lexicals_merge`).

How often a lock is held is its `HeldLocks.depth`. The join of what may be held forgets repeated
holds: it keeps the depth before the branches, or a single hold that one of them adds
(`HeldLocks.le_depth_merge`). The join of what must be held keeps a lock only if every path ends
with it, but as often as the first path does (`HeldLocks.depth_merge_must_le`,
`HeldLocks.depth_pos_of_merge_must`).
-/

namespace Interlock.Lock.HeldLocks

variable {held before fin : HeldLocks} {ends : List HeldLocks} {mode : HoldMode} {l : Held}
  {lock name : String} {lexical : Bool}

theorem mem_names : name ∈ held.names ↔ ∃ l ∈ held, l.name = name := by
  simp [names]

theorem holds_iff : held.holds name = true ↔ ∃ l ∈ held, l.name = name := by
  simp [holds]

theorem mem_push : l ∈ held.push lock lexical ↔ l ∈ held ∨ l = ⟨lock, lexical⟩ := by
  simp [push]

/-! ## Giving back -/

theorem mem_of_mem_release (h : l ∈ held.release lock lexical) : l ∈ held :=
  List.mem_reverse.1 (List.mem_of_mem_erase (List.mem_reverse.1 h))

theorem mem_release_of_ne (hne : l ≠ ⟨lock, lexical⟩) (h : l ∈ held) :
    l ∈ held.release lock lexical :=
  List.mem_reverse.2 ((List.mem_erase_of_ne hne).2 (List.mem_reverse.2 h))

theorem release_of_not_mem (h : ⟨lock, lexical⟩ ∉ held) : held.release lock lexical = held := by
  rw [release, List.erase_of_not_mem (by simpa using h), List.reverse_reverse]

/-- Only the latest hold goes. -/
theorem exists_release_eq (h : ⟨lock, lexical⟩ ∈ held) : ∃ older newer : HeldLocks,
    held = older ++ ⟨lock, lexical⟩ :: newer ∧ ⟨lock, lexical⟩ ∉ newer ∧
      held.release lock lexical = older ++ newer := by
  obtain ⟨newer, older, heq, hnew⟩ := List.eq_append_cons_of_mem (List.mem_reverse.2 h)
  refine ⟨older.reverse, newer.reverse, ?_, by simpa using hnew, ?_⟩
  · rw [← List.reverse_reverse held, heq]
    simp
  · simp [release, heq, List.erase_append_right _ hnew]

/-! ## Joining -/

/-- The end of a path that may be unknown has what all ends and the start have. -/
theorem forall_getD {P : HeldLocks → Prop} (hbefore : P before) (hends : ∀ fin ∈ ends, P fin)
    (i : Nat) : P (ends.getD i before) := by
  rw [List.getD_eq_getElem?_getD]
  cases hi : ends[i]? with
  | none => exact hbefore
  | some fin => exact hends fin (List.mem_of_getElem? hi)

theorem mem_of_mem_absorb (h : l ∈ absorb held fin) : l ∈ held ∨ l ∈ fin := by
  induction fin generalizing held with
  | nil => exact .inl h
  | cons x rest ih =>
    rw [absorb, List.foldl_cons] at h
    rcases ih h with h | h
    · split at h
      · rcases List.mem_append.1 h with h | h
        · exact .inl h
        · exact .inr (List.mem_singleton.1 h ▸ List.mem_cons_self)
      · exact .inl h
    · exact .inr (List.mem_cons_of_mem _ h)

/-- **A join adds no hold of its own.** -/
theorem mem_of_mem_merge (h : l ∈ merge mode before ends) : l ∈ before ∨ ∃ fin ∈ ends, l ∈ fin := by
  cases mode with
  | must =>
    cases ends with
    | nil => exact .inl h
    | cons first rest => exact .inr ⟨first, List.mem_cons_self, List.mem_of_mem_filter h⟩
  | may =>
    simp only [merge] at h
    induction ends generalizing before with
    | nil => exact .inl h
    | cons first rest ih =>
      rcases ih h with h | ⟨fin, hfin, h⟩
      · exact (mem_of_mem_absorb h).imp id fun h => ⟨first, List.mem_cons_self, h⟩
      · exact .inr ⟨fin, List.mem_cons_of_mem _ hfin, h⟩

theorem mem_absorb (h : l ∈ held) : l ∈ absorb held fin := by
  induction fin generalizing held with
  | nil => exact h
  | cons x rest ih =>
    rw [absorb, List.foldl_cons]
    refine ih ?_
    split
    · exact List.mem_append_left _ h
    · exact h

theorem mem_merge_may (h : l ∈ before) : l ∈ merge .may before ends := by
  simp only [merge]
  induction ends generalizing before with
  | nil => exact h
  | cons first rest ih => exact ih (mem_absorb h)

/-- **A join keeps every hold that all paths keep.** -/
theorem mem_merge (h : l ∈ before) (hends : ∀ fin ∈ ends, l ∈ fin) :
    l ∈ merge mode before ends := by
  cases mode with
  | must =>
    cases ends with
    | nil => exact h
    | cons first rest =>
      refine List.mem_filter.2 ⟨hends first List.mem_cons_self, ?_⟩
      simp only [List.all_eq_true]
      exact fun fin hfin => holds_iff.2 ⟨l, hends fin (List.mem_cons_of_mem _ hfin), rfl⟩
  | may => exact mem_merge_may h

/-! ## Lexical holds -/

/-- The holds that a `with` statement or a decorator took. -/
def lexicals (held : HeldLocks) : HeldLocks := List.filter Held.lexical held

theorem mem_lexicals : l ∈ held.lexicals ↔ l ∈ held ∧ l.lexical = true := List.mem_filter

@[simp] theorem lexicals_nil : lexicals [] = [] := rfl

@[simp] theorem lexicals_append (a b : HeldLocks) : lexicals (a ++ b) = a.lexicals ++ b.lexicals :=
  List.filter_append _ _

@[simp] theorem lexicals_cons_open (a : HeldLocks) :
    lexicals (⟨lock, false⟩ :: a) = a.lexicals := by
  simp [lexicals]

@[simp] theorem lexicals_cons_lexical (a : HeldLocks) :
    lexicals (⟨lock, true⟩ :: a) = ⟨lock, true⟩ :: a.lexicals := by
  simp [lexicals]

@[simp] theorem lexicals_push_open : (held.push lock false).lexicals = held.lexicals := by
  simp [push]

@[simp] theorem lexicals_push_lexical :
    (held.push lock true).lexicals = held.lexicals ++ [⟨lock, true⟩] := by
  simp [push]

@[simp] theorem lexicals_release_open : (held.release lock false).lexicals = held.lexicals := by
  by_cases h : ⟨lock, false⟩ ∈ held
  · obtain ⟨older, newer, rfl, -, hrel⟩ := exists_release_eq h
    simp [hrel]
  · rw [release_of_not_mem h]

theorem lexicals_release_lexical (h : fin.lexicals = held.lexicals ++ [⟨lock, true⟩]) :
    (fin.release lock true).lexicals = held.lexicals := by
  have hmem : ⟨lock, true⟩ ∈ fin := (mem_lexicals.1 (h ▸ List.mem_append_right _ (by simp))).1
  obtain ⟨older, newer, rfl, hnew, hrel⟩ := exists_release_eq hmem
  rw [lexicals_append, lexicals_cons_lexical] at h
  -- the hold that goes is the last of the lexical ones
  have hnil : newer.lexicals = [] := by
    rcases List.eq_nil_or_concat newer.lexicals with hnil | ⟨init, last, hlast⟩
    · exact hnil
    · rw [List.concat_eq_append] at hlast
      rw [hlast, ← List.cons_append, ← List.append_assoc] at h
      obtain rfl : last = ⟨lock, true⟩ := by simpa using (List.append_inj' h rfl).2
      exact absurd (mem_lexicals.1 (hlast ▸ List.mem_append_right _ (by simp))).1 hnew
  rw [hrel, lexicals_append, hnil, List.append_nil]
  rw [hnil] at h
  exact List.append_cancel_right h

theorem lexicals_absorb : (absorb held fin).lexicals = held.lexicals := by
  induction fin generalizing held with
  | nil => rfl
  | cons x rest ih =>
    rw [absorb, List.foldl_cons, ← absorb, ih]
    split
    · rename_i h
      simp only [Bool.and_eq_true, Bool.not_eq_true'] at h
      simp [lexicals, h.1]
    · rfl

/-- **A join leaves the lexical holds as they were** if all paths do. -/
theorem lexicals_merge (h : ∀ fin ∈ ends, fin.lexicals = before.lexicals) :
    (merge mode before ends).lexicals = before.lexicals := by
  cases mode with
  | must =>
    cases ends with
    | nil => rfl
    | cons first rest =>
      have hfirst := h first List.mem_cons_self
      rw [merge, lexicals, List.filter_comm, ← lexicals, hfirst, List.filter_eq_self]
      intro l hl
      simp only [List.all_eq_true]
      intro fin hfin
      rw [← h fin (List.mem_cons_of_mem _ hfin)] at hl
      exact holds_iff.2 ⟨l, (mem_lexicals.1 hl).1, rfl⟩
  | may =>
    simp only [merge]
    induction ends generalizing before with
    | nil => rfl
    | cons first rest ih =>
      rw [List.foldl_cons, ih, lexicals_absorb]
      intro fin hfin
      rw [h fin (List.mem_cons_of_mem _ hfin), lexicals_absorb]

/-! ## Depth -/

/-- How often a lock is held. -/
def depth (held : HeldLocks) (name : String) : Nat := List.countP (fun l => l.name = name) held

theorem depth_pos_iff : 0 < held.depth name ↔ ∃ l ∈ held, l.name = name := by
  simp [depth, List.countP_pos_iff]

theorem mem_names_iff_depth_pos : name ∈ held.names ↔ 0 < held.depth name :=
  mem_names.trans depth_pos_iff.symm

theorem depth_push :
    (held.push lock lexical).depth name = held.depth name + if lock = name then 1 else 0 := by
  simp [depth, push, List.countP_append, List.countP_singleton]

theorem depth_le_depth_release : held.depth name ≤
    (held.release lock lexical).depth name + if lock = name then 1 else 0 := by
  by_cases h : ⟨lock, lexical⟩ ∈ held
  · obtain ⟨older, newer, rfl, -, hrel⟩ := exists_release_eq h
    rw [hrel]
    simp only [depth, List.countP_append, List.countP_cons, decide_eq_true_eq]
    omega
  · rw [release_of_not_mem h]
    exact Nat.le_add_right _ _

theorem depth_le_depth_absorb : held.depth name ≤ (absorb held fin).depth name := by
  induction fin generalizing held with
  | nil => exact Nat.le_refl _
  | cons x rest ih =>
    rw [absorb, List.foldl_cons]
    refine Nat.le_trans ?_ ih
    split
    · exact List.Sublist.countP_le (List.sublist_append_left _ _)
    · exact Nat.le_refl _

theorem depth_absorb_pos (h : ⟨name, false⟩ ∈ fin) : 0 < (absorb held fin).depth name := by
  induction fin generalizing held with
  | nil => cases h
  | cons x rest ih =>
    rw [absorb, List.foldl_cons]
    rcases List.mem_cons.1 h with rfl | h
    · refine Nat.lt_of_lt_of_le (depth_pos_iff.2 ?_) depth_le_depth_absorb
      by_cases hname : holds held name
      · obtain ⟨l, hl, hl'⟩ := holds_iff.1 hname
        exact ⟨l, by simpa [hname] using hl, hl'⟩
      · exact ⟨⟨name, false⟩, by simp [hname], rfl⟩
    · exact ih h

theorem depth_le_depth_merge : before.depth name ≤ (merge .may before ends).depth name := by
  simp only [merge]
  induction ends generalizing before with
  | nil => exact Nat.le_refl _
  | cons first rest ih => exact Nat.le_trans depth_le_depth_absorb ih

theorem depth_merge_pos (hfin : fin ∈ ends) (h : ⟨name, false⟩ ∈ fin) :
    0 < (merge .may before ends).depth name := by
  simp only [merge]
  induction ends generalizing before with
  | nil => cases hfin
  | cons first rest ih =>
    rcases List.mem_cons.1 hfin with rfl | hfin
    · exact Nat.lt_of_lt_of_le (depth_absorb_pos h) depth_le_depth_merge
    · exact ih hfin

/-- **What a join keeps of a path**: its depth, as long as this exceeds neither the depth before the
branches nor a single hold. -/
theorem le_depth_merge {k : Nat} (hfin : fin ∈ ends) (hlex : fin.lexicals = before.lexicals)
    (hk : k ≤ fin.depth name) (hmax : k ≤ max (before.depth name) 1) :
    k ≤ (merge .may before ends).depth name := by
  rcases Nat.eq_zero_or_pos (before.depth name) with hzero | hpos
  · rcases Nat.eq_zero_or_pos k with rfl | hkpos
    · exact Nat.zero_le _
    · -- the hold is open, since nothing of this name was held lexically before
      obtain ⟨⟨_, lexical⟩, hl, rfl⟩ := depth_pos_iff.1 (Nat.lt_of_lt_of_le hkpos hk)
      cases lexical with
      | true =>
        have hbefore := (mem_lexicals.1 (hlex ▸ mem_lexicals.2 ⟨hl, rfl⟩)).1
        have hpos := depth_pos_iff.2 ⟨_, hbefore, rfl⟩
        omega
      | false => exact Nat.le_trans (by omega) (depth_merge_pos hfin hl)
  · exact Nat.le_trans (by omega) depth_le_depth_merge

/-! ## Open holds -/

/-- How often a lock is held by an explicit acquisition. -/
def opens (held : HeldLocks) (name : String) : Nat := List.count ⟨name, false⟩ held

theorem depth_eq (held : HeldLocks) (name : String) :
    held.depth name = held.lexicals.depth name + held.opens name := by
  induction held with
  | nil => rfl
  | cons l rest ih =>
    obtain ⟨lock, lexical⟩ := l
    simp only [depth, opens, lexicals] at ih ⊢
    cases lexical with
    | true =>
      simp [List.countP_cons, ih]
      omega
    | false =>
      simp [List.countP_cons, List.count_cons, ih]
      omega

theorem opens_push_open :
    (held.push lock false).opens name = held.opens name + if lock = name then 1 else 0 := by
  simp [opens, push, List.count_singleton]

@[simp] theorem opens_push_lexical : (held.push lock true).opens name = held.opens name := by
  simp [opens, push]

theorem opens_release_open :
    (held.release lock false).opens name = held.opens name - if lock = name then 1 else 0 := by
  simp [opens, release, List.count_erase]

@[simp] theorem opens_release_lexical : (held.release lock true).opens name = held.opens name := by
  simp [opens, release]

/-! ## The join of what must be held -/

theorem depth_merge_must_le {first : HeldLocks} {rest : List HeldLocks} :
    (merge .must before (first :: rest)).depth name ≤ first.depth name :=
  List.Sublist.countP_le List.filter_sublist

/-- A lock that is held after the join is held at the end of every path. -/
theorem depth_pos_of_merge_must (h : 0 < (merge .must before ends).depth name) (hfin : fin ∈ ends) :
    0 < fin.depth name := by
  cases ends with
  | nil => cases hfin
  | cons first rest =>
    obtain ⟨l, hl, rfl⟩ := depth_pos_iff.1 h
    obtain ⟨hl, hrest⟩ := List.mem_filter.1 hl
    rcases List.mem_cons.1 hfin with rfl | hfin
    · exact depth_pos_iff.2 ⟨l, hl, rfl⟩
    · exact depth_pos_iff.2 (holds_iff.1 (List.all_eq_true.1 hrest fin hfin))

end Interlock.Lock.HeldLocks
