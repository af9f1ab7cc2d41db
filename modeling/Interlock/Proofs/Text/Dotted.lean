import Interlock.Text.Dotted
import Mathlib.Data.List.TakeWhile

/-!
# Cutting dotted names

A text that is made of a name, a dot and a name without dots is cut back into the two
(`Text.splitLast?_dot`), and nothing else is cut into them (`Text.splitLast?_eq_some_iff`). A text
without dots is not cut.
-/

namespace Interlock.Text

variable {s before k : String}

/-- There is no dot in the text. -/
def Undotted (s : String) : Prop := '.' ∉ s.toList

instance (s : String) : Decidable (Undotted s) := inferInstanceAs (Decidable (¬ _))

theorem undotted_append {a b : String} : Undotted (a ++ b) ↔ Undotted a ∧ Undotted b := by
  simp [Undotted]

theorem toList_dot (a b : String) : s!"{a}.{b}".toList = a.toList ++ '.' :: b.toList := by
  simp [toString]

theorem dot_left_inj {a b : String} : s!"{a}.{k}" = s!"{b}.{k}" ↔ a = b := by
  rw [← String.toList_inj, toList_dot, toList_dot, List.append_left_inj, String.toList_inj]

theorem dot_right_inj {a b : String} : s!"{k}.{a}" = s!"{k}.{b}" ↔ a = b := by
  rw [← String.toList_inj, toList_dot, toList_dot, List.append_right_inj, List.cons_inj_right,
    String.toList_inj]

theorem forall_ne_dot (h : Undotted k) : ∀ c ∈ k.toList.reverse, (c != '.') = true := by
  intro c hc
  rw [bne_iff_ne]
  rintro rfl
  exact h (List.mem_reverse.1 hc)

theorem leaf_dot (before : String) (h : Undotted k) : leaf s!"{before}.{k}" = k := by
  rw [leaf, toList_dot, List.reverse_append, List.reverse_cons, List.append_assoc,
    List.takeWhile_append_of_pos (forall_ne_dot h)]
  simp

theorem splitLast?_of_undotted (h : Undotted s) : splitLast? s = none := by
  have hdrop : s.toList.reverse.dropWhile (· != '.') = [] :=
    List.dropWhile_eq_nil_iff.2 (forall_ne_dot h)
  rw [splitLast?, hdrop]

theorem splitLast?_dot (before : String) (h : Undotted k) :
    splitLast? s!"{before}.{k}" = some (before, k) := by
  have hdrop : s!"{before}.{k}".toList.reverse.dropWhile (· != '.') =
      '.' :: before.toList.reverse := by
    rw [toList_dot, List.reverse_append, List.reverse_cons, List.append_assoc,
      List.dropWhile_append_of_pos (forall_ne_dot h)]
    simp
  rw [splitLast?, hdrop, leaf_dot before h]
  simp

/-- A text with a dot is cut at the last one. -/
theorem exists_eq_dot (h : ¬ Undotted s) :
    ∃ before k : String, s = s!"{before}.{k}" ∧ Undotted k := by
  obtain ⟨after, before, heq, hafter⟩ :=
    List.eq_append_cons_of_mem (List.mem_reverse.2 (not_not.1 h))
  refine ⟨String.ofList before.reverse, String.ofList after.reverse, ?_, by simpa [Undotted]⟩
  rw [← String.toList_inj, toList_dot, ← List.reverse_reverse s.toList, heq]
  simp

theorem splitLast?_eq_some_iff :
    splitLast? s = some (before, k) ↔ s = s!"{before}.{k}" ∧ Undotted k := by
  constructor
  · intro hsplit
    have hdot : ¬ Undotted s := fun h => by
      rw [splitLast?_of_undotted h] at hsplit
      cases hsplit
    obtain ⟨before', k', rfl, hk⟩ := exists_eq_dot hdot
    rw [splitLast?_dot before' hk, Option.some.injEq, Prod.mk.injEq] at hsplit
    obtain ⟨rfl, rfl⟩ := hsplit
    exact ⟨rfl, hk⟩
  · rintro ⟨rfl, hk⟩
    exact splitLast?_dot before hk

/-! ## Parts -/

theorem occursIn_of_infix {part cs : List Char} (h : part <:+: cs) : occursIn part cs = true := by
  induction cs with
  | nil =>
    rw [List.infix_nil.1 h]
    rfl
  | cons c rest ih =>
    rw [occursIn, Bool.or_eq_true]
    rcases List.infix_cons_iff.1 h with hprefix | hrest
    · exact .inl (List.isPrefixOf_iff_prefix.2 hprefix)
    · exact .inr (ih hrest)

theorem contains_of_infix {part : String} (h : part.toList <:+: s.toList) :
    contains s part = true :=
  occursIn_of_infix h

end Interlock.Text
