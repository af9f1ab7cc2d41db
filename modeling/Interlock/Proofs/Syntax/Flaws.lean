import Interlock.Syntax.Unit

/-!
# The first error of a file

The search for the first error descends only into trees that hold one. It finds what a scan of all
nodes in the order of the text would find (`Node.firstFlaw?_eq_find?`), since a tree that it passes
by has no flaw in it (`Node.hasFlaw_eq_false_iff`). The nodes are all those of the tree, the missing
tokens included, which stand for no grammar rule.

So a unit is accepted if it is a module without flaws, and a module with flaws is refused for the
first of them (`SourceUnit.check_decides`).
-/

namespace Interlock.Syntax

namespace Node

/-! ## Which trees hold a flaw -/

mutual

theorem hasFlaw_eq_any (n : Node) : n.hasFlaw = n.preorder.any fun m => m.flaw.isSome := by
  obtain ⟨kind, field, text, row, flaw, children⟩ := n
  rw [hasFlaw, preorder, List.any_cons, anyFlaw_eq_any children]

theorem anyFlaw_eq_any (nodes : List Node) :
    anyFlaw nodes = (preorderAll nodes).any fun m => m.flaw.isSome := by
  match nodes with
  | [] => rfl
  | n :: rest =>
    rw [anyFlaw, preorderAll, List.any_append, hasFlaw_eq_any n, anyFlaw_eq_any rest]

end

variable {n root : Node}

theorem hasFlaw_eq_false_iff : n.hasFlaw = false ↔ ∀ m ∈ n.preorder, m.flaw = none := by
  simp [hasFlaw_eq_any]

theorem find?_eq_none_of_hasFlaw (h : ¬ n.hasFlaw = true) :
    (n.preorder.find? fun m => m.flaw.isSome) = none := by
  rw [List.find?_eq_none]
  intro m hm
  simp [hasFlaw_eq_false_iff.1 (Bool.eq_false_iff.2 h) m hm]

/-! ## The search -/

mutual

/-- **The pruned search finds the first flaw of the whole tree.** -/
theorem firstFlaw?_eq_find? (n : Node) :
    n.firstFlaw? = n.preorder.find? fun m => m.flaw.isSome := by
  obtain ⟨kind, field, text, row, flaw, children⟩ := n
  rw [firstFlaw?, preorder, List.find?_cons, firstFlawAmong?_eq_find? children]
  cases flaw.isSome <;> rfl

theorem firstFlawAmong?_eq_find? (nodes : List Node) :
    firstFlawAmong? nodes = (preorderAll nodes).find? fun m => m.flaw.isSome := by
  match nodes with
  | [] => rfl
  | n :: rest =>
    rw [firstFlawAmong?, preorderAll, List.find?_append, firstFlaw?_eq_find? n,
      firstFlawAmong?_eq_find? rest]
    split
    · rfl
    · rename_i hflaw
      rw [find?_eq_none_of_hasFlaw hflaw, Option.none_or]

end

theorem firstErrorLine?_eq (root : Node) :
    root.firstErrorLine? = (root.preorder.find? fun m => m.flaw.isSome).map line := by
  rw [firstErrorLine?, firstFlaw?_eq_find?]
  split
  · rfl
  · rename_i hflaw
    rw [find?_eq_none_of_hasFlaw hflaw, Option.map_none]

theorem firstErrorLine?_eq_none_iff :
    root.firstErrorLine? = none ↔ ∀ n ∈ root.preorder, n.flaw = none := by
  simp [firstErrorLine?_eq]

/-- The line is that of a flaw with none before it. -/
theorem firstErrorLine?_eq_some_iff {number : Nat} :
    root.firstErrorLine? = some number ↔ ∃ before n after, root.preorder = before ++ n :: after ∧
      (∀ m ∈ before, m.flaw = none) ∧ n.flaw.isSome = true ∧ number = n.row + 1 := by
  simp only [firstErrorLine?_eq, Option.map_eq_some_iff, List.find?_eq_some_iff_append]
  constructor
  · rintro ⟨n, ⟨hflaw, before, after, hroot, hbefore⟩, rfl⟩
    exact ⟨before, n, after, hroot, fun m hm => by simpa using hbefore m hm, hflaw, rfl⟩
  · rintro ⟨before, n, after, hroot, hbefore, hflaw, rfl⟩
    exact ⟨n, ⟨hflaw, before, after, hroot, fun m hm => by simp [hbefore m hm]⟩, rfl⟩

end Node

/-! ## Units -/

namespace SourceUnit

variable {u : SourceUnit}

theorem check_eq_ok_iff :
    u.check = .ok () ↔ u.tree.kind = .module ∧ ∀ n ∈ u.tree.preorder, n.flaw = none := by
  rw [← Node.firstErrorLine?_eq_none_iff, check]
  by_cases hkind : u.tree.kind = .module
  · rw [if_neg (not_not_intro hkind)]
    cases u.tree.firstErrorLine? <;> simp [hkind]
  · simp [hkind]

theorem check_eq_error_iff {refusal : Refusal} : u.check = .error refusal ↔
    (u.tree.kind ≠ .module ∧ refusal = .unexpectedRoot u.path u.tree.kind.name) ∨
      u.tree.kind = .module ∧ ∃ number, u.tree.firstErrorLine? = some number ∧
        refusal = .malformed u.path number := by
  rw [check]
  by_cases hkind : u.tree.kind = .module
  · rw [if_neg (not_not_intro hkind)]
    cases u.tree.firstErrorLine? <;> simp [hkind, eq_comm]
  · simp [hkind, eq_comm]

/-- **What a unit is accepted or refused for.** The line of the first error is that of the first
flaw among all nodes in the order of the text, and there is none if no node has a flaw. A unit is
accepted if its root is a module and no node has a flaw; otherwise it is refused for its root, if
that is no module, and else for the line of its first error. -/
theorem check_decides (u : SourceUnit) :
    (∀ number, u.tree.firstErrorLine? = some number ↔
      ∃ before n after, u.tree.preorder = before ++ n :: after ∧
        (∀ m ∈ before, m.flaw = none) ∧ n.flaw.isSome = true ∧ number = n.row + 1) ∧
    (u.tree.firstErrorLine? = none ↔ ∀ n ∈ u.tree.preorder, n.flaw = none) ∧
    (u.check = .ok () ↔ u.tree.kind = .module ∧ ∀ n ∈ u.tree.preorder, n.flaw = none) ∧
    ∀ refusal, u.check = .error refusal ↔
      (u.tree.kind ≠ .module ∧ refusal = .unexpectedRoot u.path u.tree.kind.name) ∨
        u.tree.kind = .module ∧ ∃ number, u.tree.firstErrorLine? = some number ∧
          refusal = .malformed u.path number :=
  ⟨fun _ => Node.firstErrorLine?_eq_some_iff, Node.firstErrorLine?_eq_none_iff, check_eq_ok_iff,
    fun _ => check_eq_error_iff⟩

end SourceUnit

end Interlock.Syntax
