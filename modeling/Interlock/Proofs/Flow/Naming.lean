import Interlock.Proofs.Flow.Makings
import Interlock.Proofs.Flow.Taken
import Interlock.Proofs.Text.Dotted

/-!
# How locks are named

A lock goes by a plain name, by its class and attribute, or, if it is an attribute of another
object, by the text of the expression that denotes it (`Scope.Borrows`). Only the last form may have
a dot that does not stand between the class and the attribute (`Scope.dotted_of_lockOf?`).

The locks held at an event have been taken in its routine, so their names are made in a scope of
that routine (`exists_isLockIn_of_mem_held`).
-/

namespace Interlock

open Syntax Lock

/-- A name has no dot in it, whether it stands alone or names an attribute. -/
def Syntax.Node.PlainName (n : Node) : Prop :=
  n.kind = .identifier ∨ n.field = some .attr → Text.Undotted n.text

instance : DecidablePred Node.PlainName := fun n =>
  inferInstanceAs (Decidable (n.kind = .identifier ∨ n.field = some .attr → _))

namespace Scope

variable {s : Scope} {n : Node} {lock : String}

/-- An expression for an attribute of an object that is not the scope's own, or for an item of
one. -/
inductive Borrows (s : Scope) : Node → Prop
  | attr {n object : Node} (kind : n.kind = .attr) (mem : n.child? .object = some object)
    (other : s.isReceiver object = false) : Borrows s n
  | subscript {n value : Node} (kind : n.kind = .subscript) (mem : n.child? .value = some value)
    (inner : Borrows s value) : Borrows s n
  | parenthesized {n first : Node} (kind : n.kind = .parenthesizedExpression)
    (mem : n.first? = some first) (inner : Borrows s first) : Borrows s n

theorem lockOfField?_eq (f : Field) (nodes : List Node) :
    s.lockOfField? f nodes = (Node.withField? f nodes).elim none s.lockOf? :=
  eq_elim_withField? rfl (fun c rest => by rw [lockOfField?]) nodes

theorem lockOfFirst?_eq (nodes : List Node) :
    s.lockOfFirst? nodes = (nodes.filter Node.isNamed).head?.elim none s.lockOf? := by
  induction nodes with
  | nil => rfl
  | cons c rest ih =>
    rw [lockOfFirst?, List.filter_cons]
    split
    · rfl
    · exact ih

/-- The name of a lock that is not another object's has a dot only between the class and the
attribute. -/
theorem dotted_of_lockOf? (hplain : n.Everywhere Node.PlainName) (hlock : s.lockOf? n = some lock)
    (hown : ¬ s.Borrows n) :
    Text.Undotted lock ∨ ∃ c, ∃ attr : String, s.owner = some c ∧ lock = s!"{c.name}.{attr}" ∧
      Text.Undotted attr := by
  induction n using Node.ofChildren generalizing lock with
  | h n ih =>
    obtain ⟨kind, field, text, row, flaw, children⟩ := n
    unfold lockOf? at hlock
    split at hlock
    · -- a plain name
      rw [Option.ite_none_right_eq_some, Option.some.injEq] at hlock
      exact .inl (hlock.2 ▸ hplain.here (.inl rfl))
    · -- an attribute
      obtain ⟨object, hobject, hlock⟩ := Option.bind_eq_some_iff.1 hlock
      obtain ⟨attr, hattr, hlock⟩ := Option.bind_eq_some_iff.1 hlock
      by_cases hreceiver : s.isReceiver object = true
      · rw [if_pos hreceiver] at hlock
        obtain ⟨c, hc, hlock⟩ := Option.bind_eq_some_iff.1 hlock
        rw [Option.ite_none_right_eq_some, Option.some.injEq] at hlock
        obtain ⟨hmem, hfield⟩ := mem_of_withField? hattr
        exact .inr ⟨c, attr.text, hc, hlock.2.symm, (hplain.child hmem).here (.inr hfield)⟩
      · exact absurd (.attr rfl hobject (Bool.eq_false_iff.2 hreceiver)) hown
    · -- an item goes by the name of its container
      rw [lockOfField?_eq] at hlock
      cases hvalue : Node.withField? .value children with
      | none => simp [hvalue] at hlock
      | some value =>
        rw [hvalue, Option.elim_some, Option.map_eq_some_iff] at hlock
        obtain ⟨inner, hinner, rfl⟩ := hlock
        have hmem := (mem_of_withField? hvalue).1
        rcases ih value hmem (hplain.child hmem) hinner
            (fun h => hown (.subscript rfl hvalue h)) with h | ⟨c, attr, hc, rfl, hattr⟩
        · exact .inl (Text.undotted_append.2 ⟨h, by decide⟩)
        · refine .inr ⟨c, attr ++ "[]", hc, ?_, Text.undotted_append.2 ⟨hattr, by decide⟩⟩
          exact String.append_assoc
    · rw [lockOfFirst?_eq] at hlock
      cases hfirst : (children.filter Node.isNamed).head? with
      | none => simp [hfirst] at hlock
      | some first =>
        rw [hfirst, Option.elim_some] at hlock
        have hmem := List.mem_of_mem_filter (List.mem_of_mem_head? hfirst)
        exact ih first hmem (hplain.child hmem) hlock fun h => hown (.parenthesized rfl hfirst h)
    · cases hlock

end Scope

/-- The locks of decorators are marked as such. -/
theorem Flow.contains_of_mem_decoratorLocks {s : Scope} {decorators : List String} {lock : String}
    (h : lock ∈ decoratorLocks s decorators) : Text.contains lock ".@" = true := by
  obtain ⟨d, -, rfl⟩ := List.mem_map.1 h
  refine Text.contains_of_infix
    ⟨((s.owner.map ClassFacts.name).getD "<module>").toList, d.toList, ?_⟩
  simp [toString]

/-- The expression `m` denotes a lock in a scope `s` of a routine. -/
def IsLockIn (names : Names) (u : SourceUnit) (r : Routine) (lock : String) (s : Scope) (m : Node) :
    Prop :=
  ∃ n, Scope.Governs names u s n ∧ s.routine = r ∧ m ∈ n.preorder ∧ s.lockOf? m = some lock

section Held

variable {mode : HoldMode} {names : Names} {u : SourceUnit} {lock : String}

/-- **A held lock is denoted by an expression in the routine** that holds it, unless it is that of a
decorator. -/
theorem exists_isLockIn_of_mem_held {e : Event} (he : e ∈ walk mode names u)
    (hlock : lock ∈ e.held.names) (hmark : Text.contains lock ".@" = false) :
    ∃ s m, IsLockIn names u e.routine lock s m := by
  obtain ⟨e', he', hroutine, htaken⟩ := exists_taken_in_routine he hlock
  obtain ⟨r, held, line, rfl⟩ := e'.exists_of_taken? htaken
  obtain ⟨s, n, hn, hr, ⟨m, hm, hdenotes⟩ | ⟨decorators, hmem⟩⟩ := exists_scope_of_acquire he'
  · exact ⟨s, m, n, hn, hr.symm.trans hroutine, hm, hdenotes⟩
  · rw [Flow.contains_of_mem_decoratorLocks hmem] at hmark
    cases hmark

/-- A lock that is not another object's goes by a plain name, or by the class of the routine and an
attribute. -/
theorem IsLockIn.dotted {r : Routine} {s : Scope} {m : Node} (h : IsLockIn names u r lock s m)
    (hplain : u.tree.Everywhere Node.PlainName) (hown : ¬ s.Borrows m) :
    Text.Undotted lock ∨ ∃ owner attr : String, r.owner = some owner ∧
      lock = s!"{owner}.{attr}" ∧ Text.Undotted attr := by
  obtain ⟨n, hn, rfl, hm, hlock⟩ := h
  obtain ⟨htree, -, hclass⟩ := hn.owner
  have hplain' : m.Everywhere Node.PlainName := fun x hx =>
    hplain x (Node.preorder_trans (Node.preorder_trans hx hm) htree)
  refine (Scope.dotted_of_lockOf? hplain' hlock hown).imp_right ?_
  rintro ⟨c, attr, hc, hname, hattr⟩
  exact ⟨c.name, attr, (hclass c hc).1, hname, hattr⟩

end Held

end Interlock
