import Interlock.Proofs.Flow.Lambda
import Interlock.Proofs.Flow.Modes
import Interlock.Proofs.Flow.Region
import Interlock.Proofs.Syntax.Build

/-!
# Lexical holds

The holds of decorators and `with` statements form a stack that follows the text. `walk_lexicals`
says so for a whole file, in both modes: no statement changes the stack; at an event it consists of
the locks of the decorators and of the `with` items around the place of the event; the body of a
lambda is reported with no lock held; and a function starts with the locks of its decorators only.
-/

namespace Interlock

open Syntax Lock Lock.HeldLocks

/-- Whether something is reported from inside a lambda. -/
def Mark.isDetached : Mark → Bool
  | probe p => p.detached
  | _ => false

/-- An event carries the holds of its place, and none inside a lambda. -/
theorem Mark.held_event (m : Mark) (hm : m ≠ .enter) (r : Routine) (held : HeldLocks) :
    (m.event r held).held = if m.isDetached then [] else held := by
  cases m with
  | enter => exact absurd rfl hm
  | take lock line => rfl
  | probe p => cases p <;> rfl

/-- The event reports what stands at the place, with the lexical holds of the place, or with none at
all inside a lambda. -/
structure Place.Holds (p : Place) (e : Event) : Prop where
  bare : e.bare = p.mark.event p.routine []
  lexicals : p.mark ≠ .enter → p.mark.isDetached = false →
    e.held.lexicals = p.surroundings.around.map (⟨·, true⟩)
  detached : p.mark.isDetached = true → e.held = []

theorem Place.Fits.holds {p : Place} {e : Event} (h : p.Fits e) : p.Holds e := by
  obtain ⟨held, hfits, rfl⟩ := h
  refine ⟨p.mark.bare_event _ _, fun hm hattached => ?_, fun hdetached => ?_⟩
  · rw [Mark.held_event _ hm, hattached]
    exact hfits.lexicals
  · have hm : p.mark ≠ .enter := by
      rintro hm
      rw [hm] at hdetached
      cases hdetached
    rw [Mark.held_event _ hm, hdetached, if_pos rfl]

namespace Flow

/-- The events by which locks are taken one inside the other. -/
def takes (r : Routine) (held : HeldLocks) (line : Nat) : List String → List Event
  | [] => []
  | lock :: locks => .acquire r held lock line :: takes r (held.push lock true) line locks

/-- Locks are taken one inside the other, and the body runs with all of them held. -/
theorem runAll_ofWith_locks {mode : HoldMode} (r : Routine) (held : HeldLocks) (line : Nat)
    (locks : List String) (body : List Flow) :
    (runAll mode r held (ofWith (locks.map (WithItem.lock · line)) body)).1 =
      takes r held line locks ++ (runAll mode r (held ++ locks.map (⟨·, true⟩)) body).1 := by
  induction locks generalizing held with
  | nil => simp [ofWith, takes]
  | cons lock rest ih =>
    rw [List.map_cons, ofWith, runAll_singleton, run, ih, takes, push]
    simp

end Flow

/-- The lexical holds of a walk follow the text of the file. -/
structure LexicalWalk (mode : HoldMode) (names : Names) (u : SourceUnit) : Prop where
  /-- A statement leaves the lexical holds as they were. -/
  statements (s : Scope) (decorators : List String) (n : Node) (r : Routine) (held : HeldLocks) :
    (Flow.runAll mode r held (Flow.ofStmt s decorators n)).2.lexicals = held.lexicals
  /-- The events come from the places of the file, with the lexical holds of their places. -/
  places : List.Forall₂ Place.Holds (placesOf names u) (walk mode names u)
  /-- What is reported from outside all lambdas is what the code does without their bodies. -/
  lambdas (s : Scope) :
    (∀ n, Probe.attached (s.probes false n) = s.probes false n.withoutLambdas) ∧
      (∀ ns, Probe.attached (s.targetProbesAmong false ns) =
        s.targetProbesAmong false (Node.withoutLambdasAll ns)) ∧
      ∀ e, Probe.attached (s.statementProbes e) = s.statementProbes e.withoutLambdas
  /-- The walk enters a function, takes the locks of its decorators, and follows its body with just
  these locks held. -/
  functions {outer : Region} {n f name b : Node} (region : outer.Of names u) (has : outer.Has n)
    (eq : defined n = f) (kind : f.kind = .functionDefinition)
    (named : f.child? .name = some name) (body : f.child? .body = some b) :
    let inner := outer.scope.ofFunction outer.functionKind (Flow.decoratorsOf n) f name.text
    let locks := Flow.decoratorLocks outer.scope (Flow.decoratorsOf n)
    .enter inner.routine :: (Flow.takes inner.routine [] f.line locks ++
        (Flow.runAll mode inner.routine (locks.map (⟨·, true⟩)) (Flow.ofStmts inner b.children)).1)
      <:+: walk mode names u

/-- **The lexical holds of every walk follow the text.** -/
theorem walk_lexicals (mode : HoldMode) (names : Names) (u : SourceUnit) :
    LexicalWalk mode names u where
  statements s decorators n r held := Flow.lexicals_runAll _
  places := (fits_walk mode names u).imp fun _ _ hfits => hfits.holds
  lambdas s := ⟨s.attached_probes false, s.attached_targetProbesAmong false,
    s.attached_statementProbes⟩
  functions region has eq kind named body := by
    have hinfix : _ <:+: walk mode names u :=
      (Region.Of.function region has eq kind named body).infix_walk
    rw [Region.flow, Flow.runAll_ofWith_locks, List.nil_append] at hinfix
    exact hinfix

section Example

open Node

/-- A method with a decorator, whose `with` statement has two items, one with an alias, and hands
over a lambda. -/
def lending : SourceUnit :=
  .ofStatements "lending.py" [
    classOf (ident 0 "Pool") [
      decorated (ident 1 "locked") (function (ident 2 "put") ["self", "item"] [
        withAll 3 [((ident 3 "self").dot "lock").aliased "guard", ident 3 "table_lock"] [
          invokeWith ((ident 4 "self").dot "jobs") "append"
            (lambdaWith (ident 4 "item") ((ident 4 "self").dot "x") ((ident 4 "self").dot "y"))]])]]

/-- The attribute that an event is an access to. -/
def Event.attr? : Event → Option String
  | access _ _ a => some a.attr
  | _ => none

/-- The second item is taken inside the decorator and the first, the call is made inside both items
as well, and what the lambda does is reported with no lock held. -/
theorem walk_lexicals_lending :
    let reports := (placesOf ⟨[]⟩ lending).zip (walk .must ⟨[]⟩ lending)
    (∃ pe ∈ reports, pe.1.mark = .take "table_lock" 4 ∧
      pe.2.held.lexicals = [⟨"Pool.@locked", true⟩, ⟨"Pool.lock", true⟩]) ∧
    (∃ pe ∈ reports, pe.2.attr? = some "jobs" ∧
      pe.2.held.lexicals = [⟨"Pool.@locked", true⟩, ⟨"Pool.lock", true⟩, ⟨"table_lock", true⟩]) ∧
    ∃ pe ∈ reports, pe.2.attr? = some "y" ∧ pe.2.held = [] := by
  intro reports
  have hholds {pe : Place × Event} (h : pe ∈ reports) : pe.1.Holds pe.2 :=
    (List.forall₂_iff_zip.1 (walk_lexicals .must ⟨[]⟩ lending).places).2 h
  obtain ⟨item, hitem, htake, haround⟩ : ∃ pe ∈ reports, pe.1.mark = .take "table_lock" 4 ∧
      pe.1.surroundings.around = ["Pool.@locked", "Pool.lock"] := by
    decide +kernel
  obtain ⟨call, hcall, hjobs, hmark, hattached, haround'⟩ : ∃ pe ∈ reports,
      pe.2.attr? = some "jobs" ∧ pe.1.mark ≠ .enter ∧ pe.1.mark.isDetached = false ∧
        pe.1.surroundings.around = ["Pool.@locked", "Pool.lock", "table_lock"] := by
    decide +kernel
  obtain ⟨body, hbody, hy, hdetached⟩ : ∃ pe ∈ reports,
      pe.2.attr? = some "y" ∧ pe.1.mark.isDetached = true := by
    decide +kernel
  refine ⟨⟨item, hitem, htake, ?_⟩, ⟨call, hcall, hjobs, ?_⟩, body, hbody, hy,
    (hholds hbody).detached hdetached⟩
  · rw [(hholds hitem).lexicals (by simp [htake]) (by rw [htake]; rfl), haround]
    rfl
  · rw [(hholds hcall).lexicals hmark hattached, haround']
    rfl

end Example

end Interlock
