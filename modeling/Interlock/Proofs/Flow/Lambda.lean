import Interlock.Proofs.Flow.Lexical

/-!
# Lambdas

What the body of a lambda does is detached from the locks around it. Which probes of an expression
these are can be seen by cutting the bodies of its lambdas out (`Node.withoutLambdas`): the probes
that are left are those that are not detached (`Scope.attached_probes`).
-/

namespace Interlock

open Syntax

namespace Syntax.Node

mutual

/-- An expression with the bodies of its lambdas cut out. -/
def withoutLambdas : Node → Node
  | ⟨kind, field, text, row, flaw, children⟩ =>
    ⟨kind, field, text, row, flaw, if kind = .lambda then [] else withoutLambdasAll children⟩

/-- The same for a list of siblings. -/
def withoutLambdasAll : List Node → List Node
  | [] => []
  | c :: rest => withoutLambdas c :: withoutLambdasAll rest

end

@[simp] theorem kind_withoutLambdas (n : Node) : n.withoutLambdas.kind = n.kind := by
  cases n
  rfl

@[simp] theorem field_withoutLambdas (n : Node) : n.withoutLambdas.field = n.field := by
  cases n
  rfl

@[simp] theorem text_withoutLambdas (n : Node) : n.withoutLambdas.text = n.text := by
  cases n
  rfl

@[simp] theorem isNamed_withoutLambdas (n : Node) : n.withoutLambdas.isNamed = n.isNamed := by
  cases n
  rfl

theorem children_withoutLambdas {n : Node} (h : n.kind ≠ .lambda) :
    n.withoutLambdas.children = withoutLambdasAll n.children := by
  cases n
  exact if_neg h

/-- The part in a role is the same one, cut. -/
theorem withField?_withoutLambdasAll (f : Field) (cs : List Node) :
    withField? f (withoutLambdasAll cs) = (withField? f cs).map withoutLambdas := by
  induction cs with
  | nil => rfl
  | cons c rest ih =>
    rw [withoutLambdasAll, withField?, withField?, List.find?_cons, List.find?_cons,
      field_withoutLambdas]
    split
    · rfl
    · exact ih

end Syntax.Node

/-- Whether a probe is made inside a lambda. -/
def Probe.detached : Probe → Bool
  | access detached _ => detached
  | ownCall detached _ _ => detached

/-- The probes that are made outside all lambdas. -/
def Probe.attached (ps : List Probe) : List Probe := ps.filter fun p => !p.detached

namespace Scope

open Node Probe

variable {s : Scope}

@[simp] theorem attached_nil : attached [] = [] := rfl

@[simp] theorem attached_append (ps qs : List Probe) :
    attached (ps ++ qs) = attached ps ++ attached qs :=
  List.filter_append _ _

/-- A single access is detached or not as the expression is in which it stands. -/
theorem attached_probe? (d : Bool) (attr receiver : String) (kind : AccessKind) (line : Nat)
    (rmw : Bool) (via : Option String) :
    attached (s.probe? d attr receiver kind line rmw via).toList =
      if d then [] else (s.probe? false attr receiver kind line rmw via).toList := by
  unfold probe?
  cases s.owner with
  | none => cases d <;> rfl
  | some c =>
    simp only [bind, Option.bind]
    split
    · cases d <;> rfl
    · cases d <;> rfl

@[simp] theorem isReceiver_withoutLambdas (n : Node) :
    s.isReceiver n.withoutLambdas = s.isReceiver n := by
  simp [isReceiver]

mutual

/-- The cut takes nothing away from a chain: no lambda stands on the way to its root. -/
theorem rootAttr?_withoutLambdas (n : Node) : s.rootAttr? n.withoutLambdas =
    (s.rootAttr? n).map fun found => (found.1.withoutLambdas, found.2) := by
  obtain ⟨kind, field, text, row, flaw, children⟩ := n
  rw [withoutLambdas, rootAttr?.eq_def, rootAttr?.eq_def]
  dsimp only
  split
  · rw [if_neg (by decide), withField?_withoutLambdasAll, withField?_withoutLambdasAll,
      rootAttrOfField?_withoutLambdas]
    cases withField? .object children with
    | none => rfl
    | some object =>
      simp only [Option.map_some, isReceiver_withoutLambdas, text_withoutLambdas]
      split
      · cases withField? .attr children <;> rfl
      · rfl
  · rw [if_neg (by decide)]
    exact rootAttrOfField?_withoutLambdas .value children
  · rfl

theorem rootAttrOfField?_withoutLambdas (f : Field) (cs : List Node) :
    s.rootAttrOfField? f (withoutLambdasAll cs) =
      (s.rootAttrOfField? f cs).map fun found => (found.1.withoutLambdas, found.2) := by
  match cs with
  | [] => rfl
  | c :: rest =>
    rw [withoutLambdasAll, rootAttrOfField?, rootAttrOfField?, field_withoutLambdas,
      rootAttr?_withoutLambdas c, rootAttrOfField?_withoutLambdas f rest]
    split <;> rfl

end

theorem append_of_ite (d : Bool) (ps qs : List Probe) :
    ((if d then [] else ps) ++ if d then [] else qs) = if d then [] else ps ++ qs := by
  cases d <;> rfl

mutual

/-- **The probes of an expression outside its lambdas** are those of the expression without the
bodies of the lambdas. -/
theorem attached_probes (d : Bool) (n : Node) :
    attached (s.probes d n) = if d then [] else s.probes false n.withoutLambdas := by
  obtain ⟨kind, field, text, row, flaw, children⟩ := n
  by_cases hlambda : kind = .lambda
  · subst hlambda
    rw [withoutLambdas, if_pos rfl, probes, probes, attached_probesOfField true .body children]
    cases d <;> rfl
  · have hroot := rootAttr?_withoutLambdas (s := s) ⟨kind, field, text, row, flaw, children⟩
    rw [withoutLambdas, if_neg hlambda] at hroot ⊢
    rw [probes.eq_def, probes.eq_def s false]
    dsimp only
    split
    · exact absurd rfl hlambda
    · rw [attached_append, attached_probesOfCallee d children,
        attached_probesOfField d .arguments children, append_of_ite]
    · simp only [hroot]
      cases s.rootAttr? ⟨.attr, field, text, row, flaw, children⟩ with
      | none => exact attached_probesAmong d children
      | some found =>
        simp only [Option.map_some, text_withoutLambdas]
        exact attached_probe? ..
    iterate 4 exact (ite_self _).symm
    · rw [attached_probesAmong d children]
      -- no other kind is left on either side
      congr 1
      split <;> simp_all

theorem attached_probesAmong (d : Bool) (cs : List Node) :
    attached (s.probesAmong d cs) =
      if d then [] else s.probesAmong false (withoutLambdasAll cs) := by
  match cs with
  | [] => simp [probesAmong, withoutLambdasAll]
  | c :: rest =>
    rw [probesAmong, withoutLambdasAll, probesAmong, attached_append, attached_probesAmong d rest,
      isNamed_withoutLambdas, ← append_of_ite]
    congr 1
    split
    · exact attached_probes d c
    · simp

theorem attached_probesOfField (d : Bool) (f : Field) (cs : List Node) :
    attached (s.probesOfField d f cs) =
      if d then [] else s.probesOfField false f (withoutLambdasAll cs) := by
  match cs with
  | [] => simp [probesOfField, withoutLambdasAll]
  | c :: rest =>
    rw [probesOfField, withoutLambdasAll, probesOfField, field_withoutLambdas]
    split
    · exact attached_probes d c
    · exact attached_probesOfField d f rest

theorem attached_probesOfCallee (d : Bool) (cs : List Node) :
    attached (s.probesOfCallee d cs) =
      if d then [] else s.probesOfCallee false (withoutLambdasAll cs) := by
  match cs with
  | [] => simp [probesOfCallee, withoutLambdasAll]
  | c :: rest =>
    rw [probesOfCallee, withoutLambdasAll, probesOfCallee, field_withoutLambdas,
      kind_withoutLambdas]
    split
    · split
      · exact attached_probesOfMethod d c ‹_›
      · exact attached_probes d c
    · exact attached_probesOfCallee d rest

/-- The same for the method that is called. -/
theorem attached_probesOfMethod (d : Bool) (n : Node) (hkind : n.kind = .attr) :
    attached (s.probesOfMethod d n) =
      if d then [] else s.probesOfMethod false n.withoutLambdas := by
  obtain ⟨kind, field, text, row, flaw, children⟩ := n
  obtain rfl : kind = .attr := hkind
  rw [withoutLambdas, if_neg (show ¬ Kind.attr = .lambda by decide), probesOfMethod, probesOfMethod,
    withField?_withoutLambdasAll, withField?_withoutLambdasAll]
  cases hobject : withField? .object children with
  | none => simp
  | some object =>
    cases hmethod : withField? .attr children with
    | none => simp
    | some method =>
      simp only [Option.map_some, isReceiver_withoutLambdas, text_withoutLambdas,
        kind_withoutLambdas, rootAttr?_withoutLambdas]
      split
      · split
        · cases d <;> rfl
        · exact attached_probe? ..
      · cases rootAttr? s object with
        | none => exact attached_probesOfField d .object children
        | some found =>
          simp only [Option.map_some, text_withoutLambdas, attached_append, ← append_of_ite]
          congr 1
          · split <;> exact attached_probe? ..
          · split
            · rename_i hsubscript
              refine attached_probesOfIndex d .object children fun c hc => ?_
              rw [hobject, Option.mem_some_iff] at hc
              rw [← hc, hsubscript]
              decide
            · exact (ite_self _).symm

/-- The same for the index of a chain, which is not in a lambda if the chain is none. -/
theorem attached_probesOfIndex (d : Bool) (f : Field) (cs : List Node)
    (h : ∀ c ∈ withField? f cs, c.kind ≠ .lambda) :
    attached (s.probesOfIndex d f cs) =
      if d then [] else s.probesOfIndex false f (withoutLambdasAll cs) := by
  match cs with
  | [] => simp [probesOfIndex, withoutLambdasAll]
  | ⟨kind, field, text, row, flaw, children⟩ :: rest =>
    rw [withoutLambdasAll, withoutLambdas, probesOfIndex, probesOfIndex]
    by_cases hfield : field = some f
    · have hkind : kind ≠ .lambda :=
        h ⟨kind, field, text, row, flaw, children⟩ (by simp [withField?, hfield])
      rw [if_pos hfield, if_pos hfield, if_neg hkind]
      exact attached_probesOfField d .subscript children
    · rw [if_neg hfield, if_neg hfield]
      exact attached_probesOfIndex d f rest (by simpa [withField?, hfield] using h)

end

mutual

/-- An assignment is outside all lambdas, and what is left of its target is what is left of the
cut. -/
theorem attached_targetProbes (rmw : Bool) (n : Node) :
    attached (s.targetProbes rmw n) = s.targetProbes rmw n.withoutLambdas := by
  obtain ⟨kind, field, text, row, flaw, children⟩ := n
  have hprobes := attached_probes (s := s) false ⟨kind, field, text, row, flaw, children⟩
  have hroot := rootAttr?_withoutLambdas (s := s) ⟨kind, field, text, row, flaw, children⟩
  by_cases hlambda : kind = .lambda
  · subst hlambda
    exact hprobes
  · rw [withoutLambdas, if_neg hlambda] at hprobes hroot ⊢
    rw [targetProbes, targetProbes, hroot]
    split
    · cases s.rootAttr? ⟨kind, field, text, row, flaw, children⟩ with
      | none => exact hprobes
      | some found =>
        simp only [Option.map_some, text_withoutLambdas, withField?_withoutLambdasAll,
          attached_append]
        congr 1
        · have hany : ((withField? .object children).map withoutLambdas).any s.isReceiver =
              (withField? .object children).any s.isReceiver := by
            cases withField? .object children <;> simp
          rw [hany]
          exact attached_probe? ..
        · split
          · exact attached_probesOfField false .subscript children
          · rfl
    · split
      · exact attached_targetProbesAmong rmw children
      · split
        · rfl
        · exact hprobes

theorem attached_targetProbesAmong (rmw : Bool) (cs : List Node) :
    attached (s.targetProbesAmong rmw cs) = s.targetProbesAmong rmw (withoutLambdasAll cs) := by
  match cs with
  | [] => rfl
  | c :: rest =>
    rw [targetProbesAmong, withoutLambdasAll, targetProbesAmong, attached_append,
      attached_targetProbesAmong rmw rest, isNamed_withoutLambdas]
    congr 1
    split
    · exact attached_targetProbes rmw c
    · rfl

end

mutual

/-- The same for both sides of an assignment, and for those of the assignment on its right. -/
theorem attached_assignmentProbes (n : Node) (hn : n.kind ≠ .lambda) :
    attached (s.assignmentProbes n) = s.assignmentProbes n.withoutLambdas := by
  obtain ⟨kind, field, text, row, flaw, children⟩ := n
  replace hn : kind ≠ .lambda := hn
  rw [withoutLambdas, if_neg hn, assignmentProbes, assignmentProbes, attached_append,
    attached_assignedProbes children, withField?_withoutLambdasAll]
  cases withField? .left children with
  | none => rfl
  | some left => simp [attached_targetProbes]

theorem attached_assignedProbes (cs : List Node) :
    attached (s.assignedProbes cs) = s.assignedProbes (withoutLambdasAll cs) := by
  match cs with
  | [] => rfl
  | c :: rest =>
    rw [assignedProbes, withoutLambdasAll, assignedProbes, field_withoutLambdas,
      kind_withoutLambdas]
    split
    · split
      · rename_i hassign
        exact attached_assignmentProbes c (by rw [hassign]; decide)
      · exact attached_probes false c
    · exact attached_assignedProbes rest

end

theorem child?_withoutLambdas {n : Node} (h : n.kind ≠ .lambda) (f : Field) :
    n.withoutLambdas.child? f = (n.child? f).map withoutLambdas := by
  rw [child?, child?, children_withoutLambdas h, withField?_withoutLambdasAll]

/-- **The probes of a statement outside its lambdas are those of the statement without them.** -/
theorem attached_statementProbes (e : Node) :
    attached (s.statementProbes e) = s.statementProbes e.withoutLambdas := by
  unfold statementProbes
  rw [kind_withoutLambdas]
  split
  · rename_i hkind
    exact attached_assignmentProbes e (by rw [hkind]; decide)
  · rename_i hkind
    have hne : e.kind ≠ .lambda := by rw [hkind]; decide
    rw [attached_append, child?_withoutLambdas hne, child?_withoutLambdas hne]
    congr 1
    · cases e.child? .left with
      | none => rfl
      | some left => exact attached_targetProbes true left
    · cases e.child? .right with
      | none => rfl
      | some right => exact attached_probes false right
  · exact attached_probes false e

end Scope

end Interlock
