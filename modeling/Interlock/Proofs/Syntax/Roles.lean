import Interlock.Proofs.Syntax.Nesting
import Mathlib.Data.List.Basic

/-!
# The parts of expressions

An expression that is rooted in another, a call and a lambda have parts in fixed roles.
`Node.Formed` says of a node that its children play the roles that the grammar gives them: each role
once, in the order of the text, and nothing else among the children but tokens. It says nothing
about statements.
-/

namespace Interlock.Syntax

/-- There is exactly one node in a role. -/
def Once (f : Field) (nodes : List Node) : Prop :=
  (nodes.filter fun c => c.field = some f).length = 1

/-- No node in the second role stands before one in the first. -/
def Precedes (f g : Field) (nodes : List Node) : Prop :=
  nodes.Pairwise fun a b => ¬(a.field = some g ∧ b.field = some f)

instance (f : Field) (nodes : List Node) : Decidable (Once f nodes) :=
  inferInstanceAs (Decidable (_ = _))

instance (f g : Field) (nodes : List Node) : Decidable (Precedes f g nodes) :=
  inferInstanceAs (Decidable (nodes.Pairwise _))

/-- Tokens, in which nothing stands. -/
def Kind.isToken : Kind → Bool
  | .comment | .identifier | .integer | .float => true
  | _ => false

/-- The nodes other than those in some roles are leaves. -/
def LeavesBut (fs : List Field) (nodes : List Node) : Prop :=
  ∀ c ∈ nodes, (∀ f ∈ fs, c.field ≠ some f) → c.children = []

instance (fs : List Field) (nodes : List Node) : Decidable (LeavesBut fs nodes) :=
  inferInstanceAs (Decidable (∀ c ∈ nodes, (∀ f ∈ fs, c.field ≠ some f) → c.children = []))

/-- The parts of an expression play the roles that the grammar gives them. -/
structure Node.Formed (n : Node) : Prop where
  token : n.isNamed = false ∨ n.kind.isToken = true → n.children = []
  attr : n.kind = .attr →
    Once .object n.children ∧ Once .attr n.children ∧ LeavesBut [.object] n.children
  subscript : n.kind = .subscript →
    Once .value n.children ∧ Precedes .value .subscript n.children ∧
      LeavesBut [.value, .subscript] n.children
  call : n.kind = .call →
    Once .function n.children ∧ Once .arguments n.children ∧
      Precedes .function .arguments n.children ∧ LeavesBut [.function, .arguments] n.children
  lambda : n.kind = .lambda → Once .body n.children

instance : DecidablePred Node.Formed := fun n =>
  decidable_of_iff
    ((n.isNamed = false ∨ n.kind.isToken = true → n.children = []) ∧
      (n.kind = .attr →
        Once .object n.children ∧ Once .attr n.children ∧ LeavesBut [.object] n.children) ∧
      (n.kind = .subscript →
        Once .value n.children ∧ Precedes .value .subscript n.children ∧
          LeavesBut [.value, .subscript] n.children) ∧
      (n.kind = .call →
        Once .function n.children ∧ Once .arguments n.children ∧
          Precedes .function .arguments n.children ∧
          LeavesBut [.function, .arguments] n.children) ∧
      (n.kind = .lambda → Once .body n.children))
    ⟨fun h => ⟨h.1, h.2.1, h.2.2.1, h.2.2.2.1, h.2.2.2.2⟩,
      fun h => ⟨h.token, h.attr, h.subscript, h.call, h.lambda⟩⟩

/-! ## Nodes in a role -/

section Roles

variable {f g : Field} {c : Node} {nodes : List Node}

theorem once_cons_of_eq (h : c.field = some f) :
    Once f (c :: nodes) ↔ ∀ d ∈ nodes, d.field ≠ some f := by
  rw [Once, List.filter_cons_of_pos (by simp [h]), List.length_cons, Nat.add_eq_right,
    List.length_eq_zero_iff, List.filter_eq_nil_iff]
  simp

theorem once_cons_of_ne (h : c.field ≠ some f) : Once f (c :: nodes) ↔ Once f nodes := by
  rw [Once, List.filter_cons_of_neg (by simp [h]), Once]

theorem withField?_cons_of_eq (h : c.field = some f) :
    Node.withField? f (c :: nodes) = some c :=
  List.find?_cons_of_pos (by simp [h])

theorem withField?_cons_of_ne (h : c.field ≠ some f) :
    Node.withField? f (c :: nodes) = Node.withField? f nodes :=
  List.find?_cons_of_neg (by simp [h])

theorem mem_of_withField? (h : Node.withField? f nodes = some c) :
    c ∈ nodes ∧ c.field = some f :=
  ⟨List.mem_of_find?_eq_some h, by simpa using List.find?_some h⟩

theorem Once.exists_withField? (h : Once f nodes) : ∃ c, Node.withField? f nodes = some c := by
  rw [← Option.isSome_iff_exists, Node.withField?, List.find?_isSome]
  obtain ⟨c, hc⟩ := List.exists_mem_of_length_pos (by rw [h]; exact Nat.one_pos)
  exact ⟨c, List.mem_filter.1 hc⟩

/-- A function that goes through siblings to the first in a role is one of that sibling. -/
theorem eq_elim_withField? {β : Type} {g : List Node → β} {h : Node → β} {b : β} (hnil : g [] = b)
    (hcons : ∀ c rest, g (c :: rest) = if c.field = some f then h c else g rest)
    (nodes : List Node) : g nodes = (Node.withField? f nodes).elim b h := by
  induction nodes with
  | nil => exact hnil
  | cons c rest ih =>
    rw [hcons]
    split
    · rw [withField?_cons_of_eq ‹_›, Option.elim_some]
    · rw [withField?_cons_of_ne ‹_›, ih]

variable {α : Type} {G : Node → List α}

/-- What all nodes but the one in a role add nothing to. -/
theorem Once.flatMap_eq (h : Once f nodes) (hG : ∀ d ∈ nodes, d.field ≠ some f → G d = [])
    (hc : Node.withField? f nodes = some c) : nodes.flatMap G = G c := by
  have hsole : SoleIn f (fun d => d.field = some f) nodes := ⟨by simp, Nat.le_of_eq h⟩
  rw [hsole.flatMap_eq fun d hd htest => hG d hd (by simpa using htest), hc]
  rfl

/-- There is no other node in the role. -/
theorem Once.eq_of_mem {a : Node} (h : Once f nodes) (ha : Node.withField? f nodes = some a)
    (hc : c ∈ nodes) (hfield : c.field = some f) : c = a := by
  have hflat : (nodes.flatMap fun d => if d.field = some f then [d] else []) = [a] := by
    rw [h.flatMap_eq (fun d _ hd => if_neg hd) ha, if_pos (mem_of_withField? ha).2]
  have hmem : c ∈ [a] := by
    rw [← hflat]
    exact List.mem_flatMap.2 ⟨c, hc, by simp [hfield]⟩
  exact List.mem_singleton.1 hmem

/-- What all nodes but those in two roles add nothing to. -/
theorem flatMap_eq_of_precedes {a b : Node} (hf : Once f nodes) (hg : Once g nodes) (hne : f ≠ g)
    (hfg : Precedes f g nodes)
    (hG : ∀ d ∈ nodes, d.field ≠ some f → d.field ≠ some g → G d = [])
    (ha : Node.withField? f nodes = some a) (hb : Node.withField? g nodes = some b) :
    nodes.flatMap G = G a ++ G b := by
  induction nodes with
  | nil => nomatch ha
  | cons c rest ih =>
    obtain ⟨hc, hrest⟩ := List.forall_mem_cons.1 hG
    obtain ⟨hbefore, hfg⟩ := List.pairwise_cons.1 hfg
    rw [List.flatMap_cons]
    by_cases hcf : c.field = some f
    · have hcg : c.field ≠ some g := by simpa [hcf] using hne
      rw [withField?_cons_of_eq hcf] at ha
      obtain rfl := Option.some.inj ha
      rw [withField?_cons_of_ne hcg] at hb
      have hnone := (once_cons_of_eq hcf).1 hf
      rw [((once_cons_of_ne hcg).1 hg).flatMap_eq (fun d hd => hrest d hd (hnone d hd)) hb]
    · rw [once_cons_of_ne hcf] at hf
      rw [withField?_cons_of_ne hcf] at ha
      by_cases hcg : c.field = some g
      · obtain ⟨hmem, hfield⟩ := mem_of_withField? ha
        exact absurd ⟨hcg, hfield⟩ (hbefore a hmem)
      · rw [once_cons_of_ne hcg] at hg
        rw [withField?_cons_of_ne hcg] at hb
        rw [hc hcf hcg, List.nil_append, ih hf hg hfg hrest ha hb]

end Roles

end Interlock.Syntax
