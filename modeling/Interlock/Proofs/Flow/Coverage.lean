import Interlock.Proofs.Flow.Accesses
import Interlock.Proofs.Syntax.Build
import Mathlib.Logic.Relation

/-!
# No access is lost where it is looked for

Every attribute of the object in an expression, however deep it stands, comes to exactly one access
or own call, in the order of the text (`Scope.accesses_kept`), with two exceptions: it is dropped if
its name is no state of the class (`Scope.passesOver`), and it is overlooked in the indices of a
chain and in the parameters of a lambda (`Scope.Overlooked`). Of the indices of a chain, the first
is not overlooked if the subscript is itself assigned or a method of it is called; `Use.hidden` is
exact.
-/

namespace Interlock

open Syntax Relation

/-- A chain, and the part of it that its last attribute or subscript is taken of. -/
def Syntax.Node.Link (n b : Node) : Prop :=
  b ∈ n.children ∧
    (n.kind = .attr ∧ b.field = some .object ∨ n.kind = .subscript ∧ b.field = some .value)

/-- The name of the attribute. -/
def Use.attr (u : Use) : String := ((u.node.child? .attr).map Node.text).getD ""

def Manner.isCall : Manner → Bool
  | .call _ => true
  | _ => false

namespace Scope

variable {s : Scope} {c : ClassFacts} {n : Node} {p : Spot}

/-! ## What is dropped -/

/-- The name of something that is no state of the class. -/
def isStateless (s : Scope) (c : ClassFacts) (name : String) : Bool :=
  isSpecialName name || c.methods.contains name || c.lockAttrs.contains name ||
    s.names.looksLikeLock name

/-- A use that comes to nothing. The call of a method of the class is none of these. -/
def passesOver (s : Scope) (c : ClassFacts) (u : Use) : Bool :=
  s.isStateless c u.attr && !(u.manner.isCall && c.methods.contains u.attr)

/-- An access in a class is reported unless the attribute is no state of it. -/
theorem isSome_probe? (hs : s.owner = some c) (d : Bool) (attr receiver : String)
    (kind : AccessKind) (line : Nat) (rmw : Bool) (via : Option String) :
    (s.probe? d attr receiver kind line rmw via).isSome = !s.isStateless c attr := by
  rw [probe?, hs]
  change (if s.isStateless c attr then none else some _ : Option Probe).isSome = _
  cases s.isStateless c attr <;> rfl

/-- A use comes to something unless it is dropped. -/
theorem isSome_useProbe? (hs : s.owner = some c) {u : Use} (hnode : u.node.Formed)
    (hown : s.isOwnAttr u.node = true) : (s.useProbe? u).isSome = !s.passesOver c u := by
  obtain ⟨attr, hattr⟩ := (hnode.attr (kind_of_isOwnAttr hown)).2.1.exists_withField?
  obtain ⟨object, hobject, -⟩ := exists_object_of_isOwnAttr hown
  have hname : u.attr = attr.text := by
    rw [Use.attr, Node.child?, hattr]
    rfl
  rw [useProbe?, Node.child?, hattr, hobject, passesOver, hname]
  obtain ⟨node, manner, detached, hidden⟩ := u
  cases manner with
  | read line => simp [isSome_probe? hs, Manner.isCall]
  | call line =>
    have hmethod : s.isOwnMethod attr.text = c.methods.contains attr.text := by
      rw [isOwnMethod, hs, Option.any_some]
    cases h : c.methods.contains attr.text with
    | true =>
      rw [h] at hmethod
      simp [hmethod, Manner.isCall]
    | false =>
      rw [h] at hmethod
      simp [hmethod, isSome_probe? hs, Manner.isCall]
  | method name line => cases h : mutates name <;> simp [h, isSome_probe? hs, Manner.isCall]
  | assign rmw direct line => simp [isSome_probe? hs, Manner.isCall]

theorem forall₂_filterMap {α β : Type} (f : α → Option β) (xs : List α) :
    List.Forall₂ (fun x y => f x = some y) (xs.filter fun x => (f x).isSome) (xs.filterMap f) := by
  induction xs with
  | nil => exact .nil
  | cons x rest ih =>
    cases h : f x with
    | none =>
      rw [List.filter_cons_of_neg (by simp [h]), List.filterMap_cons_none h]
      exact ih
    | some y =>
      rw [List.filter_cons_of_pos (by simp [h]), List.filterMap_cons_some h]
      exact .cons h ih

/-! ## What is overlooked -/

/-- Something stands in the parameters of a lambda, or in an index on the way of a chain that is
rooted in an attribute of the object. The chain ends with a node of one of the kinds `ends`. -/
def Overlooked (s : Scope) (ends : List Kind) (n m : Node) : Prop :=
  ∃ e ∈ n.preorder, ∃ b ∈ e.children, m ∈ b.preorder ∧
    (e.kind = .lambda ∧ b.field ≠ some .body ∨
      e.kind = .subscript ∧ b.field ≠ some .value ∧ s.isRooted e = true ∧
        ∃ a ∈ n.preorder, a.kind ∈ ends ∧ ReflTransGen Node.Link a e)

/-- What is taken for a part of a chain is one. -/
structure WellPlaced (s : Scope) (ends : List Kind) (whole n : Node) (p : Position) : Prop where
  chain : ∀ manner outer, p = .chain manner outer →
    s.isRooted n = true ∧ ∃ a ∈ whole.preorder, a.kind ∈ ends ∧ ReflTransGen Node.Link a n
  target : ∀ readModifyWrite, p = .target readModifyWrite → Kind.subscript ∈ ends

section Parts

variable {ends : List Kind} {whole b : Node}

theorem wellPlaced_evaluated : s.WellPlaced ends whole n .evaluated := ⟨by simp, by simp⟩

theorem wellPlaced_callee : s.WellPlaced ends whole n .callee := ⟨by simp, by simp⟩

/-- A target may be a subscript, so a chain may end with one there. -/
theorem wellPlaced_target (h : Kind.subscript ∈ ends) (rmw : Bool) :
    s.WellPlaced ends whole n (.target rmw) :=
  ⟨by simp, fun _ _ => h⟩

theorem wellPlaced_chain {a : Node} (hroot : s.isRooted n = true) (ha : a ∈ whole.preorder)
    (hkind : a.kind ∈ ends) (hchain : ReflTransGen Node.Link a n) (manner : Manner) (outer : Bool) :
    s.WellPlaced ends whole n (.chain manner outer) :=
  ⟨fun _ _ _ => ⟨hroot, a, ha, hkind, hchain⟩, by simp⟩

theorem isRooted_of_child {f : Field} (honce : Once f n.children) (hb : b ∈ n.children)
    (hfield : b.field = some f) (hn : s.rootOf? n = (n.child? f).bind s.rootOf?)
    (h : s.isRooted n = true) : s.isRooted b = true := by
  obtain ⟨d, hd⟩ := honce.exists_withField?
  obtain rfl := honce.eq_of_mem hd hb hfield
  rw [isRooted, hn, Node.child?, hd] at h
  exact h

/-- The links of a chain are rooted in the same attribute. -/
theorem isRooted_of_link (hn : n.Formed) (hown : s.isOwnAttr n = false) (hroot : s.isRooted n = true)
    (h : n.Link b) : s.isRooted b = true := by
  obtain ⟨hb, ⟨hkind, hfield⟩ | ⟨hkind, hfield⟩⟩ := h
  · exact isRooted_of_child (hn.attr hkind).1 hb hfield (rootOf?_of_attr hown hkind) hroot
  · exact isRooted_of_child (hn.subscript hkind).1 hb hfield (rootOf?_of_subscript hkind) hroot

theorem kind_of_isRooted (h : s.isRooted n = true) : n.kind = .attr ∨ n.kind = .subscript := by
  by_contra hkind
  rw [not_or] at hkind
  simp [isRooted, rootOf?_of_ne hkind.1 hkind.2] at h

/-- An expression that is settled as called is an attribute on a chain. -/
theorem of_settle_eq_callee {p : Position} (h : p.settle s n = .callee) :
    n.kind = .attr ∧ s.isRooted n = true := by
  cases p with
  | callee =>
    rw [Position.settle] at h
    split_ifs at h with hn
    exact hn
  | evaluated | target _ =>
    rw [Position.settle] at h
    split_ifs at h
  | chain manner outer => cases h

/-- What the walk takes a position for, once it has looked at the node, is right too. -/
theorem WellPlaced.settle {p : Position} (hends : Kind.attr ∈ ends) (hmem : n ∈ whole.preorder)
    (h : s.WellPlaced ends whole n p) : s.WellPlaced ends whole n (p.settle s n) := by
  cases p with
  | evaluated =>
    rw [Position.settle]
    split_ifs with hn
    · exact wellPlaced_chain hn.2 hmem (hn.1 ▸ hends) .refl _ _
    · exact wellPlaced_evaluated
  | callee =>
    rw [Position.settle]
    split_ifs
    · exact wellPlaced_callee
    · exact wellPlaced_evaluated
  | target rmw =>
    rw [Position.settle]
    split_ifs with hn hcompound
    · refine wellPlaced_chain hn hmem ?_ .refl _ _
      rcases kind_of_isRooted hn with hkind | hkind
      · exact hkind ▸ hends
      · exact hkind ▸ h.target rmw rfl
    · exact h
    · exact wellPlaced_evaluated
  | chain manner outer => exact h

/-- The parts of an expression fit if it does itself. -/
theorem WellPlaced.part (hn : n.Formed) (hown : s.isOwnAttr n = false) (hends : Kind.attr ∈ ends)
    (hmem : n ∈ whole.preorder) (h : s.WellPlaced ends whole n p.position) (hb : b ∈ n.children)
    (fresh : Bool) :
    s.WellPlaced ends whole b
      (Spot.part n fresh b.field { p with position := p.position.settle s n }).position := by
  have hcallee := of_settle_eq_callee (s := s) (n := n) (p := p.position)
  have h := h.settle hends hmem
  generalize p.position.settle s n = position at h hcallee
  unfold Spot.part
  cases position with
  | evaluated =>
    dsimp only
    split_ifs
    · exact wellPlaced_evaluated
    · exact wellPlaced_callee
    · exact wellPlaced_evaluated
  | callee =>
    obtain ⟨hkind, hroot⟩ := hcallee rfl
    dsimp only
    split_ifs with hfield
    · have hlink : n.Link b := ⟨hb, .inl ⟨hkind, hfield⟩⟩
      exact wellPlaced_chain (isRooted_of_link hn hown hroot hlink) hmem (hkind ▸ hends)
        (.single hlink) _ _
    · exact wellPlaced_evaluated
  | target rmw => exact wellPlaced_target (h.target rmw rfl) rmw
  | chain manner outer =>
    obtain ⟨hroot, a, ha, hkind, hchain⟩ := h.chain manner outer rfl
    dsimp only
    split_ifs with hpart
    · have hlink : n.Link b := ⟨hb, hpart⟩
      exact wellPlaced_chain (isRooted_of_link hn hown hroot hlink) ha hkind (hchain.tail hlink) _ _
    · exact wellPlaced_evaluated

/-- The first part that is not looked at is an index on the way of a chain, a parameter of a lambda,
or a leaf. -/
theorem WellPlaced.hides (hn : n.Formed) (hends : Kind.attr ∈ ends) (hmem : n ∈ whole.preorder)
    (h : s.WellPlaced ends whole n p.position) (hvisible : p.hidden = false) (hb : b ∈ n.children)
    {fresh : Bool} (hhidden :
      (Spot.part n fresh b.field { p with position := p.position.settle s n }).hidden = true) :
    b.children = [] ∨ n.kind = .lambda ∧ b.field ≠ some .body ∨
      n.kind = .subscript ∧ b.field ≠ some .value ∧ s.isRooted n = true ∧
        ∃ a ∈ whole.preorder, a.kind ∈ ends ∧ ReflTransGen Node.Link a n := by
  have h := h.settle hends hmem
  generalize p.position.settle s n = position at h hhidden
  unfold Spot.part at hhidden
  cases position with
  | evaluated =>
    dsimp only at hhidden
    split_ifs at hhidden with hlambda
    · exact .inr (.inl ⟨hlambda, by simpa [hvisible] using hhidden⟩)
    all_goals simp [hvisible] at hhidden
  | callee =>
    dsimp only at hhidden
    split_ifs at hhidden <;> simp [hvisible] at hhidden
  | target rmw => simp [hvisible] at hhidden
  | chain manner outer =>
    have hchain := h.chain manner outer rfl
    dsimp only at hhidden
    split_ifs at hhidden with hpart
    · simp [hvisible] at hhidden
    · rcases kind_of_isRooted hchain.1 with hkind | hkind
      · refine .inl ((hn.attr hkind).2.2 b hb ?_)
        simpa using fun hfield => hpart (.inl ⟨hkind, hfield⟩)
      · exact .inr (.inr ⟨hkind, fun hfield => hpart (.inr ⟨hkind, hfield⟩), hchain⟩)

end Parts

theorem exists_of_mem_usesAmong {u : Use} {fresh : Bool} {nodes : List Node}
    (h : u ∈ s.usesAmong n p fresh nodes) :
    ∃ b ∈ nodes, ∃ fresh, u ∈ s.usesIn (p.part n fresh b.field) b := by
  induction nodes generalizing fresh with
  | nil => nomatch h
  | cons b rest ih =>
    rw [usesAmong] at h
    rcases List.mem_append.1 h with h | h
    · exact ⟨b, List.mem_cons_self, fresh, h⟩
    · obtain ⟨d, hd, h⟩ := ih h
      exact ⟨d, List.mem_cons_of_mem _ hd, h⟩

/-- Each use is that of an attribute of the object in the expression. -/
theorem node_of_mem_usesIn (hn : n.Everywhere Node.Formed) {u : Use} (hu : u ∈ s.usesIn p n) :
    u.node ∈ n.preorder ∧ s.isOwnAttr u.node = true := by
  rw [← List.mem_filter, ← map_node_usesIn hn p]
  exact List.mem_map_of_mem hu

/-- What is not looked at is overlooked. -/
theorem overlooked_of_hidden {ends : List Kind} {whole : Node} (hends : Kind.attr ∈ ends)
    (hn : n.Everywhere Node.Formed) (hsub : n.preorder ⊆ whole.preorder)
    (hp : s.WellPlaced ends whole n p.position) (hvisible : p.hidden = false) {u : Use}
    (hu : u ∈ s.usesIn p n) (h : u.hidden = true) : s.Overlooked ends whole u.node := by
  induction n using Node.ofChildren generalizing p with
  | h n ih =>
    have hmem : n ∈ whole.preorder := hsub n.mem_preorder_self
    cases hown : s.isOwnAttr n with
    | true =>
      rw [usesIn_of_own hown, List.mem_singleton] at hu
      simp [hu, hvisible] at h
    | false =>
      rw [usesIn_of_not_own hown] at hu
      obtain ⟨b, hb, fresh, hu⟩ := exists_of_mem_usesAmong hu
      have hformed := hn.child hb
      cases hpart : (Spot.part n fresh b.field { p with position := p.position.settle s n }).hidden with
      | false =>
        exact ih b hb hformed (List.Subset.trans (Node.preorder_subset hb) hsub)
          (hp.part hn.here hown hends hmem hb fresh) hpart hu
      | true =>
        rcases hp.hides hn.here hends hmem hvisible hb hpart with hleaf | hplace
        · rw [usesIn_of_leaf hleaf] at hu
          nomatch hu
        · exact ⟨n, hmem, b, hb, (node_of_mem_usesIn hformed hu).1, hplace⟩

/-! ## What is kept -/

/-- What an expression does accounts for its attributes of the object. -/
structure Keeps (s : Scope) (c : ClassFacts) (ends : List Kind) (n : Node) (uses : List Use)
    (ps : List Probe) : Prop where
  /-- Each attribute of the object is used once, in the order of the text. -/
  nodes : uses.map Use.node = n.preorder.filter s.isOwnAttr
  /-- One thing is done for each use that is looked at and not dropped. -/
  probes : List.Forall₂ (fun u p => s.useProbe? u = some p)
    (uses.filter fun u => !u.hidden && !s.passesOver c u) ps
  overlooked : ∀ u ∈ uses, u.hidden = true → s.Overlooked ends n u.node
  /-- Where nothing is overlooked, one thing is done for each use that is not dropped. -/
  complete : (∀ m ∈ n.preorder, s.isOwnAttr m = true → ¬s.Overlooked ends n m) →
    List.Forall₂ (fun u p => s.useProbe? u = some p) (uses.filter fun u => !s.passesOver c u) ps

/-- **The walk keeps all uses but those it passes over or overlooks**, for every position that is
what the walk takes it for. -/
theorem keeps_usesIn {ends : List Kind} (hs : s.owner = some c) (hends : Kind.attr ∈ ends)
    (hn : n.Everywhere Node.Formed) (hp : s.WellPlaced ends n n p.position)
    (hvisible : p.hidden = false) : s.Keeps c ends n (s.usesIn p n) (s.seen (s.usesIn p n)) := by
  have hsome : ∀ u ∈ s.usesIn p n, (s.useProbe? u).isSome = !s.passesOver c u := by
    intro u hu
    obtain ⟨hmem, hown⟩ := node_of_mem_usesIn hn hu
    exact isSome_useProbe? hs (hn u.node hmem) hown
  have hprobes : List.Forall₂ (fun u p => s.useProbe? u = some p)
      ((s.usesIn p n).filter fun u => !u.hidden && !s.passesOver c u) (s.seen (s.usesIn p n)) := by
    have hfilter : (s.usesIn p n).filter (fun u => !u.hidden && !s.passesOver c u) =
        ((s.usesIn p n).filter fun u => !u.hidden).filter fun u => (s.useProbe? u).isSome := by
      rw [List.filter_filter]
      exact List.filter_congr fun u hu => by rw [hsome u hu, Bool.and_comm]
    rw [hfilter]
    exact forall₂_filterMap _ _
  have hoverlooked : ∀ u ∈ s.usesIn p n, u.hidden = true → s.Overlooked ends n u.node :=
    fun u hu h => overlooked_of_hidden hends hn (List.Subset.refl _) hp hvisible hu h
  refine ⟨map_node_usesIn hn p, hprobes, hoverlooked, fun h => ?_⟩
  have hseen : ∀ u ∈ s.usesIn p n, u.hidden = false := by
    intro u hu
    obtain ⟨hmem, hown⟩ := node_of_mem_usesIn hn hu
    exact Bool.eq_false_iff.2 fun hhidden => h u.node hmem hown (hoverlooked u hu hhidden)
  rwa [List.filter_congr fun u hu => by rw [hseen u hu, Bool.not_false, Bool.true_and]] at hprobes

/-- In a scope with a class, everything that is evaluated and every target of an assignment accounts
for the attributes of the object in it. In a target, a chain may also end with a subscript. -/
theorem accesses_kept (hs : s.owner = some c) (hn : n.Everywhere Node.Formed) :
    (∀ d, s.Keeps c [.attr] n (s.usesIn ⟨.evaluated, d, false⟩ n) (s.probes d n)) ∧
      ∀ rmw, s.Keeps c [.attr, .subscript] n (s.usesIn ⟨.target rmw, false, false⟩ n)
        (s.targetProbes rmw n) := by
  constructor
  · intro d
    rw [(traced hn).evaluated d]
    exact keeps_usesIn hs (by simp) hn wellPlaced_evaluated rfl
  · intro rmw
    rw [targetProbes_eq hn]
    exact keeps_usesIn hs (by simp) hn (wellPlaced_target (by simp) rmw) rfl

/-- What is known of a class with two methods and a lock. -/
def spool : ClassFacts := ⟨"Spool", ["drain", "step"], ["gate"], []⟩

/-- The scope of its method `drain`. -/
def draining : Scope where
  names := {}
  moduleLocks := []
  routine := ⟨"Spool.drain", "drain", some "Spool", .method⟩
  owner := some spool
  receivers := ["self", "Spool"]

/-- An attribute of the object. -/
def ours (attr : String) : Node := (Node.ident 1 "self").dot attr

/-- The call `self.q.pop()`, which changes an attribute. -/
def popping : Node := (ours "q").send "pop" []

/-- The expression `self.jobs[self.next].append(self.step(self.gate, self.seen[self.q.pop()]))`. -/
def deep : Node :=
  ((ours "jobs").item [ours "next"]).send "append"
    [(Node.ident 1 "self").send "step"
      [ours "gate", (ours "seen").item [popping]]]

/-- The access that a use of an attribute of the object comes to. -/
def accessOf (attr : String) (kind : AccessKind) (via : Option String) : Probe :=
  .access false ⟨attr, kind, 2, false, "self", via, none⟩

theorem accesses_kept_deep :
    draining.owner = some spool ∧ deep.Everywhere Node.Formed ∧
      (draining.Keeps spool [.attr] deep (draining.usesIn ⟨.evaluated, false, false⟩ deep)
          (draining.probes false deep) ∧
        draining.Keeps spool [.attr, .subscript] deep
          (draining.usesIn ⟨.target true, false, false⟩ deep) (draining.targetProbes true deep)) ∧
      draining.probes false deep =
        [accessOf "jobs" .write (some "append"), accessOf "next" .read none,
          .ownCall false "step" 2, accessOf "seen" .read none, accessOf "q" .write (some "pop")] :=
  have hformed : deep.Everywhere Node.Formed := by decide +kernel
  have hkept := accesses_kept rfl hformed
  ⟨rfl, hformed, ⟨hkept.1 false, hkept.2 true⟩, by decide +kernel⟩

/-- The expression `self.jobs[self.q.pop()].name`. -/
def buried : Node := ((ours "jobs").item [popping]).dot "name"

/-- The change that the index of `self.jobs[self.q.pop()].name` makes is lost, whether the
expression is evaluated or assigned; so is that of a second index, and that of the default of a
parameter. -/
theorem accesses_kept_buried :
    draining.owner = some spool ∧ buried.Everywhere Node.Formed ∧
      ((draining.usesIn ⟨.evaluated, false, false⟩ buried).map fun u =>
          (u.attr, u.manner, draining.passesOver spool u)) =
        [("jobs", .read 2, false), ("q", .method "pop" 2, false)] ∧
      draining.probes false popping = [accessOf "q" .write (some "pop")] ∧
      draining.probes false buried = [accessOf "jobs" .read none] ∧
      draining.targetProbes false buried = [accessOf "jobs" .write (some "[]")] ∧
      draining.targetProbes false ((ours "jobs").item [.ident 1 "i", popping]) =
        [accessOf "jobs" .write (some "[]")] ∧
      draining.probes false (.lambdaWith (.ident 1 "x") popping (.ident 1 "x")) = [] :=
  ⟨rfl, by decide +kernel⟩

end Scope

end Interlock
