import Interlock.Flow.Expression
import Interlock.Proofs.Syntax.Roles

/-!
# The uses of the object in an expression

An attribute of the object, such as `self.q`, is used in a manner that depends on where it stands:
it is read, called, changed by a call of a method, or assigned. `Scope.usesIn` lists the attributes
of the object in an expression in the order of the text, each with its manner (`Use`).

Not every use is looked at. A chain such as `self.a[i].b` is taken as one use of `self.a`, and what
stands in the indices on the way is passed over, except for the first index of a subscript that is
itself assigned or itself the object of a method call. So is what stands in the parameters of a
lambda. Such a use is `hidden`.
-/

namespace Interlock

open Syntax

/-- How an attribute of the object is used, and on which line. -/
inductive Manner where
  | read (line : Nat)
  | call (line : Nat)
  /-- A method of the attribute is called. -/
  | method (name : String) (line : Nat)
  /-- The attribute is assigned, or something that is reached through it. -/
  | assign (readModifyWrite direct : Bool) (line : Nat)
  deriving DecidableEq, Repr

/-- What an expression is for the one around it. -/
inductive Position where
  | evaluated
  | callee
  | target (readModifyWrite : Bool)
  /-- A part of a chain that is rooted in an attribute of the object. The `outer` part of a chain is
  assigned itself, or a method of it is called. -/
  | chain (manner : Manner) (outer : Bool)
  deriving DecidableEq, Repr

/-- Where an expression stands. -/
structure Spot where
  position : Position
  /-- In a lambda. -/
  detached : Bool
  /-- Where nothing is looked at. -/
  hidden : Bool
  deriving DecidableEq, Repr

/-- An attribute of the object with where it stands. -/
structure Use where
  node : Node
  manner : Manner
  detached : Bool
  hidden : Bool

/-- The manner in which an attribute of the object is used at a position. -/
def Position.manner (line : Nat) : Position → Manner
  | evaluated => .read line
  | callee => .call line
  | target readModifyWrite => .assign readModifyWrite true line
  | chain manner _ => manner

namespace Scope

variable (s : Scope)

/-- An attribute of the object. -/
def isOwnAttr (n : Node) : Bool := n.kind = .attr && (n.child? .object).any s.isReceiver

mutual

/-- The attribute of the object in which a chain of attributes and subscripts is rooted. -/
def rootOf? : Node → Option Node
  | n@⟨kind, _, _, _, _, children⟩ =>
    if s.isOwnAttr n then some n
    else if kind = .attr then rootOfField? .object children
    else if kind = .subscript then rootOfField? .value children
    else none

def rootOfField? (f : Field) : List Node → Option Node
  | [] => none
  | c :: rest => if c.field = some f then rootOf? c else rootOfField? f rest

end

def isRooted (n : Node) : Bool := (s.rootOf? n).isSome

end Scope

namespace Position

/-- What an expression is for its parts: the start of a chain is one of its parts. -/
def settle (s : Scope) (n : Node) : Position → Position
  | evaluated => if n.kind = .attr ∧ s.isRooted n then chain (.read n.line) false else evaluated
  | callee => if n.kind = .attr ∧ s.isRooted n then callee else evaluated
  | target readModifyWrite =>
    if s.isRooted n then chain (.assign readModifyWrite false n.line) true
    else if Scope.isCompoundTarget n.kind then target readModifyWrite
    else evaluated
  | chain manner outer => chain manner outer

end Position

namespace Spot

/-- Where a part of an expression stands, given its role. Of several indices the first is
`fresh`. -/
def part (n : Node) (fresh : Bool) (role : Option Field) (p : Spot) : Spot :=
  match p.position with
  | .evaluated =>
    if n.kind = .lambda then ⟨.evaluated, true, p.hidden || role ≠ some .body⟩
    else if n.kind = .call ∧ role = some .function then { p with position := .callee }
    else p
  | .callee =>
    if role = some .object then
      let method := ((n.child? .attr).map Node.text).getD ""
      { p with position := .chain (.method method n.line) true }
    else { p with position := .evaluated }
  | .target _ => p
  | .chain manner outer =>
    if n.kind = .attr ∧ role = some .object ∨ n.kind = .subscript ∧ role = some .value then
      { p with position := .chain manner false }
    else { p with position := .evaluated, hidden := p.hidden || !(outer && fresh) }

end Spot

namespace Scope

variable (s : Scope)

mutual

/-- The attributes of the object in an expression, in the order of the text. -/
def usesIn (p : Spot) : Node → List Use
  | n@⟨_, _, _, _, _, children⟩ =>
    if s.isOwnAttr n then [⟨n, p.position.manner n.line, p.detached, p.hidden⟩]
    else usesAmong n { p with position := p.position.settle s n } true children

/-- The same for the parts of an expression. -/
def usesAmong (n : Node) (p : Spot) (fresh : Bool) : List Node → List Use
  | [] => []
  | c :: rest =>
    usesIn (p.part n fresh c.field) c ++
      usesAmong n p (fresh && c.field ≠ some .subscript) rest

end

/-- What a use comes to, unless the attribute is no state of the class. -/
def useProbe? (u : Use) : Option Probe := do
  let attr ← u.node.child? .attr
  let object ← u.node.child? .object
  match u.manner with
  | .read line => s.probe? u.detached attr.text object.text .read line false none
  | .call line =>
    if s.isOwnMethod attr.text then some (.ownCall u.detached attr.text line)
    else s.probe? u.detached attr.text object.text .read line false none
  | .method name line =>
    if mutates name then s.probe? u.detached attr.text object.text .write line false (some name)
    else s.probe? u.detached attr.text object.text .read line false none
  | .assign readModifyWrite direct line =>
    s.probe? u.detached attr.text object.text .write line readModifyWrite
      (if direct then none else some "[]")

/-- What the uses come to that are looked at. -/
def seen (us : List Use) : List Probe :=
  (us.filter fun u => !u.hidden).filterMap s.useProbe?

/-! ## Every attribute of the object once -/

variable {s} {n : Node} {p : Spot}

/-- An attribute of the object is used once, in the manner of its position. -/
theorem usesIn_of_own (h : s.isOwnAttr n = true) (p : Spot) :
    s.usesIn p n = [⟨n, p.position.manner n.line, p.detached, p.hidden⟩] := by
  obtain ⟨kind, field, text, row, flaw, children⟩ := n
  rw [usesIn, if_pos h]

theorem usesIn_of_not_own (h : s.isOwnAttr n = false) (p : Spot) :
    s.usesIn p n = s.usesAmong n { p with position := p.position.settle s n } true n.children := by
  obtain ⟨kind, field, text, row, flaw, children⟩ := n
  rw [usesIn, if_neg (by simp [h])]

theorem isOwnAttr_of_leaf (h : n.children = []) : s.isOwnAttr n = false := by
  simp [isOwnAttr, Node.child?, Node.withField?, h]

theorem usesIn_of_leaf (h : n.children = []) (p : Spot) : s.usesIn p n = [] := by
  rw [usesIn_of_not_own (isOwnAttr_of_leaf h), h]
  rfl

/-- What stands for the object is a plain name. -/
theorem children_of_isReceiver (hn : n.Formed) (h : s.isReceiver n = true) : n.children = [] := by
  have hkind : n.kind = .identifier := by
    simp only [isReceiver, Bool.and_eq_true, decide_eq_true_eq] at h
    exact h.1
  exact hn.token (.inr (by rw [hkind]; rfl))

theorem kind_of_isOwnAttr (h : s.isOwnAttr n = true) : n.kind = .attr := by
  simp only [isOwnAttr, Bool.and_eq_true, decide_eq_true_eq] at h
  exact h.1

theorem exists_object_of_isOwnAttr (h : s.isOwnAttr n = true) :
    ∃ object, n.child? .object = some object ∧ s.isReceiver object = true := by
  simp only [isOwnAttr, Bool.and_eq_true] at h
  exact (Option.any_eq_true _ _).1 h.2

/-- Below an attribute of the object there are tokens only. -/
theorem children_of_isOwnAttr (hn : n.Everywhere Node.Formed) (h : s.isOwnAttr n = true) :
    ∀ c ∈ n.children, c.children = [] := by
  intro c hc
  obtain ⟨honce, -, hleaves⟩ := hn.here.attr (kind_of_isOwnAttr h)
  by_cases hfield : c.field = some .object
  · obtain ⟨object, hobject, hreceiver⟩ := exists_object_of_isOwnAttr h
    obtain rfl := honce.eq_of_mem hobject hc hfield
    exact children_of_isReceiver (hn.child hc).here hreceiver
  · exact hleaves c hc (by simpa using hfield)

theorem filter_preorder_of_leaf {c : Node} (h : c.children = []) :
    c.preorder.filter s.isOwnAttr = [] := by
  rw [Node.preorder_eq, h, List.flatMap_nil,
    List.filter_cons_of_neg (by simp [isOwnAttr_of_leaf h])]
  rfl

/-- If each part lists its attributes of the object once, so do the parts together. -/
theorem map_node_usesAmong {nodes : List Node}
    (h : ∀ c ∈ nodes, ∀ q, (s.usesIn q c).map Use.node = c.preorder.filter s.isOwnAttr)
    (m : Node) (q : Spot) (fresh : Bool) :
    (s.usesAmong m q fresh nodes).map Use.node =
      (nodes.flatMap Node.preorder).filter s.isOwnAttr := by
  induction nodes generalizing fresh with
  | nil => rfl
  | cons c rest ih =>
    obtain ⟨hc, hrest⟩ := List.forall_mem_cons.1 h
    rw [usesAmong, List.map_append, hc, ih hrest, List.flatMap_cons, List.filter_append]

/-- The uses in an expression are its attributes of the object, each once and in the order of the
text. -/
theorem map_node_usesIn (hn : n.Everywhere Node.Formed) (p : Spot) :
    (s.usesIn p n).map Use.node = n.preorder.filter s.isOwnAttr := by
  induction n using Node.ofChildren generalizing p with
  | h n ih =>
    rw [Node.preorder_eq]
    cases hown : s.isOwnAttr n with
    | true =>
      have hbelow : (n.children.flatMap Node.preorder).filter s.isOwnAttr = [] := by
        rw [List.filter_flatMap]
        exact List.flatMap_eq_nil_iff.2 fun c hc =>
          filter_preorder_of_leaf (children_of_isOwnAttr hn hown c hc)
      rw [usesIn_of_own hown, List.filter_cons_of_pos hown, hbelow]
      rfl
    | false =>
      rw [usesIn_of_not_own hown, List.filter_cons_of_neg (by simp [hown])]
      exact map_node_usesAmong (fun c hc q => ih c hc (hn.child hc) q) _ _ _

end Scope

end Interlock
