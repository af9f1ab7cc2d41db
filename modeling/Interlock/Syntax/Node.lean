import Interlock.Syntax.Kind

/-!
# Syntax trees

A `Node` is a syntax tree of a Python file. It carries the text that it covers, so that a rule
never needs the file itself.

* `Node.child?` finds the child in a given role, `Node.named` the children that stand for grammar
  rules, `Node.first?` the first of these.
* `Node.collect` gathers the nodes of one kind below a node.
* `Node.firstFlaw?` finds the first error in the order of the text by descending only where there
  is one; `Node.preorder` lists all nodes in that order.
-/

namespace Interlock.Syntax

/-- A node of a syntax tree with everything below it. -/
structure Node where
  kind : Kind
  /-- The role of the node below its parent. -/
  field : Option Field
  /-- The text that the node covers. -/
  text : String
  /-- The line on which the node starts, counted from zero. -/
  row : Nat
  flaw : Option Flaw
  children : List Node
  deriving Repr, Inhabited

namespace Node

/-- The line on which the node starts, counted from one. -/
def line (n : Node) : Nat := n.row + 1

/-- Missing tokens are listed in a tree but stand for no grammar rule. -/
def isNamed (n : Node) : Bool := n.flaw != some .missingToken

/-- The children that stand for grammar rules. -/
def named (n : Node) : List Node := n.children.filter isNamed

/-- The first child that stands for a grammar rule. -/
def first? (n : Node) : Option Node := n.named.head?

/-- The first node of a list that has a given role. -/
def withField? (f : Field) (nodes : List Node) : Option Node :=
  nodes.find? fun c => c.field = some f

/-- The child in a given role. -/
def child? (n : Node) (f : Field) : Option Node := withField? f n.children

mutual

/-- The nodes of kind `wanted` below a node, outermost only, in the order of the text. Nothing
below a node of kind `stop` is looked at. -/
def collect (wanted : Kind) (stop : Option Kind) : Node → List Node
  | ⟨_, _, _, _, _, children⟩ => collectAmong wanted stop children

/-- The same for a list of siblings, which are themselves candidates. -/
def collectAmong (wanted : Kind) (stop : Option Kind) : List Node → List Node
  | [] => []
  | c :: rest =>
    let here :=
      if !c.isNamed then []
      else if c.kind = wanted then [c]
      else if some c.kind = stop then []
      else collect wanted stop c
    here ++ collectAmong wanted stop rest

end

/-! ## Errors -/

mutual

/-- The node itself and all nodes below it, in the order of the text. -/
def preorder : Node → List Node
  | n@⟨_, _, _, _, _, children⟩ => n :: preorderAll children

/-- All nodes of a list of trees. -/
def preorderAll : List Node → List Node
  | [] => []
  | n :: rest => preorder n ++ preorderAll rest

end

mutual

/-- Whether the tree holds an error or a missing node. -/
def hasFlaw : Node → Bool
  | ⟨_, _, _, _, flaw, children⟩ => flaw.isSome || anyFlaw children

/-- Whether one of the trees holds an error or a missing node. -/
def anyFlaw : List Node → Bool
  | [] => false
  | n :: rest => hasFlaw n || anyFlaw rest

end

mutual

/-- The first error or missing node, found by descending only into trees that hold one. -/
def firstFlaw? : Node → Option Node
  | n@⟨_, _, _, _, flaw, children⟩ => if flaw.isSome then some n else firstFlawAmong? children

/-- The first error or missing node of a list of trees. -/
def firstFlawAmong? : List Node → Option Node
  | [] => none
  | n :: rest =>
    if hasFlaw n then (firstFlaw? n).or (firstFlawAmong? rest) else firstFlawAmong? rest

end

/-- The line of the first error, counted from one. -/
def firstErrorLine? (root : Node) : Option Nat :=
  if root.hasFlaw then root.firstFlaw?.map line else none

end Node

end Interlock.Syntax
