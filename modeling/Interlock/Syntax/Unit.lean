import Interlock.Syntax.Node

/-!
# Source units

A source unit is one file with its syntax tree. The analyses read a unit only if its tree is that of
a whole module without errors (`SourceUnit.check`); otherwise the unit is refused for one of the
reasons in `Refusal`.
-/

namespace Interlock.Syntax

/-- One file with its syntax tree. -/
structure SourceUnit where
  path : String
  source : String
  tree : Node
  deriving Inhabited

/-- Why a unit cannot be analysed. -/
inductive Refusal where
  /-- The tree has an error, the first one on `line`. -/
  | malformed (path : String) (line : Nat)
  /-- The root of the tree is no module. -/
  | unexpectedRoot (path : String) (kind : String)
  deriving DecidableEq, Repr

namespace Refusal

def path : Refusal → String
  | malformed path _ => path
  | unexpectedRoot path _ => path

/-- The line to point at, where one is known. -/
def line? : Refusal → Option Nat
  | malformed _ line => some line
  | unexpectedRoot _ _ => none

def message : Refusal → String
  | malformed path line => s!"{path}: syntax error at line {line}, unit skipped"
  | unexpectedRoot path kind => s!"{path}: expected a Python module, found '{kind}'"

end Refusal

namespace SourceUnit

/-- Accept the unit, or say why it cannot be analysed. The root is looked at first. -/
def check (u : SourceUnit) : Except Refusal Unit :=
  if u.tree.kind ≠ .module then .error (.unexpectedRoot u.path u.tree.kind.name)
  else
    match u.tree.firstErrorLine? with
    | some line => .error (.malformed u.path line)
    | none => .ok ()

end SourceUnit

end Interlock.Syntax
