/-!
# Reachability

`reach next n frontier seen` adds to `seen` all that can be reached from `frontier` in at most `n`
steps of `next`. As each round finds something new or ends, as many rounds as there are vertices
suffice.
-/

namespace Interlock.Graph

/-- What `next` leads to from a list of vertices and has not been seen, each once. -/
def fresh (next : Nat → List Nat) (frontier seen : List Nat) : List Nat :=
  ((frontier.flatMap next).filter fun v => !seen.contains v).eraseDups

/-- All that has been seen or can be reached from the frontier, in at most the given number of
rounds. -/
def reach (next : Nat → List Nat) : Nat → List Nat → List Nat → List Nat
  | 0, _, seen => seen
  | rounds + 1, frontier, seen =>
    let found := fresh next frontier seen
    if found.isEmpty then seen else reach next rounds found (seen ++ found)

/-- All vertices that can be reached from `v` within a graph of `n` vertices. -/
def reachable (next : Nat → List Nat) (n : Nat) (v : Nat) : List Nat := reach next n [v] [v]

end Interlock.Graph
