import Interlock.Graph.Reach

/-!
# Elementary circuits

`circuits adj limit` lists the elementary circuits of a directed graph, each once and starting at
its least vertex, until `limit` of them have been found.

For each start, the search is confined to the strongly connected component of the start among the
vertices not below it (`component?`). The search itself is a machine that makes one small move at a
time (`Search.step`). It follows simple paths from the start; a vertex from which the start could
not be reached past the current path is blocked, and it stays so until a vertex that it waits for is
released (`Search.release`). Blocking is what keeps the search from walking into the same dead end
over and over.
-/

namespace Interlock.Graph

/-- The successors of each vertex. -/
abbrev Adjacency := List (List Nat)

namespace Adjacency

/-- The successors of a vertex. -/
def next (adj : Adjacency) (v : Nat) : List Nat := adj.getD v []

/-- The successors of a vertex that are not below `start`, if it is not below it itself. -/
def nextFrom (adj : Adjacency) (start v : Nat) : List Nat :=
  if start ≤ v then (next adj v).filter fun w => start ≤ w else []

/-- The vertices not below `start` with a given successor. -/
def previousFrom (adj : Adjacency) (start w : Nat) : List Nat :=
  (List.range adj.length).filter fun v => (nextFrom adj start v).contains w

/-- The vertices not below `start` that reach it and are reached from it without going below it,
unless `start` is alone among them. -/
def component? (adj : Adjacency) (start : Nat) : Option (List Nat) :=
  let forward := reachable (nextFrom adj start) adj.length start
  let backward := reachable (previousFrom adj start) adj.length start
  let both := forward.filter backward.contains
  if both.length > 1 then some both else none

end Adjacency

/-- A vertex of the current path. -/
structure Frame where
  vertex : Nat
  /-- The successors that have not been looked at. -/
  todo : List Nat
  /-- Whether a circuit has been found by way of the vertex. -/
  found : Bool
  deriving DecidableEq, Repr, Inhabited

/-- The search for circuits through `start` within a component. -/
structure Search where
  start : Nat
  /-- The current path, its end first. -/
  frames : List Frame
  blocked : List Nat
  /-- Pairs of a vertex and one that waits for it to be released. -/
  waiting : List (Nat × Nat)
  /-- The circuits found, the latest first. -/
  circuits : List (List Nat)
  deriving DecidableEq, Repr, Inhabited

namespace Search

/-- The current path from the start on. -/
def path (s : Search) : List Nat := (s.frames.map Frame.vertex).reverse

/-- The blocked vertices that wait for `u`. -/
def waiters (s : Search) (u : Nat) : List Nat :=
  (s.waiting.filter fun p => p.1 = u && s.blocked.contains p.2).map Prod.snd

/-- Releases a vertex, with all that wait for it directly or by way of others. -/
def release (s : Search) (v : Nat) : Search :=
  let freed := reachable s.waiters (s.blocked.length + 1) v
  { s with
    blocked := s.blocked.filter fun u => !freed.contains u
    waiting := s.waiting.filter fun p => !freed.contains p.1 }

/-- Lets a vertex wait for all its successors. -/
def await (s : Search) (successors : List Nat) (v : Nat) : Search :=
  { s with waiting := (successors.map fun w => (w, v)) ++ s.waiting }

/-- The frames below one that is done, the nearest of which learns whether a circuit was found. -/
def resume (found : Bool) : List Frame → List Frame
  | [] => []
  | f :: outer => { f with found := f.found || found } :: outer

/-- One move: look at the next successor of the end of the path, or take the end off. -/
def step (next : Nat → List Nat) (s : Search) : Search :=
  match s.frames with
  | [] => s
  | ⟨v, w :: todo, found⟩ :: outer =>
    if w = s.start then
      { s with frames := ⟨v, todo, true⟩ :: outer, circuits := s.path :: s.circuits }
    else if s.blocked.contains w then { s with frames := ⟨v, todo, found⟩ :: outer }
    else
      { s with
        frames := ⟨w, next w, false⟩ :: ⟨v, todo, found⟩ :: outer
        blocked := w :: s.blocked }
  | ⟨v, [], found⟩ :: outer =>
    let s := { s with frames := resume found outer }
    if found then s.release v else s.await (next v) v

/-- Makes moves until the search is over or has found `limit` circuits. -/
def run (next : Nat → List Nat) (limit : Nat) : Nat → Search → Search
  | 0, s => s
  | moves + 1, s =>
    if s.frames.isEmpty || limit ≤ s.circuits.length then s else run next limit moves (s.step next)

/-- The state before the first move, with the circuits found from earlier starts. -/
def begin (next : Nat → List Nat) (start : Nat) (circuits : List (List Nat)) : Search :=
  ⟨start, [⟨start, next start, false⟩], [start], [], circuits⟩

end Search

/-- More moves than any search in a graph of `n` vertices makes. -/
def enoughMoves (n : Nat) : Nat := Nat.pow (n + 2) (n + 2)

/-- Adds the circuits through a start to those found so far. -/
def circuitsFrom (adj : Adjacency) (limit : Nat) (found : List (List Nat)) (start : Nat) :
    List (List Nat) :=
  if limit ≤ found.length then found
  else
    match adj.component? start with
    | none => found
    | some component =>
      let next v := (adj.next v).filter component.contains
      (Search.run next limit (enoughMoves adj.length) (.begin next start found)).circuits

/-- The elementary circuits of a graph in the order in which they are found, at most `limit`. -/
def circuits (adj : Adjacency) (limit : Nat) : List (List Nat) :=
  ((List.range adj.length).foldl (circuitsFrom adj limit) []).reverse

end Interlock.Graph
