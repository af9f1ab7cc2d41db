import Interlock.Graph.Circuit
import Interlock.Text.Basic

/-!
# The lock-order graph

Locks are the vertices, and an edge from `a` to `b` says that `b` was somewhere taken while `a` was
held. Each edge keeps the site where it was first seen (`LockGraph.addSite`).

`LockGraph.cycles` lists the elementary cycles, each starting at its least lock, shorter ones first.
-/

namespace Interlock

/-- A place where one lock is taken while another is held. -/
structure AcquisitionSite where
  held : String
  acquired : String
  path : String
  line : Nat
  routine : String
  deriving DecidableEq, Repr, Inhabited

/-- The locks seen and the order in which they are taken. -/
structure LockGraph where
  /-- The locks in the order in which they were first seen. -/
  locks : List String
  /-- The first site of each edge, in the order in which they were seen. -/
  sites : List AcquisitionSite
  deriving DecidableEq, Repr, Inhabited

/-- What a walk adds to a graph. -/
inductive Observation where
  | lock (name : String)
  | site (s : AcquisitionSite)
  deriving DecidableEq, Repr, Inhabited

namespace LockGraph

def empty : LockGraph := ⟨[], []⟩

/-- The place of a lock in the order in which locks were seen. -/
def place? (g : LockGraph) (name : String) : Option Nat := g.locks.idxOf? name

/-- Adds a lock, unless it is there, and answers with its place. -/
def addLock (g : LockGraph) (name : String) : Nat × LockGraph :=
  match g.place? name with
  | some i => (i, g)
  | none => (g.locks.length, { g with locks := g.locks ++ [name] })

/-- The first site of an edge. -/
def site? (g : LockGraph) (held acquired : String) : Option AcquisitionSite :=
  g.sites.find? fun s => s.held = held && s.acquired = acquired

def hasEdge (g : LockGraph) (held acquired : String) : Bool := (g.site? held acquired).isSome

/-- Adds a site and its locks, and answers whether it shows a new edge. No lock comes before itself,
and the first site of an edge is kept. -/
def addSite (g : LockGraph) (s : AcquisitionSite) : Bool × LockGraph :=
  if s.held = s.acquired then (false, g)
  else
    let (_, g) := g.addLock s.held
    let (_, g) := g.addLock s.acquired
    if g.hasEdge s.held s.acquired then (false, g)
    else (true, { g with sites := g.sites ++ [s] })

/-- Adds what was observed, and counts the new edges. -/
def add (g : LockGraph) : Observation → Nat × LockGraph
  | .lock name =>
    let (_, g) := g.addLock name
    (0, g)
  | .site s =>
    let (isNew, g) := g.addSite s
    (isNew.toNat, g)

/-- Adds one observation after another, and counts the new edges. -/
def addAll (g : LockGraph) : List Observation → Nat × LockGraph
  | [] => (0, g)
  | o :: rest =>
    let (first, g) := g.add o
    let (more, g) := g.addAll rest
    (first + more, g)

def edgeCount (g : LockGraph) : Nat := g.sites.length

/-- The locks in order. -/
def sortedLocks (g : LockGraph) : List String := g.locks.mergeSort Text.le

/-- Enters the edge of a site between the ranks of its locks. -/
def enter (names : List String) (adj : Graph.Adjacency) (s : AcquisitionSite) : Graph.Adjacency :=
  adj.modify (names.idxOf s.held) (· ++ [names.idxOf s.acquired])

/-- The graph on the ranks of the locks in their order. Edges are entered in the order in which they
were seen, and then the successors of each lock are sorted. -/
def adjacency (g : LockGraph) : Graph.Adjacency :=
  let names := g.sortedLocks
  let entered := g.sites.foldl (enter names) (List.replicate names.length [])
  entered.map fun successors => successors.mergeSort fun i j => decide (i ≤ j)

/-- At most so many cycles are listed: a dense graph has too many to be of use. -/
def maxCycles : Nat := 1000

/-- The order of lists of names of one length. -/
def compareNames : List String → List String → Ordering
  | [], [] => .eq
  | [], _ :: _ => .lt
  | _ :: _, [] => .gt
  | a :: as, b :: bs => (compare a b).then (compareNames as bs)

/-- Shorter cycles come first. -/
def compareCycles (a b : List String) : Ordering :=
  (compare a.length b.length).then (compareNames a b)

/-- The elementary cycles of a graph. -/
def cycles (g : LockGraph) : List (List String) :=
  let names := g.sortedLocks
  let found := (Graph.circuits g.adjacency maxCycles).map fun c => c.map fun i => names.getD i ""
  found.mergeSort fun a b => (compareCycles a b).isLE

end LockGraph

end Interlock
