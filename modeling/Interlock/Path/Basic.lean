/-!
# Paths

A path is a text with slashes between its components. Repeated slashes and inner dots do not count
(`Path.components`), and paths are ordered component by component (`Path.compare`), so that all
paths below a directory stand together.
-/

namespace Interlock.Path

/-- A component of a path. -/
inductive Component where
  | root
  /-- A dot at the beginning. -/
  | current
  | parent
  | normal (name : String)
  deriving DecidableEq, Repr, Inhabited

namespace Component

/-- The place of the kind of a component in the order. -/
def rank : Component → Nat
  | root => 0
  | current => 1
  | parent => 2
  | normal _ => 3

def compare (a b : Component) : Ordering :=
  match a, b with
  | normal x, normal y => Ord.compare x y
  | _, _ => Ord.compare a.rank b.rank

end Component

/-- Cuts a text at each slash. -/
def split (cs : List Char) : List (List Char) :=
  cs.foldr
    (fun c parts =>
      if c = '/' then [] :: parts
      else
        match parts with
        | [] => [[c]]
        | p :: rest => (c :: p) :: rest)
    [[]]

/-- What a piece between slashes stands for. -/
def component? (atStart : Bool) (piece : List Char) : Option Component :=
  if piece.isEmpty then none
  else if piece = ['.'] then if atStart then some .current else none
  else if piece = ['.', '.'] then some .parent
  else some (.normal (String.ofList piece))

/-- The components of a path. -/
def components (path : String) : List Component :=
  match path.toList with
  | '/' :: rest => .root :: (split rest).filterMap (component? false)
  | cs =>
    match split cs with
    | [] => []
    | first :: rest => (component? true first).toList ++ rest.filterMap (component? false)

/-- The order of paths, component by component. -/
def compareComponents : List Component → List Component → Ordering
  | [], [] => .eq
  | [], _ :: _ => .lt
  | _ :: _, [] => .gt
  | a :: as, b :: bs => (a.compare b).then (compareComponents as bs)

/-- The order of paths. -/
def compare (a b : String) : Ordering := compareComponents (components a) (components b)

end Interlock.Path
