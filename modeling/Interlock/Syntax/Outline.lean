import Interlock.Syntax.Node

/-!
# Outlines of syntax trees

An outline is a syntax tree written as text: one line for each node, in the order of the text,

    depth kind field start end row [E|M|m]

where `depth` counts from the root, `field` is `-` for a node without a role, `start` and `end` are
offsets in bytes of the file, and the last letter marks an error, a missing node or a missing token.
The offsets turn into the text of the node (`Outline.slice`); the tree is put together from the last
line to the first (`Outline.graft`).
-/

namespace Interlock.Syntax

namespace Outline

/-- The text between two offsets of a file; empty where that is no text. -/
def slice (source : ByteArray) (start stop : Nat) : String :=
  (String.fromUTF8? (source.extract start stop)).getD ""

/-- The flaw that the last column of a line marks. -/
def flaw? : List String → Option Flaw
  | ["E"] => some .error
  | ["M"] => some .missing
  | ["m"] => some .missingToken
  | _ => none

/-- The depth and the node of one line, still without children. -/
def readLine? (source : ByteArray) (line : String) : Option (Nat × Node) :=
  match line.splitOn " " with
  | depth :: kind :: field :: start :: stop :: row :: marks => do
    let depth ← depth.toNat?
    let start ← start.toNat?
    let stop ← stop.toNat?
    let row ← row.toNat?
    return (depth, {
      kind := Kind.ofName kind
      field := Field.ofName? field
      text := slice source start stop
      row
      flaw := flaw? marks
      children := [] })
  | _ => none

/-- Put a node in front of the trees that follow it: those that lie deeper become its children. -/
def graft (entry : Nat × Node) (following : List (Nat × Node)) : List (Nat × Node) :=
  let below := following.takeWhile fun e => entry.1 < e.1
  let after := following.dropWhile fun e => entry.1 < e.1
  (entry.1, { entry.2 with children := below.map Prod.snd }) :: after

/-- The tree that an outline describes. -/
def read? (source : String) (outline : String) : Option Node := do
  let bytes := source.toUTF8
  let entries ← (outline.splitOn "\n").mapM (readLine? bytes)
  match entries.foldr graft [] with
  | [(_, root)] => some root
  | _ => none

end Outline

end Interlock.Syntax
