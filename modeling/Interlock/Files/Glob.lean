/-!
# Globs

A glob describes paths byte by byte. `?` stands for one byte and `*` for any number of them, neither
for a slash; `**` between slashes stands for any number of directories; a class in brackets stands
for one of its bytes, and braces for one of the alternatives in them. A backslash takes the next
character as it is.

* `Glob.parse` reads a glob into the alternatives that its braces allow, each a list of pieces.
* `Piece.rests` lists what can be left of a path behind a piece, and `Glob.matches` follows all
  possibilities at once.
-/

namespace Interlock.Files

/-- A piece of a glob. -/
inductive Piece where
  | byte (b : UInt8)
  /-- Any byte but a slash. -/
  | any
  /-- Any number of bytes but slashes. -/
  | run
  /-- One byte of a class, or one outside it. -/
  | oneOf (negated : Bool) (ranges : List (UInt8 × UInt8))
  /-- At the beginning: any directories. -/
  | anyStart
  /-- At the end: anything below. -/
  | anyBelow
  /-- In between: a slash, or any directories between two. -/
  | anyBetween
  deriving DecidableEq, Repr, Inhabited

def slash : UInt8 := '/'.toNat.toUInt8

/-- A text and all its ends. -/
def ends : List UInt8 → List (List UInt8)
  | [] => [[]]
  | b :: rest => (b :: rest) :: ends rest

/-- What is left behind each slash. -/
def behindSlashes : List UInt8 → List (List UInt8)
  | [] => []
  | b :: rest => if b = slash then rest :: behindSlashes rest else behindSlashes rest

/-- What is left behind any number of bytes that are no slashes. -/
def behindRun : List UInt8 → List (List UInt8)
  | [] => [[]]
  | b :: rest => if b = slash then [b :: rest] else (b :: rest) :: behindRun rest

/-- Whether a byte lies in one of some ranges. -/
def inClass (ranges : List (UInt8 × UInt8)) (b : UInt8) : Bool :=
  ranges.any fun r => r.1 ≤ b && b ≤ r.2

/-- What can be left of a path behind a piece. -/
def Piece.rests : Piece → List UInt8 → List (List UInt8)
  | byte b, c :: rest => if b = c then [rest] else []
  | any, c :: rest => if c = slash then [] else [rest]
  | run, s => behindRun s
  | oneOf negated ranges, c :: rest => if inClass ranges c = negated then [] else [rest]
  | anyStart, s => s :: behindSlashes s
  | anyBelow, c :: rest => if c = slash then ends rest else []
  | anyBetween, c :: rest => if c = slash then rest :: behindSlashes rest else []
  | _, [] => []

/-- A glob as the alternatives that its braces allow. -/
structure Glob where
  alternatives : List (List Piece)
  deriving DecidableEq, Repr, Inhabited

/-- Whether a list of pieces describes a path. A lone `**` describes every path. -/
def Piece.matchAll (pieces : List Piece) (path : List UInt8) : Bool :=
  if pieces = [.anyStart] then true
  else (pieces.foldl (fun left p => (left.flatMap p.rests).eraseDups) [path]).contains []

/-- Whether a glob describes a path. -/
def Glob.matches (g : Glob) (path : String) : Bool :=
  g.alternatives.any fun pieces => Piece.matchAll pieces path.toUTF8.toList

/-! ## Reading globs -/

/-- Why a text is no glob. -/
inductive GlobError where
  | unclosedClass
  /-- A range whose end comes before its start. -/
  | emptyRange (first last : Char)
  | unopenedGroup
  | unclosedGroup
  /-- A backslash at the end. -/
  | danglingEscape
  deriving DecidableEq, Repr, Inhabited

def GlobError.message : GlobError → String
  | unclosedClass => "unclosed character class; missing ']'"
  | emptyRange first last => s!"invalid range; '{first}' > '{last}'"
  | unopenedGroup =>
    "unopened alternate group; missing '\x7b' (maybe escape '\x7d' with '[\x7d]'?)"
  | unclosedGroup =>
    "unclosed alternate group; missing '\x7d' (maybe escape '\x7b' with '[\x7b]'?)"
  | danglingEscape => "dangling '\\'"

/-- A part of a glob before its alternatives are written out. -/
inductive Part where
  | piece (p : Piece)
  | group (branches : List (List Part))
  deriving Inhabited

mutual

/-- The lists of pieces that a part stands for. -/
def Part.expand : Part → List (List Piece)
  | .piece p => [[p]]
  | .group branches =>
    let written := expandBranches branches
    if written.isEmpty then [[]] else written

/-- The lists of pieces that a list of parts stands for. -/
def expandAll : List Part → List (List Piece)
  | [] => [[]]
  | p :: rest => p.expand.flatMap fun front => (expandAll rest).map (front ++ ·)

/-- The lists of pieces that one of some branches stands for. Empty branches do not count. -/
def expandBranches : List (List Part) → List (List Piece)
  | [] => []
  | b :: rest => (expandAll b).filter (fun ps => !ps.isEmpty) ++ expandBranches rest

end

/-- The bytes of a character. -/
def bytesOf (c : Char) : List UInt8 := (String.singleton c).toUTF8.toList

/-- The parts that stand for a character as it is. -/
def literalParts (c : Char) : List Part := (bytesOf c).map fun b => .piece (.byte b)

/-- The ranges of bytes that a range of characters stands for: its ends are written out byte by byte
with a dash between them. -/
def byteRanges (r : Char × Char) : List (UInt8 × UInt8) :=
  let first := bytesOf r.1
  let last := bytesOf r.2
  if r.1 = r.2 then first.map fun b => (b, b)
  else
    first.dropLast.map (fun b => (b, b)) ++ [(first.getLastD 0, last.headD 0)] ++
      (last.drop 1).map fun b => (b, b)

/-- A class as far as it has been read. -/
structure ClassState where
  /-- The ranges, the latest first. -/
  ranges : List (Char × Char)
  /-- Whether a dash has been read that may belong to a range. -/
  inRange : Bool
  isFirst : Bool

/-- Ends the latest range at a character. -/
def ClassState.extend (s : ClassState) (c : Char) : Except GlobError ClassState :=
  match s.ranges with
  | (a, _) :: rest => if c < a then .error (.emptyRange a c) else .ok ⟨(a, c) :: rest, false, false⟩
  | [] => .ok ⟨[(c, c)], false, false⟩

/-- Reads a class behind its opening bracket, up to its closing one. -/
def readClass (s : ClassState) :
    List Char → Except GlobError (List (Char × Char) × List Char)
  | [] => .error .unclosedClass
  | c :: rest =>
    if c = ']' ∧ !s.isFirst then
      .ok ((if s.inRange then ('-', '-') :: s.ranges else s.ranges).reverse, rest)
    else if c = '-' ∧ !s.isFirst ∧ !s.inRange then readClass ⟨s.ranges, true, false⟩ rest
    else if s.inRange then (s.extend c).bind fun s => readClass s rest
    else readClass ⟨(c, c) :: s.ranges, false, false⟩ rest

/-- Reads a class with its mark for negation. -/
def readBrackets (cs : List Char) : Except GlobError (Piece × List Char) :=
  let (negated, cs) :=
    match cs with
    | '!' :: rest => (true, rest)
    | '^' :: rest => (true, rest)
    | _ => (false, cs)
  (readClass ⟨[], false, true⟩ cs).map fun r => (.oneOf negated (r.1.flatMap byteRanges), r.2)

/-- A group whose closing brace has not been read. -/
structure OpenGroup where
  /-- The branches that are complete, the latest first. -/
  branches : List (List Part)
  /-- What stands in front of the group, the latest part first. -/
  before : List Part

/-- A glob as far as it has been read. -/
structure GlobState where
  /-- The parts of the current branch, the latest first. -/
  parts : List Part := []
  groups : List OpenGroup := []
  /-- The latest character. -/
  previous : Option Char := none

namespace GlobState

def push (s : GlobState) (c : Char) (ps : List Part) : GlobState :=
  { s with parts := ps.reverse ++ s.parts, previous := some c }

/-- Closes the innermost group. -/
def close (s : GlobState) : Except GlobError GlobState :=
  match s.groups with
  | [] => .error .unopenedGroup
  | g :: outer =>
    .ok ⟨.group ((s.parts.reverse :: g.branches).reverse) :: g.before, outer, some '\x7d'⟩

/-- Starts the next branch of the innermost group; outside groups a comma is a comma. -/
def comma (s : GlobState) : GlobState :=
  match s.groups with
  | [] => s.push ',' (literalParts ',')
  | g :: outer => ⟨[], { g with branches := s.parts.reverse :: g.branches } :: outer, some ','⟩

/-- Replaces the slash in front of two stars by a piece for any directories. -/
def directories (s : GlobState) (piece : Piece) (previous : Char) : GlobState :=
  match s.parts with
  | .piece .anyStart :: _ | .piece .anyBelow :: _ => { s with previous := some previous }
  | _ :: rest => { s with parts := .piece piece :: rest, previous := some previous }
  | [] => { s with previous := some previous }

/-- Two stars that are nothing but two stars. -/
def twoRuns (s : GlobState) : GlobState := s.push '*' [.piece .run, .piece .run]

/-- Two stars at the beginning of a branch, in front of a slash or at the end. -/
def start (s : GlobState) (previous : Char) : GlobState := s.push previous [.piece .anyStart]

/-- Whether two stars can stand for directories: they come behind a slash, or begin a branch. -/
def mayRecurse (s : GlobState) : Bool :=
  s.previous = some '/' ||
    (!s.groups.isEmpty && (s.previous = some ',' || s.previous = some '\x7b'))

end GlobState

/-- Reads two stars, given what follows them, and says whether they take a slash behind them. -/
def readStars (s : GlobState) (next : Option Char) : GlobState × Bool :=
  if s.parts.isEmpty then
    match next with
    | none => (s.start '*', false)
    | some '/' => (s.start '/', true)
    | some _ => (s.twoRuns, false)
  else if !s.mayRecurse then (s.twoRuns, false)
  else
    match next with
    | none => (s.directories .anyBelow '*', false)
    | some '/' => (s.directories .anyBetween '/', true)
    | some c =>
      if !s.groups.isEmpty && (c = ',' || c = '\x7d') then (s.directories .anyBelow '*', false)
      else (s.twoRuns, false)

/-- Reads the parts of a glob. The first argument bounds the number of characters. -/
def readParts : Nat → GlobState → List Char → Except GlobError (List Part)
  | 0, s, _ => .ok s.parts.reverse
  | _ + 1, s, [] => if s.groups.isEmpty then .ok s.parts.reverse else .error .unclosedGroup
  | fuel + 1, s, c :: rest =>
    match c with
    | '?' => readParts fuel (s.push c [.piece .any]) rest
    | '*' =>
      match rest with
      | '*' :: rest =>
        let (s, takesSlash) := readStars s rest.head?
        readParts fuel s (if takesSlash then rest.drop 1 else rest)
      | _ => readParts fuel (s.push c [.piece .run]) rest
    | '[' => do
      let (p, rest) ← readBrackets rest
      readParts fuel (s.push ']' [.piece p]) rest
    | '\x7b' => readParts fuel ⟨[], ⟨[], s.parts⟩ :: s.groups, some c⟩ rest
    | '\x7d' => s.close.bind fun s => readParts fuel s rest
    | ',' => readParts fuel s.comma rest
    | '\\' =>
      match rest with
      | [] => .error .danglingEscape
      | d :: rest => readParts fuel (s.push d (literalParts d)) rest
    | _ => readParts fuel (s.push c (literalParts c)) rest

/-- Reads a glob. Every step takes a character, so one step more than characters is enough. -/
def Glob.parse (text : String) : Except GlobError Glob :=
  let cs := text.toList
  (readParts (cs.length + 1) {} cs).map fun parts => ⟨expandAll parts⟩

end Interlock.Files
