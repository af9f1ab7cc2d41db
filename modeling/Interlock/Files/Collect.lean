import Interlock.Files.Ignore
import Interlock.Files.Source
import Interlock.Settings.Basic

/-!
# Collecting source files

`collect` lists the source files below a directory. What it leaves out is decided for each entry in
this order (`skips`):

* the patterns of the settings, which are relative to the directory where the walk starts;
* the ignore files of the directories that the entry is in, the nearest first, also above the start
  of the walk (`verdict?`);
* an entry whose name starts with a dot is left out unless an ignore file keeps it.

A directory that is left out is not entered. The start itself is never left out.
-/

namespace Interlock.Files

/-- Why files cannot be collected. -/
inductive CollectError where
  | notFound (path : String)
  /-- A pattern, the line that it was read as, and what is wrong with its glob. -/
  | invalidPattern (pattern line : String) (cause : GlobError)
  deriving DecidableEq, Repr, Inhabited

namespace CollectError

/-- What went wrong, without the cause. -/
def headline : CollectError → String
  | notFound path => s!"Path does not exist: {path}"
  | invalidPattern pattern _ _ => s!"Invalid exclude pattern '{pattern}'"

def message (e : CollectError) : String :=
  match e with
  | notFound _ => e.headline
  | invalidPattern _ line cause => s!"{e.headline}: error parsing glob '{line}': {cause.message}"

end CollectError

/-- The ignore files of one directory. -/
structure Level where
  /-- Rules that always apply. -/
  general : IgnoreRules
  /-- Rules that apply inside a repository. -/
  tracked : IgnoreRules
  /-- Rules of a repository that are not part of it. -/
  untracked : IgnoreRules
  /-- The directory is the top of a repository. -/
  isRepository : Bool
  /-- The directory lies above the start of the walk; its paths are absolute. -/
  isAbove : Bool
  deriving Inhabited

/-- Takes a carriage return off the end of a line. -/
def stripReturn (line : String) : String :=
  match line.toList.reverse with
  | '\r' :: before => String.ofList before.reverse
  | _ => line

/-- The lines of a file, up to the first one that is no text. -/
def textLines (bytes : ByteArray) : List String :=
  let lines := bytes.toList.foldr
    (fun b ls =>
      if b = '\n'.toNat.toUInt8 then [] :: ls
      else
        match ls with
        | [] => [[b]]
        | l :: rest => (b :: l) :: rest)
    [[]]
  let texts := lines.map fun l => String.fromUTF8? ⟨l.toArray⟩
  (texts.takeWhile Option.isSome).filterMap (·.map stripReturn)

/-- The rules that a file of a directory holds. A mark of byte order at its beginning does not
count. -/
def rulesOf (dir : String) (entry : Option Entry) : IgnoreRules :=
  match entry with
  | some (.file f) =>
    match textLines f.bytes with
    | first :: rest => .ofLines dir (Text.dropStart "\ufeff" first :: rest)
    | [] => .ofLines dir []
  | _ => .ofLines dir []

/-- The ignore files among the entries of a directory. -/
def Level.of (dir : String) (isAbove : Bool) (entries : Entries) : Level where
  general := rulesOf dir (entries.get? ".ignore")
  tracked := rulesOf dir (entries.get? ".gitignore")
  untracked := rulesOf dir (entries.find? [".git", "info", "exclude"])
  isRepository := (entries.get? ".git").isSome
  isAbove

/-- The levels that lie inside the innermost repository. -/
def insideRepository (levels : List Level) : List Level :=
  if levels.any Level.isRepository then
    let below := levels.takeWhile fun l => !l.isRepository
    levels.take (below.length + 1)
  else []

/-- What the ignore files say about an entry. The levels come nearest first; `path` is the path of
the entry from the start of the walk on, and `full` its absolute path. -/
def verdict? (levels : List Level) (path full : String) (isDir : Bool) : Option Verdict :=
  let decide (rules : Level → IgnoreRules) (l : Level) : Option Verdict :=
    (rules l).decide? (if l.isAbove then full else path) isDir
  let inside := insideRepository levels
  (levels.findSome? (decide Level.general)) <|>
    (inside.findSome? (decide Level.tracked)) <|>
    (inside.findSome? (decide Level.untracked))

/-- Where a walk starts. -/
structure Start where
  path : String
  /-- The same place as an absolute path. -/
  full : String
  excluded : IgnoreRules
  deriving Inhabited

/-- The absolute path of an entry below the start. -/
def Start.absolute (s : Start) (path : String) : String :=
  let path := Text.dropStart "./" path
  let below :=
    if s.path = "." then path
    else Text.dropStart "/" (Text.dropStart (Text.dropStart "./" s.path) path)
  Path.join s.full below

/-- Whether an entry is left out. The exclusions are rules that keep what they describe, and here
stand for the opposite. -/
def skips (s : Start) (levels : List Level) (path name : String) (isDir : Bool) : Bool :=
  match s.excluded.decide? path isDir with
  | some v => v = .keep
  | none =>
    match verdict? levels path (s.absolute path) isDir with
    | some v => v = .leaveOut
    | none => name.toList.head? = some '.'

mutual

/-- The source files at or below an entry of a directory. -/
def collectEntry (s : Start) (levels : List Level) (dir name : String) : Entry → List String
  | .file _ =>
    let path := Path.join dir name
    if isSource path && !skips s levels path name false then [path] else []
  | .dir entries =>
    let path := Path.join dir name
    if skips s levels path name true then []
    else collectEntries s (Level.of path false entries :: levels) path entries

/-- The source files at or below some entries of a directory. -/
def collectEntries (s : Start) (levels : List Level) (dir : String) :
    List (String × Entry) → List String
  | [] => []
  | (name, entry) :: rest =>
    collectEntry s levels dir name entry ++ collectEntries s levels dir rest

end

/-- The ignore files of the directories above a place, the nearest first. -/
def levelsAbove (fs : FileSystem) (place : List String) : List Level :=
  (List.range place.length).reverse.map fun depth =>
    let above := place.take depth
    Level.of (FileSystem.absolute above) true (Entries.ofEntry (fs.root.find? above))

/-- The rules that leave out what some patterns describe, each of which is read as a rule that
keeps it. -/
def exclusions (root : String) (patterns : List String) : Except CollectError IgnoreRules := do
  let rules ← patterns.mapM fun p =>
    match IgnoreRule.read s!"!{p}" with
    | .rule r => .ok [r]
    | .nothing => .ok []
    | .invalid line cause => .error (.invalidPattern p line cause)
  return ⟨Text.dropStart "./" root, rules.flatten⟩

/-- The source files below a directory, or a single source file, as they are found. -/
def find (fs : FileSystem) (root : String) (exclude : ExcludeSettings) :
    Except CollectError (List String) := do
  match fs.locate root with
  | .error _ => throw (.notFound root)
  | .ok place =>
    match fs.root.find? place with
    | some (.file _) => return if isSource root then [root] else []
    | none => throw (.notFound root)
    | some (.dir entries) =>
      let excluded ← exclusions root exclude.patterns
      let start : Start := ⟨root, FileSystem.absolute place, excluded⟩
      let levels := Level.of root false entries :: levelsAbove fs place
      return collectEntries start levels root entries

/-- The source files below a directory, or a single source file, in the order of paths. -/
def collect (fs : FileSystem) (root : String) (exclude : ExcludeSettings) :
    Except CollectError (List String) :=
  (find fs root exclude).map fun found => found.mergeSort fun a b => (Path.compare a b).isLE

end Interlock.Files
