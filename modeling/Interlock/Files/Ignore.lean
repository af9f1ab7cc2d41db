import Interlock.Files.Glob
import Interlock.Text.Basic

/-!
# Ignore rules

A rule is a line with a glob: it says that what the glob describes is left out, or, behind an
exclamation mark, that it is kept (`IgnoreRule`). Rules belong to a directory, and paths are looked
at relative to it. Of the rules that describe a path the last one decides (`IgnoreRules.decide?`).
-/

namespace Interlock.Files

/-- What rules say about a path. -/
inductive Verdict where
  | leaveOut
  | keep
  deriving DecidableEq, Repr, Inhabited

/-- One rule. -/
structure IgnoreRule where
  glob : Glob
  verdict : Verdict
  /-- The rule is about directories only. -/
  dirsOnly : Bool
  deriving DecidableEq, Repr, Inhabited

namespace IgnoreRule

/-- Takes the marks at the beginning off a line: what the rule says, whether its glob is tied to the
directory of the rule, and the rest. A backslash in front of a mark makes it a plain character. -/
def splitMarks (line : List Char) : Verdict × Bool × List Char :=
  match line with
  | '\\' :: '!' :: rest => (.leaveOut, false, '!' :: rest)
  | '\\' :: '#' :: rest => (.leaveOut, false, '#' :: rest)
  | '!' :: '/' :: rest => (.keep, true, rest)
  | '!' :: rest => (.keep, false, rest)
  | '/' :: rest => (.leaveOut, true, rest)
  | _ => (.leaveOut, false, line)

/-- Takes a slash at the end off a line, with a backslash in front of it. -/
def splitSlash (line : List Char) : Bool × List Char :=
  match line.reverse with
  | '/' :: '\\' :: before => (true, before.reverse)
  | '/' :: before => (true, before.reverse)
  | _ => (false, line)

/-- The glob of a line: one without a slash describes names in any directory, and one that ends in
two stars does not describe the directory itself. -/
def globText (tied : Bool) (line : List Char) : List Char :=
  let anywhere :=
    if tied || line.contains '/' || line = ['*', '*'] then line else '*' :: '*' :: '/' :: line
  if ['/', '*', '*'].isSuffixOf anywhere then anywhere ++ ['/', '*'] else anywhere

/-- Takes blanks off the end of a line, unless the last one is escaped. -/
def trim (line : List Char) : List Char :=
  if ['\\', ' '].isSuffixOf line then line else Text.trimEnd line

/-- What a line stands for: nothing, a rule, or neither. -/
inductive Reading where
  | nothing
  | rule (r : IgnoreRule)
  /-- The glob of a line, which stands here without blanks at its end, cannot be read. -/
  | invalid (line : String) (cause : GlobError)

/-- Reads a line. -/
def read (line : String) : Reading :=
  let cs := line.toList
  if cs.head? = some '#' then .nothing
  else
    let cs := trim cs
    if cs.isEmpty then .nothing
    else
      let (verdict, tied, rest) := splitMarks cs
      let (dirsOnly, rest) := splitSlash rest
      match Glob.parse (String.ofList (globText tied rest)) with
      | .ok glob => .rule ⟨glob, verdict, dirsOnly⟩
      | .error cause => .invalid (String.ofList cs) cause

end IgnoreRule

/-- The rules of a directory. -/
structure IgnoreRules where
  /-- The path of the directory. -/
  root : String
  rules : List IgnoreRule
  deriving Inhabited

namespace IgnoreRules

/-- A path relative to the directory of the rules. -/
def relative (r : IgnoreRules) (path : String) : String :=
  let path := Text.dropStart "./" path
  if r.root = "." ∨ !path.toList.contains '/' then path
  else
    match Text.after? r.root path with
    | some rest => Text.dropStart "/" rest
    | none => path

/-- What the rules say about a path. -/
def decide? (r : IgnoreRules) (path : String) (isDir : Bool) : Option Verdict :=
  let path := r.relative path
  (r.rules.reverse.find? fun rule => (isDir || !rule.dirsOnly) && rule.glob.matches path).map
    IgnoreRule.verdict

/-- The rules that the lines of a file stand for. Lines that cannot be read are passed over. -/
def ofLines (root : String) (lines : List String) : IgnoreRules where
  root := Text.dropStart "./" root
  rules := lines.filterMap fun l =>
    match IgnoreRule.read l with
    | .rule r => some r
    | _ => none

end IgnoreRules

end Interlock.Files
