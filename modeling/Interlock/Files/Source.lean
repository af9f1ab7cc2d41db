import Interlock.Files.Tree
import Interlock.Finding.Run
import Interlock.Path.Name
import Interlock.Syntax.Outline
import Interlock.Text.Quoted

/-!
# Source files

`readSource` reads one file as a source unit. `readSources` reads many: those that cannot be read
leave a diagnostic, and the others stay in order.

The parser is not part of the program: a file brings the outline of its tree with it, and `treeOf`
only reads it (`Outline.read?`). What a parser makes of other files is not known here. A file
without an outline, or with one that is none, gets the stand-in `bareTree`, which is accepted if the
file is empty and refused as broken otherwise.
-/

namespace Interlock.Files

open Syntax

/-- The extensions of source files. -/
def sourceExtensions : List String := ["py", "pyi"]

/-- Whether the name of a file says that it is a source file. -/
def isSource (path : String) : Bool :=
  (Path.extension? path).any fun e => sourceExtensions.contains e

/-- Why a source file cannot be read. -/
inductive SourceError where
  | unsupported (path : String)
  | unreadable (path : String) (cause : AccessError)
  deriving DecidableEq, Repr, Inhabited

namespace SourceError

def path : SourceError → String
  | unsupported path => path
  | unreadable path _ => path

def message : SourceError → String
  | unsupported path => s!"Unsupported file type: {path}"
  | unreadable path cause => s!"Failed to read file: {path}: {cause.message}"

def kind : SourceError → DiagnosticKind
  | unsupported _ => .parseError
  | unreadable _ _ => .readError

/-- The diagnostic that a file leaves. -/
def diagnostic (e : SourceError) : Diagnostic := ⟨e.path, none, e.kind, e.message⟩

end SourceError

/-- The stand-in for the tree of a file without an outline: an empty module, which for a file that
is not empty is marked as not understood. -/
def bareTree (source : String) : Node :=
  let junk : Node := ⟨Kind.ofName "ERROR", none, source, 0, some .error, []⟩
  ⟨.module, none, source, 0, none, if source.isEmpty then [] else [junk]⟩

/-- The tree of a source file. -/
def treeOf (source : String) (outline : Option String) : Node :=
  (outline.bind (Outline.read? source)).getD (bareTree source)

/-- Reads a source file. -/
def readSource (fs : FileSystem) (path : String) : Except SourceError SourceUnit :=
  if !isSource path then .error (.unsupported path)
  else
    match fs.read path with
    | .error cause => .error (.unreadable path cause)
    | .ok file =>
      match String.fromUTF8? file.bytes with
      | none => .error (.unreadable path .notText)
      | some source => .ok ⟨path, source, treeOf source file.outline⟩

/-- Source files that have been read, and what happened to the others. -/
structure Sources where
  units : List SourceUnit
  diagnostics : List Diagnostic
  deriving Inhabited

/-- Reads source files. -/
def readSources (fs : FileSystem) (paths : List String) : Sources where
  units := paths.filterMap fun p => (readSource fs p).toOption
  diagnostics := paths.filterMap fun p =>
    match readSource fs p with
    | .ok _ => none
    | .error e => some e.diagnostic

/-- A short text about a unit: its path and how many bytes it has. -/
def unitText (u : SourceUnit) : String :=
  let path := Text.quoted u.path
  s!"SourceUnit \x7b path: {path}, bytes: {u.source.utf8ByteSize} \x7d"

end Interlock.Files
