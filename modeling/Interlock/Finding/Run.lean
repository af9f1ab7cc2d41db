import Interlock.Digest.Md5
import Interlock.Syntax.Unit

/-!
# Analysis runs

An analyser takes many units, one after another (`Run.across`). A unit that cannot be analysed does
not stop it, but leaves a diagnostic.

A finding keeps its identifier from run to run (`findingId`) as long as the analyser, the file, the
line and the title stay the same.
-/

namespace Interlock

open Syntax

/-- What was wrong with an input. -/
inductive DiagnosticKind where
  | readError
  | parseError
  | malformedUnit
  deriving DecidableEq, Repr, Inhabited

namespace DiagnosticKind

def all : List DiagnosticKind := [readError, parseError, malformedUnit]

def name : DiagnosticKind → String
  | readError => "read_error"
  | parseError => "parse_error"
  | malformedUnit => "malformed_unit"

def ofName? (s : String) : Option DiagnosticKind := all.find? fun k => k.name = s

end DiagnosticKind

/-- A problem with an input, reported beside the findings. -/
structure Diagnostic where
  path : String
  line : Option Nat
  kind : DiagnosticKind
  message : String
  deriving DecidableEq, Repr, Inhabited

/-- The diagnostic that a refused unit leaves. -/
def Diagnostic.ofRefusal (r : Refusal) : Diagnostic := ⟨r.path, r.line?, .malformedUnit, r.message⟩

/-- How an analyser presents itself. -/
structure Analyzer where
  name : String
  description : String
  category : String
  deriving DecidableEq, Repr, Inhabited

/-- The outcome of an analyser on many units. -/
structure Run (α : Type) where
  findings : List α
  diagnostics : List Diagnostic
  analyzed : Nat
  skipped : Nat
  deriving Repr, Inhabited

/-- The identifier of a finding: sixteen hexadecimal digits, the first half of a digest. -/
def findingId (analyzer file : String) (line : Nat) (title : String) : String :=
  let message := s!"{analyzer}\n{file}\n{line}\n{title}"
  String.ofList ((Digest.Md5.hex (Digest.Md5.digest message.toUTF8.toList)).take 16)

namespace Run

variable {α σ : Type}

/-- A run before its first unit. -/
def empty : Run α := ⟨[], [], 0, 0⟩

/-- Takes note of one more unit: of what was found in it, or of why it cannot be analysed. -/
def record (run : Run α) : Except Refusal (List α) → Run α
  | .ok found => { run with findings := run.findings ++ found, analyzed := run.analyzed + 1 }
  | .error refusal =>
    { run with
      diagnostics := run.diagnostics ++ [.ofRefusal refusal]
      skipped := run.skipped + 1 }

/-- Takes one more unit. A step gets what the units before have left, and leaves something for those
that follow, whether or not it can analyse its unit. -/
def visit (step : σ → SourceUnit → Except Refusal (List α) × σ) (before : Run α × σ)
    (u : SourceUnit) : Run α × σ :=
  let (outcome, state) := step before.2 u
  (before.1.record outcome, state)

/-- Takes one unit after another. -/
def across (step : σ → SourceUnit → Except Refusal (List α) × σ) (start : σ)
    (units : List SourceUnit) : Run α × σ :=
  units.foldl (visit step) (empty, start)

end Run

end Interlock
