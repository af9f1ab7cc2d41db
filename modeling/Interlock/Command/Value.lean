import Interlock.Number.Decimal

/-!
# Values of arguments

What the options and operands of a command line take (`ArgKind`), how their texts are read
(`ArgKind.read`), and what can be wrong with a command line (`UsageError`).
-/

namespace Interlock.Command

/-- What is wrong with the text of a number. -/
inductive ValueFault where
  | noDigits
  | invalidDigit
  | tooLarge
  | notSeconds (text : String)
  | notPositive
  deriving DecidableEq, Repr, Inhabited

def ValueFault.message : ValueFault → String
  | noDigits => "cannot parse integer from empty string"
  | invalidDigit => "invalid digit found in string"
  | tooLarge => "number too large to fit in target type"
  | notSeconds text => s!"'{text}' is not a valid number of seconds"
  | notPositive => "must be a positive number of seconds"

/-- Why a command line asks for no command. -/
inductive UsageError where
  /-- Nothing is asked for at all. -/
  | nothing
  | missingSubcommand
  | unknownSubcommand
  | unknownArgument
  | missingArgument
  /-- A value is missing, empty or none of the values that are allowed. -/
  | invalidValue
  /-- A value for an option that takes none. -/
  | excessValue
  | repeated
  | badValue (option text : String) (fault : ValueFault)
  /-- Help is asked for. -/
  | help
  /-- The version is asked for. -/
  | version
  deriving DecidableEq, Repr, Inhabited

namespace UsageError

/-- Help and version are no failures. -/
def exitCode : UsageError → Nat
  | help => 0
  | version => 0
  | _ => 2

/-- The message about a value that cannot be read. -/
def message? : UsageError → Option String
  | badValue option text fault =>
    let shown := String.ofList (option.toList.map Char.toUpper)
    some s!"error: invalid value '{text}' for '--{option} <{shown}>': {fault.message}"
  | _ => none

end UsageError

/-- What an argument takes. -/
inductive ArgKind where
  | oneOf (names : List String)
  | path
  | text
  | count
  | seconds
  deriving DecidableEq, Repr, Inhabited

/-- The value of an argument. -/
inductive ArgValue where
  | text (s : String)
  | count (n : Nat)
  | seconds (x : Float)
  deriving Repr, Inhabited

/-- Adds a digit to a number below `2 ^ 64`. -/
def addDigit (n : Nat) (c : Char) : Except ValueFault Nat :=
  if !c.isDigit then .error .invalidDigit
  else
    let next := 10 * n + (c.toNat - '0'.toNat)
    if next < Nat.pow 2 64 then .ok next else .error .tooLarge

/-- Reads a number below `2 ^ 64`, in front of which a plus sign may stand. -/
def readCount (text : String) : Except ValueFault Nat :=
  match text.toList with
  | [] => .error .noDigits
  | ['+'] => .error .invalidDigit
  | '+' :: digits => digits.foldlM addDigit 0
  | digits => digits.foldlM addDigit 0

/-- Reads a positive number of seconds. -/
def readSeconds (text : String) : Except ValueFault Float :=
  match Number.readFloat? text with
  | none => .error (.notSeconds text)
  | some x => if x.isFinite && x > 0 then .ok x else .error .notPositive

/-- Reads the text of an argument called `name`. -/
def ArgKind.read (kind : ArgKind) (name text : String) : Except UsageError ArgValue :=
  match kind with
  | .oneOf names => if names.contains text then .ok (.text text) else .error .invalidValue
  | .path => if text.isEmpty then .error .invalidValue else .ok (.text text)
  | .text => .ok (.text text)
  | .count =>
    match readCount text with
    | .ok n => .ok (.count n)
    | .error fault => .error (.badValue name text fault)
  | .seconds =>
    match readSeconds text with
    | .ok x => .ok (.seconds x)
    | .error fault => .error (.badValue name text fault)

end Interlock.Command
