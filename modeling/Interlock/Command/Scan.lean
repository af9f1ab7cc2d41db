import Interlock.Command.Grammar

/-!
# Scanning command lines

A command line is scanned word by word (`Scan.step`). Each command on the way has a level with the
arguments given to it. A value is checked not when it is read but when the next argument begins
(`Level.settle`); so an unknown option behind a bad value is reported first.
-/

namespace Interlock.Command

/-- What has been read of one command. -/
structure Level where
  spec : CommandSpec
  /-- The values that have been checked. -/
  given : List (String × ArgValue) := []
  /-- An argument whose value has not been checked, or not even been read. -/
  pending : Option (ArgSpec × Option String) := none
  /-- The operand has been read. -/
  hasOperand : Bool := false
  /-- Everything that follows is an operand. -/
  operandsOnly : Bool := false
  deriving Inhabited

namespace Level

/-- The value of an argument. -/
def value? (l : Level) (a : ArgSpec) : Option ArgValue :=
  (l.given.find? fun g => g.1 = a.name).map Prod.snd

/-- Gives a value to an argument, which must not have one. -/
def accept (l : Level) (a : ArgSpec) (text : String) : Except UsageError Level := do
  if (l.value? a).isSome then throw .repeated
  let v ← a.kind.read a.name text
  return { l with given := l.given ++ [(a.name, v)] }

/-- Checks the value that has not been checked. -/
def settle (l : Level) : Except UsageError Level :=
  match l.pending with
  | none => .ok l
  | some (_, none) => .error .invalidValue
  | some (a, some text) => { l with pending := none }.accept a text

/-- Reads an option with the value that stands in the same word. -/
def option (l : Level) (a : ArgSpec) (attached : Option String) : Except UsageError Level := do
  let l ← l.settle
  match attached with
  | some text => l.accept a text
  | none => return { l with pending := some (a, none) }

/-- Reads a word that asks for help or the version. -/
def inform (l : Level) (e : UsageError) : Except UsageError Level := do
  let _ ← l.settle
  throw e

/-- Reads a word with a long option. -/
def long (l : Level) (name : String) (attached : Option String) : Except UsageError Level :=
  if name = "help" ∨ (name = "version" ∧ l.spec.hasVersion) then
    if attached.isSome then .error .excessValue
    else l.inform (if name = "help" then .help else .version)
  else
    match l.spec.options.find? fun a => a.name = name with
    | some a => l.option a attached
    | none => .error .unknownArgument

/-- Reads a word with a short option. -/
def short (l : Level) (letter : Char) (rest : List Char) : Except UsageError Level :=
  if letter = 'h' then l.inform .help
  else if letter = 'V' ∧ l.spec.hasVersion then l.inform .version
  else
    match l.spec.options.find? fun a => a.short = some letter with
    | none => .error .unknownArgument
    | some a =>
      match rest with
      | [] => l.option a none
      | '=' :: text => l.option a (some (String.ofList text))
      | _ => l.option a (some (String.ofList rest))

/-- Reads an operand. -/
def operand (l : Level) (word : String) : Except UsageError Level := do
  match l.spec.operand?, l.hasOperand with
  | some a, false =>
    let l ← l.settle
    return { l with pending := some (a, some word), hasOperand := true }
  | _, _ =>
    if l.spec.members.isEmpty ∨ (l.operandsOnly ∧ (l.spec.member? word).isSome) then
      throw .unknownArgument
    else throw .unknownSubcommand

/-- The option that waits for its value. -/
def waiting? (l : Level) : Option ArgSpec :=
  match l.pending with
  | some (a, none) => some a
  | _ => none

/-- Cuts a long option into its name and the value behind an equals sign. -/
def splitLong (cs : List Char) : String × Option String :=
  let name := String.ofList (cs.takeWhile (· ≠ '='))
  match cs.dropWhile (· ≠ '=') with
  | [] => (name, none)
  | _ :: text => (name, some (String.ofList text))

/-- Reads a word that names no command. -/
def word (l : Level) (text : String) : Except UsageError Level :=
  if l.operandsOnly then l.operand text
  else
    match text.toList with
    | ['-', '-'] => .ok { l with operandsOnly := true }
    | '-' :: '-' :: rest =>
      let (name, attached) := splitLong rest
      l.long name attached
    | '-' :: letter :: rest => l.short letter rest
    | _ =>
      match l.waiting? with
      | some a => .ok { l with pending := some (a, some text) }
      | none => l.operand text

/-- What is wrong with a command line that ends behind a group. -/
def unfinished (l : Level) : UsageError := if l.given.isEmpty then .nothing else .missingSubcommand

end Level

/-- What has been read of a command line. -/
structure Scan where
  /-- The innermost command. -/
  level : Level
  /-- The commands around it, the nearest first. -/
  outer : List Level := []
  /-- The command that help is asked for. -/
  helpOn : Option CommandSpec := none
  deriving Inhabited

namespace Scan

/-- The command that a word names, unless the word is a value or an operand. -/
def entered? (s : Scan) (word : String) : Option CommandSpec :=
  if s.level.operandsOnly || s.level.waiting?.isSome then none else s.level.spec.member? word

/-- Reads a word. -/
def step (s : Scan) (word : String) : Except UsageError Scan := do
  match s.helpOn with
  | some c =>
    match c.member? word with
    | some m => return { s with helpOn := some m }
    | none => throw .unknownSubcommand
  | none =>
    match s.entered? word with
    | some m =>
      if m.name = CommandSpec.helpMember.name then return { s with helpOn := some s.level.spec }
      return { s with level := { spec := m }, outer := s.level :: s.outer }
    | none => return { s with level := ← s.level.word word }

/-- Reads all words. -/
def run (words : List String) : Except UsageError Scan := do
  let s ← words.foldlM step { level := { spec := program } }
  if s.helpOn.isSome then throw .help
  return s

end Scan

end Interlock.Command
