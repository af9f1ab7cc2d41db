import Interlock.Command.Run

/-!
# The program

The arguments are a command line, and the names of the files of the project come on standard input,
one a line. The outline of the syntax tree of a source file stands in a file of the same name with
`.outline` behind it.
-/

namespace Interlock.Program

open Files

/-- The lines of a stream, without what ends them. -/
partial def readLines (input : IO.FS.Stream) : IO (List String) := do
  let line ← input.getLine
  if line.isEmpty then return []
  let name := String.ofList (line.toList.filter fun c => c ≠ '\n' && c ≠ '\r')
  return name :: (← readLines input)

/-- The bytes of a file, if it can be read. -/
def readBytes? (path : String) : IO (Option ByteArray) := do
  try
    return some (← IO.FS.readBinFile path)
  catch _ => return none

/-- Adds a file to the file system. -/
def load (fs : FileSystem) (path : String) : IO FileSystem := do
  match ← readBytes? path with
  | none => return fs
  | some bytes =>
    let outline ← readBytes? s!"{path}.outline"
    return fs.add path ⟨bytes, outline.bind String.fromUTF8?⟩

/-- Writes the file that a command has changed. -/
def store (before after : FileSystem) (path : String) : IO Unit := do
  match after.readText path, before.readText path with
  | .ok new, .ok old => if new ≠ old then IO.FS.writeFile path new
  | .ok new, .error _ => IO.FS.writeFile path new
  | .error _, _ => return

end Interlock.Program

open Interlock Interlock.Files in
/-- Carries out the command line on the files named on standard input. -/
def main (args : List String) : IO UInt32 := do
  match Command.Invocation.parse args with
  | .error e =>
    IO.eprintln (e.message?.getD "error: the command line is not valid")
    return e.exitCode.toUInt32
  | .ok invocation =>
    let here := (Path.split (toString (← IO.currentDir)).toList).filter (!·.isEmpty)
    let names ← Program.readLines (← IO.getStdin)
    let fs ← names.foldlM Program.load (.empty (here.map String.ofList))
    let (after, outcome) := invocation.command.run fs
    for path in invocation.command.writes do
      Program.store fs after path
    IO.print outcome.stdout
    IO.eprint outcome.stderr
    return outcome.exitCode.toUInt32
