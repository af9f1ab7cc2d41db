import Interlock.Path.Basic

/-!
# Names of files

Parts of a path as text: the directory that it is in, its last name, and the extension of that name.
-/

namespace Interlock.Path

/-- A name below a directory. -/
def join (dir name : String) : String :=
  if dir.isEmpty then name
  else if dir.toList.getLast? = some '/' then dir ++ name
  else s!"{dir}/{name}"

/-- The directory that a file is in. -/
def parent (path : String) : String :=
  match path.toList.reverse.dropWhile (· ≠ '/') with
  | [] => ""
  | ['/'] => "/"
  | _ :: before => String.ofList before.reverse

/-- The last name of a path. -/
def fileName? (path : String) : Option String :=
  match (components path).getLast? with
  | some (.normal name) => some name
  | _ => none

/-- What stands behind the last dot of a name, unless the dot is its first character. -/
def extensionOf? (name : String) : Option String :=
  let backwards := name.toList.reverse
  match backwards.dropWhile (· ≠ '.') with
  | [] | ['.'] => none
  | _ => some (String.ofList (backwards.takeWhile (· ≠ '.')).reverse)

/-- The extension of a path. -/
def extension? (path : String) : Option String := (fileName? path).bind extensionOf?

end Interlock.Path
