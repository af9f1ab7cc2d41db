import Interlock.Path.Basic

/-!
# Files and directories

A file system is a tree of named entries with a working directory (`FileSystem`). Paths are followed
piece by piece (`FileSystem.locate`): every piece but the last has to be a directory. What can go
wrong is an `AccessError`.

A source file may come with the outline of its syntax tree.
-/

namespace Interlock.Files

/-- A file. -/
structure File where
  bytes : ByteArray
  /-- The outline of its syntax tree, for a source file. -/
  outline : Option String := none
  deriving Inhabited

/-- A file or a directory. -/
inductive Entry where
  | file (f : File)
  | dir (entries : List (String × Entry))
  deriving Inhabited

/-- Why a file cannot be read or written. -/
inductive AccessError where
  | notFound
  | notDirectory
  | isDirectory
  /-- The bytes are no text. -/
  | notText
  deriving DecidableEq, Repr, Inhabited

def AccessError.message : AccessError → String
  | notFound => "No such file or directory (os error 2)"
  | notDirectory => "Not a directory (os error 20)"
  | isDirectory => "Is a directory (os error 21)"
  | notText => "stream did not contain valid UTF-8"

/-- The entries of a directory. -/
abbrev Entries := List (String × Entry)

namespace Entries

/-- The entry with a given name. -/
def get? (entries : Entries) (name : String) : Option Entry :=
  (entries.find? fun e => e.1 = name).map Prod.snd

/-- Puts an entry under a name. -/
def set (entries : Entries) (name : String) (entry : Entry) : Entries :=
  if (entries.get? name).isSome then
    entries.map fun e => if e.1 = name then (name, entry) else e
  else entries ++ [(name, entry)]

/-- The entry at the end of a list of names. -/
def find? : Entries → List String → Option Entry
  | entries, [] => some (.dir entries)
  | entries, [name] => entries.get? name
  | entries, name :: rest =>
    match entries.get? name with
    | some (.dir inner) => find? inner rest
    | _ => none

/-- The entries of a directory that is there, or none. -/
def ofEntry : Option Entry → Entries
  | some (.dir inner) => inner
  | _ => []

/-- Puts an entry at the end of a list of names, and makes the directories on the way. A directory
that is already there stays as it is. -/
def put : List String → Entry → Entries → Entries
  | [], _, entries => entries
  | [name], entry, entries =>
    match entry, entries.get? name with
    | .dir [], some (.dir _) => entries
    | _, _ => entries.set name entry
  | name :: rest, entry, entries =>
    entries.set name (.dir (put rest entry (ofEntry (entries.get? name))))

end Entries

/-- All files, with a working directory given by its names from the root on. -/
structure FileSystem where
  root : Entries
  working : List String
  deriving Inhabited

namespace FileSystem

/-- A file system with nothing but an empty working directory. -/
def empty (working : List String) : FileSystem :=
  ⟨Entries.put working (.dir []) [], working⟩

/-- One piece of a path, followed from a directory. -/
def follow (fs : FileSystem) (here : List String) (piece : List Char) :
    Except AccessError (List String) :=
  match fs.root.find? here with
  | none => .error .notFound
  | some (.file _) => .error .notDirectory
  | some (.dir entries) =>
    let name := String.ofList piece
    if piece.isEmpty ∨ name = "." then .ok here
    else if name = ".." then .ok here.dropLast
    else if (Entries.get? entries name).isSome then .ok (here ++ [name])
    else .error .notFound

/-- Where a path starts. -/
def startOf (fs : FileSystem) (path : String) : List String :=
  if path.toList.head? = some '/' then [] else fs.working

/-- Where a path leads to. -/
def locate (fs : FileSystem) (path : String) : Except AccessError (List String) :=
  if path.isEmpty then .error .notFound
  else (Path.split path.toList).foldlM fs.follow (fs.startOf path)

/-- What a path leads to. -/
def lookup (fs : FileSystem) (path : String) : Except AccessError Entry := do
  match fs.root.find? (← fs.locate path) with
  | some entry => return entry
  | none => throw .notFound

def isFile (fs : FileSystem) (path : String) : Bool :=
  match fs.lookup path with
  | .ok (.file _) => true
  | _ => false

def isDir (fs : FileSystem) (path : String) : Bool :=
  match fs.lookup path with
  | .ok (.dir _) => true
  | _ => false

def exists? (fs : FileSystem) (path : String) : Bool := (fs.lookup path).isOk

/-- The names of a place as an absolute path. -/
def absolute (names : List String) : String := "/" ++ "/".intercalate names

/-- The absolute path that a path leads to. -/
def canonical (fs : FileSystem) (path : String) : Except AccessError String :=
  (fs.locate path).map absolute

/-- The file that a path leads to. -/
def read (fs : FileSystem) (path : String) : Except AccessError File := do
  match ← fs.lookup path with
  | .file f => return f
  | .dir _ => throw .isDirectory

/-- The text of the file that a path leads to. -/
def readText (fs : FileSystem) (path : String) : Except AccessError String := do
  match String.fromUTF8? (← fs.read path).bytes with
  | some s => return s
  | none => throw .notText

/-- Puts an entry below the working directory. A path that ends with a slash is a directory. -/
def add (fs : FileSystem) (path : String) (file : File) : FileSystem :=
  let pieces := (Path.split path.toList).filter fun p => !p.isEmpty && p ≠ ['.']
  let entry := if path.toList.getLast? = some '/' then .dir [] else .file file
  { fs with root := Entries.put (fs.working ++ pieces.map String.ofList) entry fs.root }

/-- Writes a file, whose directory has to be there. A path that ends with a slash is no file. -/
def write (fs : FileSystem) (path : String) (text : String) : Except AccessError FileSystem := do
  let pieces := Path.split path.toList
  let backwards := pieces.reverse.dropWhile List.isEmpty
  let name := String.ofList (backwards.headD [])
  let here ← (backwards.drop 1).reverse.foldlM fs.follow (fs.startOf path)
  match fs.root.find? here with
  | some (.dir entries) =>
    if backwards.length < pieces.length ∨ name = "." ∨ name = ".." then throw .isDirectory
    match Entries.get? entries name with
    | some (.dir _) => throw .isDirectory
    | _ =>
      return { fs with root := Entries.put (here ++ [name]) (.file ⟨text.toUTF8, none⟩) fs.root }
  | some (.file _) => throw .notDirectory
  | none => throw .notFound

end FileSystem

end Interlock.Files
