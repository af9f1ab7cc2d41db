import Interlock.Data.Json.Reader
import Interlock.Data.Toml.Reader
import Interlock.Files.Tree
import Interlock.Path.Name
import Interlock.Settings.Decode

/-!
# Settings of a project

A project keeps its settings in one of two files of its directory, the first in TOML and the second
in JSON. `Settings.load` takes the first one that can be read and understood; a file that cannot is
passed over. Without any, all settings have their defaults.
-/

namespace Interlock

open Data Files

/-- Settings written in TOML. -/
def Settings.ofToml? (text : String) : Option Settings :=
  (Toml.read? text).bind (Settings.ofValue? .lenient)

/-- Settings written in JSON. -/
def Settings.ofJson? (text : String) : Option Settings :=
  (Json.read? text).bind (Settings.ofValue? .exact)

/-- The name of the file with settings in TOML. -/
def Settings.tomlFile : String := "repotoire.toml"

/-- The name of the file with settings in JSON. -/
def Settings.jsonFile : String := ".repotoirerc.json"

/-- The files with settings, and how each is read. -/
def Settings.sources : List (String × (String → Option Settings)) :=
  [(tomlFile, Settings.ofToml?), (jsonFile, Settings.ofJson?)]

/-- The directory whose settings apply to a path: the path itself, or where the file is. -/
def Settings.directory (fs : FileSystem) (path : String) : String :=
  if fs.isFile path then Path.parent path else path

/-- The settings that apply to a path. -/
def Settings.load (fs : FileSystem) (path : String) : Settings :=
  let dir := directory fs path
  let found := sources.findSome? fun (name, read?) =>
    match fs.readText (Path.join dir name) with
    | .ok text => read? text
    | .error _ => none
  found.getD {}

end Interlock
