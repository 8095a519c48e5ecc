import Waymark.Config.Decode
import Waymark.Disk
import Waymark.ImportMap
import Waymark.Toml
/-!
# Loading a configuration

The configuration and the import map of an app from the files at its root.  A
configuration is accepted only if it is without fault; an app without the file has
the defaults.

## Main results

* `faults_of_accept`, `faults_of_load` — what is accepted, or loaded, is without fault.
* `ImportMap.load_missing` — an import map that is named must be there.
-/

namespace Waymark

/-- Why a configuration could not be loaded. -/
inductive ConfigError where
  | unreadable (path : String) (cause : FileError)
  | malformed
  | malformedImportMap (path : String)
  | invalid (faults : List ConfigFault)
  deriving DecidableEq, Repr

/-- The wording of an error. -/
def ConfigError.message : ConfigError → String
  | .unreadable path cause => "IO error reading " ++ path ++ ": " ++ cause.message
  | .malformed => "Parse error"
  | .malformedImportMap path => "Invalid import map " ++ path
  | .invalid faults =>
    "Validation failed: " ++ String.intercalate ", " (faults.map ConfigFault.message)

namespace AppConfig

/-- The name of the configuration file. -/
def fileName : String := "routekit.toml"

/-- Accepts a configuration that is without fault. -/
def accept (c : AppConfig) : Except ConfigError AppConfig :=
  if c.faults = [] then .ok c.normalized else .error (.invalid c.faults)

/-- Settings that are accepted have no fault and are brought to their normal form. -/
theorem faults_of_accept {c c' : AppConfig} (h : c.accept = .ok c') :
    c.faults = [] ∧ c' = c.normalized := by
  unfold accept at h
  split at h
  · rename_i hf
    exact ⟨hf, by simpa using h.symm⟩
  · simp at h

/-- The configuration in the text of a file. -/
def parse (text : String) : Except ConfigError AppConfig :=
  match (Toml.parse text).bind AppConfig.ofJson? with
  | some c => c.accept
  | none => .error .malformed

/-- The configuration of the app on a disk. -/
def load (d : Disk) : Except ConfigError AppConfig :=
  let path := d.pathOf fileName
  if d.isFile path then
    match d.readText path with
    | .ok text => parse text
    | .error cause => .error (.unreadable path cause)
  else accept {}

/-- What is loaded is an accepted configuration. -/
theorem faults_of_load {d : Disk} {c : AppConfig} (h : load d = .ok c) :
    ∃ c₀ : AppConfig, c₀.faults = [] ∧ c = c₀.normalized := by
  unfold load at h
  dsimp only at h
  split at h
  · split at h
    · unfold parse at h
      split at h
      · exact ⟨_, faults_of_accept h⟩
      · nomatch h
    · nomatch h
  · exact ⟨{}, faults_of_accept h⟩

end AppConfig

namespace ImportMap

/-- The files that can hold an import map, in the order they are looked for. -/
def fileNames : List String :=
  ["import_map.json", "import-map.json", "importmap.json", "importMap.json"]

/-- The path of the import map: the one that is named, or the first file that is there. -/
def path? (d : Disk) (named : Option String) : Option String :=
  match named with
  | some name => some (d.pathOf name)
  | none => (fileNames.map d.pathOf).find? d.isFile

/-- The import map of the app on a disk; the empty one if there is no file. -/
def load (d : Disk) (named : Option String) : Except ConfigError ImportMap :=
  match path? d named with
  | none => .ok empty
  | some path =>
    match d.readText path with
    | .error cause => .error (.unreadable path cause)
    | .ok text =>
      match parse text with
      | some m => .ok m
      | none => .error (.malformedImportMap path)

/-- An import map that is named and cannot be read is an error with its path. -/
theorem load_missing {d : Disk} {name : String} {cause : FileError}
    (h : d.readText (d.pathOf name) = .error cause) :
    load d (some name) = .error (.unreadable (d.pathOf name) cause) := by
  simp [load, path?, h]

end ImportMap
end Waymark
