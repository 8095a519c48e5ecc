import Waymark.Bundle.Job
import Waymark.Disk
import Waymark.Remote
/-!
# Build errors and output files

Why a build failed, and how its files are written and read.

## Main results

* `BuildError.message` — the wording of every error.
* `writeOutput_of_parent_error` — a file whose directory cannot be made is not written.
-/

namespace Waymark

/-- Why a build failed. -/
inductive BuildError where
  | unsupportedPlatform (p : Platform)
  | io (path : String) (cause : FileError)
  | routes (cause : RouteError)
  | fetch (cause : FetchError)
  /-- The module server did not serve a module. -/
  | module (specifier : Specifier) (status : Nat)
  | bundle (message : String)
  /-- A walk over modules met its bound before it came to its end. -/
  | tooLarge
  deriving DecidableEq, Repr

/-- The wording of an error. -/
def BuildError.message : BuildError → String
  | .unsupportedPlatform p => "Deploy to " ++ p.title ++ " is not supported yet"
  | .io path cause => "I/O error at " ++ path ++ ": " ++ cause.message
  | .routes cause => cause.message
  | .fetch cause => cause.message
  | .module s status => "module server answered " ++ toString status ++ " for " ++ s
  | .bundle message => "bundling failed: " ++ message
  | .tooLarge => "too many modules"

namespace Build

/-- Makes the directories that lead to a file. -/
def makeWay (d : Disk) (path : String) : Except BuildError Disk :=
  let dir := (Disk.parent path).getD ""
  (d.ensureDirectory dir).mapError (.io dir)

/-- Writes a file. -/
def writeFile (d : Disk) (path : String) (content : ByteArray) : Except BuildError Disk :=
  (d.write path content).mapError (.io path)

/-- Writes a file, with the directories that lead to it. -/
def writeOutput (d : Disk) (path : String) (content : ByteArray) : Except BuildError Disk := do
  let d ← makeWay d path
  writeFile d path content

/-- Without its directory a file is not written; the error names the directory. -/
theorem writeOutput_of_parent_error {d : Disk} {path : String} {content : ByteArray}
    {cause : FileError} (h : d.ensureDirectory ((Disk.parent path).getD "") = .error cause) :
    writeOutput d path content = .error (.io ((Disk.parent path).getD "") cause) := by
  unfold writeOutput makeWay
  dsimp only
  rw [h]
  rfl

/-- Reads the files that are injected into a bundle. -/
def readInjected (d : Disk) (paths : List String) : Except BuildError (List Bundle.Injected) :=
  paths.mapM fun path =>
    match d.readText path with
    | .ok text => .ok ⟨path, text⟩
    | .error cause => .error (.io path cause)

end Build
end Waymark
