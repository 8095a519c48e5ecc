import Waymark.Disk
import Waymark.Remote
/-!
# Compile errors

Why a module could not be compiled.

## Main results

* `isNotFound_iff` — the two causes that mean there is no such module.
-/

namespace Waymark

/-- Why a module could not be compiled. -/
inductive CompileError where
  | unreadable (path : String) (cause : FileError)
  | fetch (cause : FetchError)
  | script (specifier message : String)
  | sheet (specifier message : String)
  | atomicCss (specifier message : String)
  | loader (path message : String)
  deriving DecidableEq, Repr

namespace CompileError

/-- The wording of an error. -/
def message : CompileError → String
  | .unreadable path cause => "failed to read " ++ path ++ ": " ++ cause.message
  | .fetch cause => cause.message
  | .script s m => "failed to transform " ++ s ++ ": " ++ m
  | .sheet s m => "failed to bundle style " ++ s ++ ": " ++ m
  | .atomicCss s m => "atomic CSS generation failed for " ++ s ++ ": " ++ m
  | .loader path m => "loader failed for " ++ path ++ ": " ++ m

/-- Whether an error means that there is no such module. -/
def isNotFound : CompileError → Bool
  | .unreadable _ cause => cause = .notFound
  | .fetch cause => cause.isNotFound
  | _ => false

/-- What counts as not found: a file that is not there, and a server that says 404. -/
theorem isNotFound_iff {e : CompileError} :
    e.isNotFound = true ↔
      (∃ path, e = .unreadable path .notFound) ∨ (∃ url, e = .fetch (.status url 404)) := by
  cases e with
  | unreadable path cause => simp [isNotFound]
  | fetch cause => cases cause <;> simp [isNotFound, FetchError.isNotFound]
  | _ => simp [isNotFound]

end CompileError
end Waymark
