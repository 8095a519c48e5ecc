import Waymark.ImportMap
import Waymark.Mount
/-!
# Resolving imports

Which module an import means: first the import map is asked, then the place of the
importer.  A relative or rooted path in a local importer is a path below the app
root; in a remote importer it is a URL relative to the importer's.  A bare
specifier that the map does not know means nothing.

## Main results

* `resolve_of_isRemote` — a target that is a URL is taken as it is.
* `resolvePath_local` — in a local importer every path stays below the root.
-/

namespace Waymark.Script

/-- The directory of a path: everything before its last slash. -/
def directory (path : String) : String :=
  match Text.cutLast '/' path.toList with
  | some (dir, _) => String.ofList dir
  | none => ""

/-- Whether a specifier is a path relative to its importer. -/
def isRelative (s : String) : Bool :=
  "./".toList.isPrefixOf s.toList || "../".toList.isPrefixOf s.toList

/-- Whether a specifier is a path from the root. -/
def isRooted (s : String) : Bool := ['/'].isPrefixOf s.toList

/-- A path below the root, as seen from a local importer. -/
def localPath (importer : Specifier) (path : String) : Specifier :=
  if isRelative path then
    "." ++ Specifier.clean (directory (Specifier.urlPath importer) ++ "/" ++ path)
  else "." ++ Specifier.clean path

/-- The URL of a path as seen from a remote importer. -/
def remotePath (importer : Specifier) (path : String) : Option Specifier :=
  match Url.parse importer with
  | .error _ => none
  | .ok base =>
    match base.join path with
    | .error _ => none
    | .ok url => some (toString url)

/-- The module that a relative or rooted path means. -/
def resolvePath (importer : Specifier) (path : String) : Option Specifier :=
  if Specifier.isRemote importer then remotePath importer path
  else some (localPath importer path)

/-- What a local module imports by its path is local, in canonical form. -/
theorem resolvePath_local {importer : Specifier} (path : String)
    (h : Specifier.isRemote importer = false) :
    ∃ p, resolvePath importer path = some ("." ++ Specifier.clean p) := by
  simp only [resolvePath, h, Bool.false_eq_true, if_false, localPath]
  split
  · exact ⟨_, rfl⟩
  · exact ⟨_, rfl⟩

/-- The module that a target means: a URL is one already, a path is resolved, and anything else
means nothing. -/
def resolveTarget (importer : Specifier) (target : String) : Option Specifier :=
  if Specifier.isRemote target then some target
  else if isRelative target || isRooted target then resolvePath importer target
  else none

/-- The module that a specifier means in `importer`. -/
def resolve (map : ImportMap) (importer : Specifier) (specifier : String) : Option Specifier :=
  resolveTarget importer ((map.resolve specifier (some importer)).getD specifier)

/-- A specifier that the import map sends to a URL means this URL. -/
theorem resolve_of_isRemote {map : ImportMap} {importer specifier target : String}
    (h : map.resolve specifier (some importer) = some target)
    (hr : Specifier.isRemote target = true) :
    resolve map importer specifier = some target := by
  simp [resolve, resolveTarget, h, hr]

end Waymark.Script
