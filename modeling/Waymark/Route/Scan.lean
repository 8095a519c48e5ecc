import Waymark.Disk
import Waymark.Route.Table
/-!
# The routes of an app

The table of the route files that are on a disk.

## Main results

* `scan_of_lookup_error` — without its directory a routes configuration has no routes.
* `load_eq_ok_iff` — what table a configuration has, if it has one.
-/

namespace Waymark.RouteTable

/-- The specifier of a file by its names below the root. -/
def fileSpecifier (names : List String) : Specifier := "./" ++ Disk.keyOf names

/-- The table of the route files on a disk. -/
def scan (files : RouteFiles) (d : Disk) : RouteTable :=
  match d.lookup (d.pathOf (Specifier.relativePath files.base)) with
  | .ok (some names, .directory) => ofFiles files ((d.filesBelow names).map fileSpecifier)
  | _ => empty

/-- Where there is no base directory there are no routes. -/
theorem scan_of_lookup_error {files : RouteFiles} {d : Disk} {e : FileError}
    (h : d.lookup (d.pathOf (Specifier.relativePath files.base)) = .error e) :
    scan files d = empty := by
  unfold scan
  rw [h]

/-- The table of a configuration; no routes without one. -/
def load (config : Option RoutesConfig) (d : Disk) : Except RouteError RouteTable :=
  match config with
  | none => .ok empty
  | some config => (RouteFiles.compile config).map (scan · d)

theorem load_of_compile {c : RoutesConfig} {files : RouteFiles}
    (h : RouteFiles.compile c = .ok files) (d : Disk) : load (some c) d = .ok (scan files d) := by
  unfold load
  dsimp only
  rw [h]
  rfl

/-- How a table is loaded: without routes it is empty, else it is that of a scan. -/
theorem load_eq_ok_iff {config : Option RoutesConfig} {d : Disk} {table : RouteTable} :
    load config d = .ok table ↔ config = none ∧ table = empty ∨
      ∃ c files, config = some c ∧ RouteFiles.compile c = .ok files ∧ table = scan files d := by
  constructor
  · intro h
    cases config with
    | none => exact Or.inl ⟨rfl, (Except.ok.inj h).symm⟩
    | some c =>
      unfold load at h
      dsimp only at h
      cases hfiles : RouteFiles.compile c with
      | error e =>
        rw [hfiles] at h
        cases h
      | ok files =>
        rw [hfiles] at h
        exact Or.inr ⟨c, files, rfl, hfiles, (Except.ok.inj h).symm⟩
  · rintro (⟨rfl, rfl⟩ | ⟨c, files, rfl, hfiles, rfl⟩)
    · rfl
    · exact load_of_compile hfiles d

end Waymark.RouteTable
