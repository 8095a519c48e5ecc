import Waymark.App
/-!
# Watching files

What a running app does when a file below its root changes.  A route file that comes
or goes refreshes the route table, a recorded module that changes gets a new
version, and a new configuration is taken over if it is accepted.

Hidden files, installed packages and the output directory are not watched.

The system tells of files in more ways than make a difference here.  A file that gets
another name is told of as modified, under its old name and under the new one.

## Main results

* `ofEvent?_eq_modified_iff` — which events count as a modification.
* `FileEvent.mem_changes` — the changes that an app is told of by an event.
* `specifierFor_elsewhere` — what is not below the root is not watched.
* `handle_unwatched` — a file that is not watched changes nothing.
-/

namespace Waymark.App

/-- What happened to a file. -/
inductive ChangeKind where
  | created
  | modified
  | removed
  deriving DecidableEq, Repr

/-- What of a file was modified. -/
inductive Modification where
  | any
  | data
  | metadata
  /-- The file has got another name, or another file has got its name. -/
  | name
  | other
  deriving DecidableEq, Repr

/-- What the system tells of files. -/
inductive EventKind where
  | any
  | access
  | create
  | modify (what : Modification)
  | remove
  | other
  deriving DecidableEq, Repr

/-- The change that an event counts as, if it does. -/
def ChangeKind.ofEvent? : EventKind → Option ChangeKind
  | .create => some .created
  | .modify _ => some .modified
  | .remove => some .removed
  | _ => none

/-- Whatever was modified of a file, and be it its name, counts alike. -/
theorem ChangeKind.ofEvent?_eq_modified_iff {kind : EventKind} :
    ofEvent? kind = some .modified ↔ ∃ what, kind = .modify what := by
  cases kind <;> simp [ofEvent?]

theorem ChangeKind.ofEvent?_eq_created_iff {kind : EventKind} :
    ofEvent? kind = some .created ↔ kind = .create := by
  cases kind <;> simp [ofEvent?]

/-- An event: what happened, and to which paths. -/
structure FileEvent where
  kind : EventKind
  paths : List String
  deriving DecidableEq, Repr

/-- The changes that an app is told of by an event, one for each path. -/
def FileEvent.changes (e : FileEvent) : List (ChangeKind × String) :=
  match ChangeKind.ofEvent? e.kind with
  | some kind => e.paths.map (kind, ·)
  | none => []

/-- The changes of an event are of the kind it counts as, and of its paths. -/
theorem FileEvent.mem_changes {e : FileEvent} {change : ChangeKind × String} :
    change ∈ e.changes ↔ ChangeKind.ofEvent? e.kind = some change.1 ∧ change.2 ∈ e.paths := by
  obtain ⟨kind, path⟩ := change
  unfold changes
  cases ChangeKind.ofEvent? e.kind with
  | none => simp
  | some kind' =>
    simp only [List.mem_map, Prod.mk.injEq, Option.some.injEq]
    constructor
    · rintro ⟨path', hpath, rfl, rfl⟩
      exact ⟨rfl, hpath⟩
    · rintro ⟨rfl, hpath⟩
      exact ⟨path, hpath, rfl, rfl⟩

/-- What the app did about a change. -/
inductive Change where
  /-- The route table was refreshed and has so many routes. -/
  | routes (count : Nat)
  /-- A module has a new version; others depend on it. -/
  | modified (specifier : Specifier) (affected : List Specifier)
  /-- The configuration was taken over. -/
  | config
  deriving DecidableEq, Repr

/-- Whether files under a name are not watched. -/
def isIgnored (name : String) : Bool := ['.'].isPrefixOf name.toList || name = "node_modules"

/-- The names of a path below the root; `none` for other paths and those that go up. -/
def watchedNames? (app : App) (path : String) : Option (List String) :=
  match app.disk.namesBelow path with
  | none => none
  | some names =>
    let names := names.filter (· ≠ ".")
    if ".." ∈ names then none else some names

/-- The specifier of a file that is watched. -/
def specifierFor (app : App) (path : String) : Option Specifier :=
  match app.watchedNames? path with
  | none => none
  | some names =>
    if names.any isIgnored || names.head? = some app.config.outputPath || names.isEmpty then none
    else some (RouteTable.fileSpecifier names)

/-- What lies outside of the root of an app is no module of it. -/
theorem specifierFor_elsewhere {app : App} {path : String}
    (h : app.disk.namesBelow path = none) : app.specifierFor path = none := by
  simp [specifierFor, watchedNames?, h]

/-- Takes over the configuration on the disk.  Routes that cannot be found again stay. -/
def reloadConfig (app : App) : App × Option Change :=
  match AppConfig.load app.disk with
  | .error _ => (app, none)
  | .ok config =>
    let app := { app with config }
    match app.refreshRoutes with
    | .ok app => (app, some .config)
    | .error _ => (app, some .config)

/-- Reacts to a change of a module. -/
def handleModule (app : App) (kind : ChangeKind) (s : Specifier) : App × Option Change :=
  if kind ≠ .modified then
    if app.isRouteFile s then
      match app.refreshRoutes with
      | .ok app => (app, some (.routes app.routes.size))
      | .error _ => (app, none)
    else (app, none)
  else
    let app := app.ensureGraph
    match app.graph.get? s with
    | none => (app, none)
    | some _ =>
      let g := app.graph.update app.now s
      (app.withGraph g, some (.modified s (g.affected s)))

/-- Reacts to a change of a file. -/
def handle (app : App) (kind : ChangeKind) (path : String) : App × Option Change :=
  match app.specifierFor path with
  | none => (app, none)
  | some s =>
    if s = "./" ++ AppConfig.fileName then app.reloadConfig else app.handleModule kind s

/-- A change that is not watched changes nothing, and nothing is told of it. -/
theorem handle_unwatched {app : App} {path : String} (kind : ChangeKind)
    (h : app.specifierFor path = none) : app.handle kind path = (app, none) := by
  simp [handle, h]

end Waymark.App
