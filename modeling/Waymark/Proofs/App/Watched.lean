import Waymark.App.Watch
import Waymark.Proofs.App.Served
import Waymark.Proofs.Disk.Paths
import Waymark.Proofs.Graph.Affected
/-!
# Changed files and what depends on them

When a file changes, the modules that depend on it are reported, unless there is no
record of the file itself.  A module gets its record when it is served; it keeps it
whatever else happens.  A file whose text only went into the output of another module
gets none by that: the sheet that a sheet imports is such a file, as long as nobody asks
for it.

So all hangs on which modules were served in a session, however the requests, the
changes that are told of and the edits of files follow each other.

## Main results

* `specifierFor_keyOf` — which files are watched.
* `isSome_depsAt_performAll` — what is recorded is what was before and what was served since.
* `handle_reports_iff` — a change is reported, with all that depend on the file, exactly if the
  file was served.
-/

namespace Waymark

theorem Graph.deps_update (g : Graph) (now : Version) (s k : Specifier) :
    ((g.update now s).get? k).map (·.deps) = (g.get? k).map (·.deps) := by
  unfold update
  cases hs : g.get? s with
  | none => rfl
  | some r =>
    show ((g.records.insert s _).get? k).map (·.deps) = _
    by_cases hk : k = s
    · rw [hk, Dict.get?_insert_self, hs]
      rfl
    · rw [Dict.get?_insert_ne _ _ hk]
      rfl

namespace App

/-! ## Watched files -/

/-- A file below the root, neither hidden nor in an ignored directory, and not the configuration. -/
structure IsWatched (app : App) (names : List String) : Prop where
  ne_nil : names ≠ []
  isName : ∀ name ∈ names, Disk.IsName name
  heeded : ∀ name ∈ names, isIgnored name = false
  elsewhere : names.head? ≠ some app.config.outputPath
  module : RouteTable.fileSpecifier names ≠ "./" ++ AppConfig.fileName

section
variable {app : App} {names : List String}

theorem watchedNames?_keyOf (hname : ∀ name ∈ names, Disk.IsName name)
    (hheeded : ∀ name ∈ names, isIgnored name = false) :
    app.watchedNames? (app.disk.pathOf (Disk.keyOf names)) = some names := by
  have hdots : ∀ name ∈ names, name ≠ "." ∧ name ≠ ".." := by
    intro name hmem
    constructor
    · rintro rfl
      exact absurd (hheeded _ hmem) (by decide)
    · rintro rfl
      exact absurd (hheeded _ hmem) (by decide)
  have hkept : names.filter (· ≠ ".") = names :=
    List.filter_eq_self.2 fun name hmem => decide_eq_true (hdots name hmem).1
  have hup : ".." ∉ names := fun hmem => (hdots _ hmem).2 rfl
  unfold watchedNames?
  rw [Disk.namesBelow_pathOf (Disk.isPrefixOf_keyOf hname), Disk.namesOf_keyOf hname]
  dsimp only
  rw [hkept, if_neg hup]

/-- A watched file is known by its specifier. -/
theorem specifierFor_keyOf (h : IsWatched app names) :
    app.specifierFor (app.disk.pathOf (Disk.keyOf names)) =
      some (RouteTable.fileSpecifier names) := by
  have hignored : names.any isIgnored = false := by
    simpa using h.heeded
  have helsewhere : decide (names.head? = some app.config.outputPath) = false :=
    decide_eq_false h.elsewhere
  have hnames : names.isEmpty = false := by
    simpa using h.ne_nil
  unfold specifierFor
  rw [watchedNames?_keyOf h.isName h.heeded]
  dsimp only
  rw [hignored, helsewhere, hnames]
  rfl

/-- A file that was modified is reported if it has a record, with all that depend on it. -/
theorem handle_modified (h : IsWatched app names) :
    (app.handle .modified (app.disk.pathOf (Disk.keyOf names))).2 =
      (app.graph.get? (RouteTable.fileSpecifier names)).map fun _ =>
        .modified (RouteTable.fileSpecifier names)
          ((app.graph.update app.now (RouteTable.fileSpecifier names)).affected
            (RouteTable.fileSpecifier names)) := by
  have hgraph : app.ensureGraph.graph = app.graph := rfl
  unfold handle
  rw [specifierFor_keyOf h]
  dsimp only
  rw [if_neg h.module, handleModule, if_neg (by simp)]
  dsimp only
  rw [hgraph]
  cases app.graph.get? (RouteTable.fileSpecifier names) with
  | none => rfl
  | some r => rfl

end

/-! ## Sessions -/

/-- What happens to an app that is served and watched. -/
inductive Event where
  | request (uri : Uri)
  /-- A file is told of as changed. -/
  | change (kind : ChangeKind) (path : String)
  /-- The files, what is found elsewhere, or the clock is different from now on. -/
  | world (entries : Dict DiskEntry) (surroundings : Surroundings) (now : Version)

/-- The app after an event. -/
def perform (app : App) : Event → App
  | .request uri => ((answer uri).run app).2
  | .change kind path => (app.handle kind path).1
  | .world entries surroundings now =>
    { app with disk := { app.disk with entries }, surroundings, now }

/-- The app after a session. -/
def performAll (app : App) (events : List Event) : App := events.foldl perform app

/-- In a session the module with a key was served, for its own sake or on the way to another. -/
inductive ServedIn : App → List Event → Specifier → Prop where
  | now {app : App} {uri : Uri} {events : List Event} {k : Specifier}
      (h : Serves uri.toText.length app uri k) : ServedIn app (.request uri :: events) k
  | later {app : App} {event : Event} {events : List Event} {k : Specifier}
      (h : ServedIn (app.perform event) events k) : ServedIn app (event :: events) k

/-- No file that changes makes or loses a record, whatever is done about it. -/
theorem depsAt_handle (app : App) (kind : ChangeKind) (path : String) :
    (app.handle kind path).1.depsAt = app.depsAt := by
  have hroutes : ∀ a a' : App, a.refreshRoutes = .ok a' → a'.depsAt = a.depsAt := by
    intro a a' ha
    unfold refreshRoutes at ha
    cases hload : RouteTable.load a.config.routes a.disk with
    | error e =>
      rw [hload] at ha
      nomatch ha
    | ok routes =>
      rw [hload] at ha
      obtain rfl := Except.ok.inj ha
      rfl
  unfold handle
  split
  · rfl
  · rename_i s _
    split
    · unfold reloadConfig
      split
      · rfl
      · dsimp only
        split
        · rename_i hrefreshed
          have hkept := hroutes _ _ hrefreshed
          exact hkept
        · rfl
    · unfold handleModule
      split
      · split
        · split
          · rename_i hrefreshed
            exact hroutes _ _ hrefreshed
          · rfl
        · rfl
      · dsimp only
        split
        · rfl
        · funext k
          exact Graph.deps_update app.graph app.now s k

theorem depsAt_world (app : App) (entries : Dict DiskEntry) (surroundings : Surroundings)
    (now : Version) : (app.perform (.world entries surroundings now)).depsAt = app.depsAt := by
  funext k
  unfold perform depsAt graph
  cases app.graph? with
  | none => rfl
  | some g => rfl

/-- One event leaves every record there, and adds those of the modules it serves. -/
theorem isSome_depsAt_perform (app : App) (event : Event) (k : Specifier) :
    ((app.perform event).depsAt k).isSome = true ↔
      (app.depsAt k).isSome = true ∨
        ∃ uri, event = .request uri ∧ Serves uri.toText.length app uri k := by
  cases event with
  | request uri =>
    have hrecords := records_answerWithin uri.toText.length app uri
    rw [perform, answer, hrecords.isSome_iff]
    simp
  | change kind path =>
    rw [perform, depsAt_handle]
    simp
  | world entries surroundings now =>
    rw [depsAt_world]
    simp

/-- After a session there are records of the modules that had one before and of those that were
served. -/
theorem isSome_depsAt_performAll (app : App) (events : List Event) (k : Specifier) :
    ((app.performAll events).depsAt k).isSome = true ↔
      (app.depsAt k).isSome = true ∨ ServedIn app events k := by
  induction events generalizing app with
  | nil =>
    have hnever : ¬ServedIn app [] k := by
      intro h
      cases h
    simp [performAll, hnever]
  | cons event events ih =>
    show (((app.perform event).performAll events).depsAt k).isSome = true ↔ _
    rw [ih, isSome_depsAt_perform, or_assoc]
    refine or_congr_right ?_
    constructor
    · rintro (⟨uri, rfl, hserves⟩ | hlater)
      · exact .now hserves
      · exact .later hlater
    · intro h
      cases h with
      | now hserves => exact Or.inl ⟨_, rfl, hserves⟩
      | later hlater => exact Or.inr hlater

/-! ## Reports -/

/-- A file that is modified after a session is reported, together with every other module that
lists it among its dependencies, exactly if it was recorded before the session or was itself
served in it. -/
theorem handle_reports_iff {app : App} {events : List Event} {names : List String}
    (hwatched : IsWatched (app.performAll events) names) :
    (∃ affected,
      ((app.performAll events).handle .modified
          ((app.performAll events).disk.pathOf (Disk.keyOf names))).2 =
        some (.modified (RouteTable.fileSpecifier names) affected) ∧
      ∀ t record, (app.performAll events).graph.get? t = some record →
        RouteTable.fileSpecifier names ∈ record.deps → t ≠ RouteTable.fileSpecifier names →
          t ∈ affected) ↔
      ((app.depsAt (RouteTable.fileSpecifier names)).isSome = true ∨
        ServedIn app events (RouteTable.fileSpecifier names)) := by
  rw [← isSome_depsAt_performAll, handle_modified hwatched]
  generalize app.performAll events = after
  generalize RouteTable.fileSpecifier names = f
  unfold depsAt
  rw [Option.isSome_map]
  cases hf : after.graph.get? f with
  | none => simp
  | some r =>
    refine iff_of_true ⟨_, rfl, ?_⟩ rfl
    intro t record ht hdeps hne
    -- moving the version of the file on has left what others depend on as it was
    have hkept := Graph.deps_update after.graph after.now f t
    rw [ht, Option.map_some, Option.map_eq_some_iff] at hkept
    obtain ⟨record', ht', hsame⟩ := hkept
    exact Graph.mem_affected_of_deps ht' (hsame ▸ hdeps) hne

/-- An app on a disk, with nothing to be had from elsewhere. -/
def aloneOn (disk : Disk) (config : AppConfig) : App :=
  { surroundings := ⟨fun url => .error (.request url), fun _ => none,
      fun _ s _ => .error (.request s)⟩
    pipeline := Pipeline.standard true ImportMap.empty
    disk, config, graph? := none, routes := RouteTable.empty, homePort := 3000, port := 3000
    registered := Dict.empty, now := 7, requests := [], fetched := [] }

/-- An app with two sheets, of which one imports the other. -/
def sheetsApp : App :=
  { surroundings := ⟨fun url => .error (.request url), fun _ => none,
      fun _ s _ => .error (.request s)⟩
    pipeline := Pipeline.standard true ImportMap.empty
    disk := ⟨"/app", Dict.ofList [("a.css", .file "@import 'b.css'; p\x7b\x7d".toUTF8),
      ("b.css", .file "q\x7b\x7d".toUTF8)]⟩
    config := {}, graph? := none, routes := RouteTable.empty, homePort := 3000, port := 3000
    registered := Dict.empty, now := 7, requests := [], fetched := [] }

/-- The request for the sheet that imports the other. -/
def sheetRequest : Uri := ⟨"", "", "/a.css", none⟩

/-- The imported sheet is read for the answer to the request and stands among the dependencies of
the sheet that was asked for, but when it changes nothing is reported. -/
theorem handle_imported_sheet :
    let after := sheetsApp.performAll [.request sheetRequest]
    ((answer sheetRequest).run sheetsApp).1.bodyText = "q\x7b\x7d p\x7b\x7d" ∧
      (after.graph.get? "./a.css").map (·.deps) = some ["./b.css"] ∧
      (after.handle .modified "/app/b.css").2 = none := by
  decide +kernel

/-- So the imported sheet was not served. -/
theorem handle_reports_iff_imported :
    IsWatched (sheetsApp.performAll [.request sheetRequest]) ["b.css"] ∧
      sheetsApp.depsAt "./b.css" = none ∧
      ¬ServedIn sheetsApp [.request sheetRequest] "./b.css" := by
  have hwatched : IsWatched (sheetsApp.performAll [.request sheetRequest]) ["b.css"] := by
    constructor
    · simp
    · intro name hname
      obtain rfl := List.mem_singleton.1 hname
      exact ⟨by decide, by decide⟩
    · decide
    · decide +kernel
    · decide
  refine ⟨hwatched, rfl, ?_⟩
  intro hserved
  obtain ⟨affected, hreported, -⟩ := (handle_reports_iff hwatched).2 (Or.inr hserved)
  have hnone : ((sheetsApp.performAll [.request sheetRequest]).handle .modified
      ((sheetsApp.performAll [.request sheetRequest]).disk.pathOf (Disk.keyOf ["b.css"]))).2 =
        none := by
    decide +kernel
  rw [hnone] at hreported
  nomatch hreported

end App
end Waymark
