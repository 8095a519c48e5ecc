import Waymark.Proofs.Build.Emptied
import Waymark.Proofs.Build.Levels
import Waymark.Proofs.Disk.Apart
/-!
# What a build leaves when it ends

A build has two parts.  It prepares: the output directory is emptied, the route files
are found and read, and the file that brings the UI library into a JSX program is
written.  Then the bundler is given its job, the graph is saved and the modules are
written.  All that follows the preparation is tidied up after, however it ends: the
bundler is told to stop, once, and the written file is taken away.  The preparation is
not: a build that fails there has given the bundler nothing, and does not stop it
either.  It has written no file, as writing that file is the last it does.

The bound is there for the walk over the modules of the client, which is the last part
of a build.  One that has come to its end, or has failed for another reason, would have
done just the same with any greater bound.

## Main results

* `run_eq_prepared` — a build is its preparation, and the bundle with the tidying.
* `run_bundleAndEmit`, `run_afterPrepare` — the parts of what follows the preparation.
* `runWithin_of_le` — a build that is not too large does not depend on the bound.
* `prepare_error` — a preparation that fails has emptied the output directory at most.
* `run_tidies` — how often the bundler is stopped, and which files are taken away.
-/

namespace Waymark

namespace Build

theorem removeInjected_grows (d : Disk) (inject : List Bundle.Injected) :
    Disk.Grows (removeInjected d inject) d := by
  induction inject generalizing d with
  | nil => exact .refl d
  | cons file inject ih =>
    have hfirst : Disk.Grows ((d.removeFile file.path).toOption.getD d) d := by
      cases hremove : d.removeFile file.path with
      | error cause => exact .refl d
      | ok d' => exact Disk.removeFile_grows hremove
    exact (ih _).trans hfirst

/-- Injected files are all taken away. -/
theorem isFile_removeInjected {d : Disk} {inject : List Bundle.Injected} {file : Bundle.Injected}
    (h : file ∈ inject) : (removeInjected d inject).isFile file.path = false := by
  induction inject generalizing d with
  | nil => nomatch h
  | cons first inject ih =>
    rcases List.mem_cons.1 h with rfl | hmem
    · exact (removeInjected_grows _ inject).isFile (Disk.isFile_removeFile d file.path)
    · exact ih hmem

/-! ## The two parts of a build -/

/-- What a build does before the bundler is given its job. -/
def prepare (entry : Bundle.ServerEntry) (outDir : String) :
    App.Action BuildError (List Bundle.RouteExports × List Bundle.Injected) := do
  resetOutput outDir
  let files ← readRoutes
  let inject ← injectLibrary entry outDir
  return (files, inject)

/-- The job that is given to the bundler of a build. -/
def jobOf (app : App) (entry : Bundle.ServerEntry) (files : List Bundle.RouteExports)
    (outDir : String) (inject : List Bundle.Injected) : Bundle.Job :=
  Bundle.Job.ofConfig app.config app.pipeline.isDev outDir
    (Bundle.entryProgram files entry app.config.frameworkUrl app.modulesOrigin) inject

/-- What is done to the app when the bundler is done: the graph is saved, and then the modules are
written that can be reached from the route files, the links of the page and the framework's module
for styles. -/
def saveAndEmit (bound : Nat) (outDir : String) (files : List Bundle.RouteExports) :
    App.Action BuildError (List Specifier) := do
  let app := (← getThe App).ensureGraph
  match Snapshot.save app.graph app.disk outDir with
  | .ok disk => set { app with disk }
  | .error cause => throw (.io outDir cause)
  match pageModules app.disk with
  | .error e => throw e
  | .ok links =>
    collectModulesWithin bound outDir
      (files.map (·.filename) ++ links ++ [styleModule app.config])

theorem run_bundleAndEmit (bound : Nat) (b : Bundler) (entry : Bundle.ServerEntry)
    (files : List Bundle.RouteExports) (outDir : String) (inject : List Bundle.Injected)
    (start : Run) :
    (bundleAndEmit bound b entry files outDir inject).run.run start =
      let job := jobOf start.app entry files outDir inject
      match (b.bundle (policyOf start.app) job).run.run start.app with
      | (.error e, app) => (.error e, ⟨app, start.jobs ++ [job], start.stops⟩)
      | (.ok _, app) =>
        let saved := (saveAndEmit bound outDir files).run.run app
        (saved.1, ⟨saved.2, start.jobs ++ [job], start.stops⟩) := by
  unfold bundleAndEmit
  rw [run_action_get_bind]
  dsimp only
  rw [run_action_modify_bind, run_action_bind, run_onApp]
  dsimp only
  unfold jobOf
  rcases (b.bundle (policyOf start.app) _).run.run start.app with ⟨_ | _, app⟩
  · rfl
  · rfl

/-- What a build does when it is prepared. -/
def afterPrepare (bound : Nat) (b : Bundler) (entry : Bundle.ServerEntry) (outDir : String)
    (files : List Bundle.RouteExports) (inject : List Bundle.Injected) : Step Output := do
  let modules ← withCleanup inject (bundleAndEmit bound b entry files outDir inject)
  return ⟨modules, files⟩

theorem run_afterPrepare (bound : Nat) (b : Bundler) (entry : Bundle.ServerEntry)
    (outDir : String) (files : List Bundle.RouteExports) (inject : List Bundle.Injected)
    (start : Run) :
    (afterPrepare bound b entry outDir files inject).run.run start =
      let done := (bundleAndEmit bound b entry files outDir inject).run.run start
      (done.1.map (⟨·, files⟩), finish inject done.2) := by
  have hcleanup :
      (withCleanup inject (bundleAndEmit bound b entry files outDir inject)).run.run start =
        (((bundleAndEmit bound b entry files outDir inject).run.run start).1,
          finish inject ((bundleAndEmit bound b entry files outDir inject).run.run start).2) := rfl
  rw [afterPrepare, run_action_bind, hcleanup]
  rcases (bundleAndEmit bound b entry files outDir inject).run.run start with ⟨_ | _, done⟩
  · rfl
  · rfl

/-- A build for a supported platform prepares, and goes on only if it could. -/
theorem run_eq_prepared (bound : Nat) (b : Bundler) (entry : Bundle.ServerEntry) {app : App}
    (h : app.config.build.platform.isSupported = true) :
    runWithin bound b entry app =
      match (prepare entry (outDirOf app)).run.run app with
      | (.ok (files, inject), prepared) =>
        (afterPrepare bound b entry (outDirOf app) files inject).run.run ⟨prepared, [], 0⟩
      | (.error e, prepared) => (.error e, ⟨prepared, [], 0⟩) := by
  rw [run_eq_afterReset bound b entry h, prepare, run_action_bind]
  rcases (resetOutput (outDirOf app)).run.run app with ⟨_ | _, emptied⟩
  · rfl
  dsimp only
  rw [afterReset, run_action_bind, run_action_bind, run_onApp]
  dsimp only
  rcases readRoutes.run.run emptied with ⟨_ | files, read⟩
  · rfl
  dsimp only
  rw [run_action_bind, run_action_bind, run_onApp]
  dsimp only
  rcases (injectLibrary entry (outDirOf app)).run.run read with ⟨_ | inject, prepared⟩
  · rfl
  · rfl

/-! ## Bounds -/

theorem saveAndEmit_of_le {bound bound' : Nat} (hle : bound ≤ bound') {outDir : String}
    {files : List Bundle.RouteExports} {app : App}
    (hends : ((saveAndEmit bound outDir files).run.run app).1 ≠ .error .tooLarge) :
    (saveAndEmit bound' outDir files).run.run app =
      (saveAndEmit bound outDir files).run.run app := by
  unfold saveAndEmit at hends ⊢
  rw [run_action_get_bind] at hends
  rw [run_action_get_bind, run_action_get_bind]
  dsimp only at hends ⊢
  cases hsave : Snapshot.save app.ensureGraph.graph app.ensureGraph.disk outDir with
  | error cause => rfl
  | ok disk =>
    rw [hsave] at hends
    dsimp only at hends ⊢
    cases hlinks : pageModules app.ensureGraph.disk with
    | error e => rfl
    | ok links =>
      rw [hlinks] at hends
      exact collectModulesWithin_of_le hle hends

theorem bundleAndEmit_of_le {bound bound' : Nat} (hle : bound ≤ bound') {b : Bundler}
    {entry : Bundle.ServerEntry} {files : List Bundle.RouteExports} {outDir : String}
    {inject : List Bundle.Injected} {start : Run}
    (hends : ((bundleAndEmit bound b entry files outDir inject).run.run start).1 ≠
      .error .tooLarge) :
    (bundleAndEmit bound' b entry files outDir inject).run.run start =
      (bundleAndEmit bound b entry files outDir inject).run.run start := by
  rw [run_bundleAndEmit] at hends
  rw [run_bundleAndEmit, run_bundleAndEmit]
  dsimp only at hends ⊢
  split
  · rfl
  · rename_i hbundle
    rw [hbundle] at hends
    rw [saveAndEmit_of_le hle hends]

/-- A build depends on the bound of its walk only as long as the walk does not end. -/
theorem runWithin_of_le {bound bound' : Nat} (hle : bound ≤ bound') {b : Bundler}
    {entry : Bundle.ServerEntry} {app : App}
    (hends : (runWithin bound b entry app).1 ≠ .error .tooLarge) :
    runWithin bound' b entry app = runWithin bound b entry app := by
  cases hsupported : app.config.build.platform.isSupported with
  | false => rw [build_unsupported hsupported, build_unsupported hsupported]
  | true =>
    rw [run_eq_prepared bound b entry hsupported] at hends
    rw [run_eq_prepared bound' b entry hsupported, run_eq_prepared bound b entry hsupported]
    rcases hprepare : (prepare entry (outDirOf app)).run.run app with
      ⟨e | ⟨files, inject⟩, prepared⟩
    · rfl
    · rw [hprepare] at hends
      dsimp only at hends ⊢
      rw [run_afterPrepare] at hends
      rw [run_afterPrepare, run_afterPrepare]
      have hbundle : ((bundleAndEmit bound b entry files (outDirOf app) inject).run.run
          ⟨prepared, [], 0⟩).1 ≠ .error .tooLarge := by
        intro hlarge
        exact hends (congrArg (Except.map (Output.mk · files)) hlarge)
      rw [bundleAndEmit_of_le hle hbundle]

/-! ## Preparing -/

theorem readRoutes_keeps {app app' : App} {result : Except BuildError (List Bundle.RouteExports)}
    (h : readRoutes.run.run app = (result, app')) :
    app'.disk = app.disk ∧ app'.config = app.config := by
  unfold readRoutes at h
  rw [run_action_get_bind] at h
  split at h
  · obtain ⟨-, rfl⟩ := Prod.mk.inj h
    exact ⟨rfl, rfl⟩
  · split at h
    · obtain ⟨-, rfl⟩ := Prod.mk.inj h
      exact ⟨rfl, rfl⟩
    · rename_i refreshed hrefresh
      have happ' : refreshed = app' := by
        have hset (act : App.Action BuildError (List Bundle.RouteExports)) :
            (do set refreshed; act).run.run app = act.run.run refreshed := rfl
        rw [hset] at h
        split at h
        · exact congrArg Prod.snd h
        · exact congrArg Prod.snd h
      unfold App.refreshRoutes at hrefresh
      cases hload : RouteTable.load app.config.routes app.disk with
      | error e =>
        rw [hload] at hrefresh
        cases hrefresh
      | ok routes =>
        rw [hload] at hrefresh
        rw [← happ', ← Except.ok.inj hrefresh]
        exact ⟨rfl, rfl⟩

/-- The file that brings the UI library into a JSX program. -/
def libraryFile (entry : Bundle.ServerEntry) (c : AppConfig) (outDir : String) :
    List Bundle.Injected :=
  match entry.isJsx, c.jsx.importSource with
  | true, some source =>
    [⟨Disk.join outDir Bundle.shimFile, Bundle.shimText c.jsx.runtime source⟩]
  | _, _ => []

/-- Either the library's file is written, if there is one, or nothing is changed. -/
theorem run_injectLibrary {entry : Bundle.ServerEntry} {outDir : String} {app app' : App}
    {result : Except BuildError (List Bundle.Injected)}
    (h : (injectLibrary entry outDir).run.run app = (result, app')) :
    match result with
    | .ok inject => inject = libraryFile entry app.config outDir
    | .error _ => app' = app := by
  unfold injectLibrary at h
  rw [run_action_get_bind] at h
  dsimp only at h
  unfold libraryFile
  cases hjsx : entry.isJsx with
  | false =>
    rw [hjsx] at h
    obtain ⟨rfl, -⟩ := Prod.mk.inj h
    rfl
  | true =>
    cases hsource : app.config.jsx.importSource with
    | none =>
      rw [hjsx, hsource] at h
      obtain ⟨rfl, -⟩ := Prod.mk.inj h
      rfl
    | some source =>
      rw [hjsx, hsource] at h
      dsimp only at h
      split at h
      · obtain ⟨rfl, -⟩ := Prod.mk.inj h
        rfl
      · obtain ⟨rfl, rfl⟩ := Prod.mk.inj h
        rfl

/-- The disk as it was, or with the output directory emptied. -/
def EmptiedAtMost (outDir : String) (d d' : Disk) : Prop :=
  d' = d ∨ d.resetDirectory outDir = .ok d'

theorem resetOutput_emptied {app emptied : App} {outDir : String}
    {result : Except BuildError Unit}
    (h : (resetOutput outDir).run.run app = (result, emptied)) :
    EmptiedAtMost outDir app.disk emptied.disk ∧ emptied.config = app.config := by
  unfold resetOutput at h
  rw [run_action_get_bind] at h
  split at h
  · rename_i disk hreset
    obtain ⟨-, rfl⟩ := Prod.mk.inj h
    exact ⟨.inr hreset, rfl⟩
  · obtain ⟨-, rfl⟩ := Prod.mk.inj h
    exact ⟨.inl rfl, rfl⟩

/-- A preparation that fails has emptied the output directory at most. -/
theorem prepare_error {entry : Bundle.ServerEntry} {outDir : String} {app prepared : App}
    {e : BuildError} (h : (prepare entry outDir).run.run app = (.error e, prepared)) :
    EmptiedAtMost outDir app.disk prepared.disk := by
  unfold prepare at h
  rw [run_action_bind] at h
  rcases hreset : (resetOutput outDir).run.run app with ⟨_ | _, emptied⟩
  · rw [hreset] at h
    obtain ⟨-, rfl⟩ := Prod.mk.inj h
    exact (resetOutput_emptied hreset).1
  have hemptied := (resetOutput_emptied hreset).1
  rw [hreset] at h
  dsimp only at h
  rw [run_action_bind] at h
  rcases hread : readRoutes.run.run emptied with ⟨_ | files, read⟩
  · rw [hread] at h
    obtain ⟨-, rfl⟩ := Prod.mk.inj h
    rw [(readRoutes_keeps hread).1]
    exact hemptied
  have hdisk := (readRoutes_keeps hread).1
  rw [hread] at h
  dsimp only at h
  rw [run_action_bind] at h
  rcases hinject : (injectLibrary entry outDir).run.run read with ⟨_ | inject, injected⟩
  · rw [hinject] at h
    obtain ⟨-, rfl⟩ := Prod.mk.inj h
    rw [show injected = read from run_injectLibrary hinject, hdisk]
    exact hemptied
  · rw [hinject] at h
    nomatch h

/-- A preparation that succeeds injects the library's file, if there is one. -/
theorem prepare_ok {entry : Bundle.ServerEntry} {outDir : String} {app prepared : App}
    {files : List Bundle.RouteExports} {inject : List Bundle.Injected}
    (h : (prepare entry outDir).run.run app = (.ok (files, inject), prepared)) :
    inject = libraryFile entry app.config outDir := by
  unfold prepare at h
  obtain ⟨⟨⟩, emptied, hreset, h⟩ := exists_of_run_bind h
  obtain ⟨found, read, hread, h⟩ := exists_of_run_bind h
  obtain ⟨injected, done, hinject, h⟩ := exists_of_run_bind h
  obtain ⟨-, rfl⟩ := Prod.mk.inj (Except.ok.inj (Prod.mk.inj h).1)
  rw [← (resetOutput_emptied hreset).2, ← (readRoutes_keeps hread).2]
  exact run_injectLibrary hinject

/-! ## Tidying up -/

/-- The bundler is given one job; it is not stopped by this. -/
theorem bundleAndEmit_jobs (bound : Nat) (b : Bundler) (entry : Bundle.ServerEntry)
    (files : List Bundle.RouteExports) (outDir : String) (inject : List Bundle.Injected)
    (run : Run) :
    (((bundleAndEmit bound b entry files outDir inject).run.run run).2.jobs.length =
      run.jobs.length + 1) ∧
    ((bundleAndEmit bound b entry files outDir inject).run.run run).2.stops = run.stops := by
  rw [run_bundleAndEmit]
  dsimp only
  split
  · exact ⟨List.length_append, rfl⟩
  · exact ⟨List.length_append, rfl⟩

theorem afterPrepare_tidies (bound : Nat) (b : Bundler) (entry : Bundle.ServerEntry)
    (outDir : String) (files : List Bundle.RouteExports) (inject : List Bundle.Injected)
    (run : Run) :
    ((afterPrepare bound b entry outDir files inject).run.run run).2.jobs.length =
      run.jobs.length + 1 ∧
    ((afterPrepare bound b entry outDir files inject).run.run run).2.stops = run.stops + 1 ∧
    ∀ file ∈ inject,
      ((afterPrepare bound b entry outDir files inject).run.run run).2.app.disk.isFile file.path =
        false := by
  obtain ⟨hjobs, hstops⟩ := bundleAndEmit_jobs bound b entry files outDir inject run
  rw [run_afterPrepare]
  dsimp only
  refine ⟨hjobs, ?_, ?_⟩
  · rw [stops_finish, hstops]
  · intro file hfile
    exact isFile_removeInjected hfile

/-- A build for a supported platform that cannot be prepared fails, with no job given to the
bundler, which is not stopped, and has done no more than to empty the output directory.  One that
is prepared gives the bundler one job and stops it once, whatever comes of it, and the file that
was written for the program is gone in the end. -/
theorem run_tidies (bound : Nat) (b : Bundler) (entry : Bundle.ServerEntry) {app : App}
    (h : app.config.build.platform.isSupported = true) :
    match (prepare entry (outDirOf app)).run.run app with
    | (.error e, prepared) =>
      runWithin bound b entry app = (.error e, ⟨prepared, [], 0⟩) ∧
        EmptiedAtMost (outDirOf app) app.disk prepared.disk
    | (.ok (_, inject), _) =>
      (runWithin bound b entry app).2.jobs.length = 1 ∧ (runWithin bound b entry app).2.stops = 1 ∧
        inject = libraryFile entry app.config (outDirOf app) ∧
        ∀ file ∈ inject, (runWithin bound b entry app).2.app.disk.isFile file.path = false := by
  have hrun := run_eq_prepared bound b entry h
  rcases hprepare : (prepare entry (outDirOf app)).run.run app with ⟨e | ⟨files, inject⟩, prepared⟩
  · rw [hprepare] at hrun
    exact ⟨hrun, prepare_error hprepare⟩
  · rw [hprepare] at hrun
    obtain ⟨hjobs, hstops, hfiles⟩ :=
      afterPrepare_tidies bound b entry (outDirOf app) files inject ⟨prepared, [], 0⟩
    dsimp only at hrun ⊢
    rw [hrun]
    exact ⟨hjobs, hstops, prepare_ok hprepare, hfiles⟩

/-- An app with one route, whose file has these octets, and with a UI library. -/
def routeApp (content : ByteArray) : App :=
  { pagesApp "dist" { routes := some (.dir "pages" ["tsx"] false)
                      jsx := { importSource := some "https://h/ui.js" } } with
    disk := ⟨"/app", Dict.ofList [("pages", .directory), ("pages/a.tsx", .file content)]⟩ }

/-- With a route file that can be read the bundler is stopped, and the file that was written for
the program is gone, although the bundler could fetch nothing. -/
theorem run_tidies_unfetched :
    let app := routeApp ByteArray.empty
    (run copyingBundler (.custom "./server.tsx") app).2.stops = 1 ∧
      (run copyingBundler (.custom "./server.tsx") app).2.app.disk.isFile
        "/app/dist/jsx-shim.js" = false := by
  intro app
  have hdone : ((prepare (.custom "./server.tsx") (outDirOf app)).run.run app).1.toOption.isSome =
      true := by decide +kernel
  have hpath : (libraryFile (.custom "./server.tsx") app.config (outDirOf app)).map (·.path) =
      ["/app/dist/jsx-shim.js"] := by decide +kernel
  have hsupported : app.config.build.platform.isSupported = true := rfl
  have htidies := run_tidies maxLevels copyingBundler (.custom "./server.tsx") hsupported
  unfold run
  rcases hprepare : (prepare (.custom "./server.tsx") (outDirOf app)).run.run app with
    ⟨e | ⟨files, inject⟩, prepared⟩
  · rw [hprepare] at hdone
    nomatch hdone
  · rw [hprepare] at htidies
    obtain ⟨-, hstops, rfl, hfiles⟩ := htidies
    obtain ⟨file, hfile, hname⟩ := List.mem_map.1 (hpath ▸ List.mem_cons_self ..)
    rw [← hname]
    exact ⟨hstops, hfiles file hfile⟩

/-- A route file that is no text ends a build before the bundler has its job, and then the bundler
is not stopped. -/
theorem run_unstopped :
    ¬∀ (b : Bundler) (entry : Bundle.ServerEntry) (app : App),
      app.config.build.platform.isSupported = true →
      (run b entry app).2.stops = 1 ∧
        (run b entry app).2.app.disk.isFile (Disk.join (outDirOf app) Bundle.shimFile) = false := by
  intro h
  have hstops := (h copyingBundler .standard (routeApp ⟨#[0xff]⟩) (by decide)).1
  revert hstops
  decide +kernel

end Build
end Waymark
