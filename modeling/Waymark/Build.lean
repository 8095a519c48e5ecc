import Waymark.Build.Closure
import Waymark.Bundle.Vendor
import Waymark.Graph.SnapshotFile
import Waymark.Markup.Links
import Waymark.Script.Exports
/-!
# Building an app for production

A build empties the output directory, bundles the server program, saves the graph
beside it, and writes every module the client can reach.  The file that brings the
UI library into a JSX program is there only while the bundler runs.

## Main results

* `build_unsupported` — a platform that is not supported is refused before anything is touched.
* `stops_finish` — the bundler is stopped once when the bundle is done.
-/

namespace Waymark

/-- A bundler. -/
structure Bundler where
  bundle : Bundle.Policy → Bundle.Job → App.Action BuildError Unit

namespace Build

/-! ## The run of a build -/

/-- A build under way: the app, and what the bundler has been asked to do. -/
structure Run where
  app : App
  /-- The jobs given to the bundler, in order. -/
  jobs : List Bundle.Job
  /-- How often the bundler was told to stop. -/
  stops : Nat

/-- A step of a build. -/
abbrev Step (α : Type) := ExceptT BuildError (StateM Run) α

/-- What the app does in a step of its build. -/
def onApp {α : Type} (act : App.Action BuildError α) : Step α :=
  ExceptT.mk fun run =>
    let (result, app) := act.run.run run.app
    (result, { run with app })

/-- What a build leaves behind besides files. -/
structure Output where
  clientModules : List Specifier
  routeFiles : List Bundle.RouteExports
  deriving DecidableEq, Repr

/-! ## Bundlers -/

/-- The default bundler: copies modules next to the entry, by a walk over at most `bound` of
them. -/
def copyingBundlerWithin (bound : Nat) : Bundler where
  bundle policy job := do
    let dir := (Disk.parent job.outfile).getD ""
    let name := (Disk.fileName? job.outfile).getD Bundle.bundleFile
    let get (url : String) : App.Action BuildError RemoteText := do
      match ← (App.fetch url).run with
      | .ok content => return content
      | .error e => throw (.fetch e)
    let write (path text : String) : App.Action BuildError Unit :=
      put (Disk.join dir path) text.toUTF8
    let unloaded (path : String) : BuildError := .bundle ("no loader for " ++ path)
    let whole ← Bundle.bundle (policy.plugin get) unloaded write bound name
      (job.inject.map (·.text)) job.contents
    if !whole then throw .tooLarge

/-- The bound that bundles are run with. -/
def maxFiles : Nat := 100000

/-- The default bundler. -/
def copyingBundler : Bundler := copyingBundlerWithin maxFiles

/-! ## Steps -/

/-- The server of the app on a disk: its own, if there is one. -/
def detectEntry (d : Disk) : Bundle.ServerEntry :=
  match Bundle.ServerEntry.fileNames.find? fun name => d.isFile (d.pathOf name) with
  | some name => .custom ("./" ++ name)
  | none => .standard

/-- The route files of an app and what they export.  A file whose exports cannot be read has
none. -/
def routeExports (app : App) : Except BuildError (List Bundle.RouteExports) :=
  app.routes.routes.mapM fun r =>
    let path := app.disk.pathOf (Specifier.relativePath r.filename)
    match app.disk.readText path with
    | .error cause => .error (.io path cause)
    | .ok code =>
      .ok ⟨r.filename, match Script.exportNames r.filename code with
        | .ok names => names
        | .error _ => []⟩

/-- Finds the route files again and reads what they export. -/
def readRoutes : App.Action BuildError (List Bundle.RouteExports) := do
  let app ← getThe App
  if app.config.routes.isNone then return []
  match app.refreshRoutes with
  | .error e => throw (.routes e)
  | .ok app => do
    set app
    match routeExports app with
    | .ok files => return files
    | .error e => throw e

/-- Whether a link of the page at the root is a module of the app. -/
def isModuleLink (link : String) : Bool :=
  !Specifier.isRemote link && (Specifier.isStyle link || Specifier.isScript link)

/-- The modules that the page at the root links to. -/
def pageModules (d : Disk) : Except BuildError (List Specifier) :=
  let path := d.pathOf "index.html"
  match d.readText path with
  | .ok html =>
    .ok (((Markup.links html).filter isModuleLink).map fun link => "." ++ Specifier.clean link)
  | .error cause => if cause = .notFound then .ok [] else .error (.io path cause)

/-- The framework's module that brings the styles of routes to the client. -/
def styleModule (c : AppConfig) : Specifier := c.frameworkUrl ++ "/framework/core/style.ts"

/-- What decides over the imports of an app's server program. -/
def policyOf (app : App) : Bundle.Policy :=
  { frameworkUrl := app.config.frameworkUrl, uiBindingUrl := app.config.uiBindingUrl
    modulesOrigin := app.modulesOrigin, importMap := app.pipeline.importMap }

/-- Bundles the server program, saves the graph, and writes the client's modules, by a walk of at
most `bound` levels. -/
def bundleAndEmit (bound : Nat) (b : Bundler) (entry : Bundle.ServerEntry)
    (files : List Bundle.RouteExports) (outDir : String) (inject : List Bundle.Injected) :
    Step (List Specifier) := do
  let app := (← getThe Run).app
  let contents :=
    Bundle.entryProgram files entry app.config.frameworkUrl app.modulesOrigin
  let job := Bundle.Job.ofConfig app.config app.pipeline.isDev outDir contents inject
  modify fun run => { run with jobs := run.jobs ++ [job] }
  onApp (b.bundle (policyOf app) job)
  onApp do
    let app := (← getThe App).ensureGraph
    match Snapshot.save app.graph app.disk outDir with
    | .ok disk => set { app with disk }
    | .error cause => throw (.io outDir cause)
    match pageModules app.disk with
    | .error e => throw e
    | .ok links =>
      collectModulesWithin bound outDir
        (files.map (·.filename) ++ links ++ [styleModule app.config])

/-- Takes injected files away again.  One that is gone already is no failure. -/
def removeInjected (d : Disk) (inject : List Bundle.Injected) : Disk :=
  inject.foldl (fun d file => (d.removeFile file.path).toOption.getD d) d

/-- Tidies up after the bundler. -/
def finish (inject : List Bundle.Injected) (run : Run) : Run :=
  { run with
    app := { run.app with disk := removeInjected run.app.disk inject }
    stops := run.stops + 1 }

theorem stops_finish (inject : List Bundle.Injected) (run : Run) :
    (finish inject run).stops = run.stops + 1 := rfl

/-- Runs a step, and tidies up after it however it ends. -/
def withCleanup {α : Type} (inject : List Bundle.Injected) (step : Step α) : Step α :=
  ExceptT.mk fun run =>
    let (result, run) := step.run.run run
    (result, finish inject run)

/-- Writes the file that brings the UI library into a JSX program, if the program needs it. -/
def injectLibrary (entry : Bundle.ServerEntry) (outDir : String) :
    App.Action BuildError (List Bundle.Injected) := do
  let app ← getThe App
  match entry.isJsx, app.config.jsx.importSource with
  | true, some source =>
    let path := Disk.join outDir Bundle.shimFile
    let text := Bundle.shimText app.config.jsx.runtime source
    match app.disk.writeText path text with
    | .ok disk =>
      set { app with disk }
      return [⟨path, text⟩]
    | .error cause => throw (.io path cause)
  | _, _ => return []

/-- Empties the output directory. -/
def resetOutput (outDir : String) : App.Action BuildError Unit := do
  let app ← getThe App
  match app.disk.resetDirectory outDir with
  | .ok disk => set { app with disk }
  | .error cause => throw (.io outDir cause)

/-- The output directory of an app. -/
def outDirOf (app : App) : String := app.disk.pathOf app.config.outputPath

/-- Builds an app, with a walk of at most `bound` levels over the client's modules. -/
def build (bound : Nat) (b : Bundler) (entry : Bundle.ServerEntry) : Step Output := do
  let app := (← getThe Run).app
  if !app.config.build.platform.isSupported then
    throw (.unsupportedPlatform app.config.build.platform)
  let outDir := outDirOf app
  onApp (resetOutput outDir)
  let files ← onApp readRoutes
  let inject ← onApp (injectLibrary entry outDir)
  let modules ← withCleanup inject (bundleAndEmit bound b entry files outDir inject)
  return ⟨modules, files⟩

/-- A build of an app from the start: its result, and how it left the app. -/
def runWithin (bound : Nat) (b : Bundler) (entry : Bundle.ServerEntry) (app : App) :
    Except BuildError Output × Run :=
  (build bound b entry).run.run ⟨app, [], 0⟩

/-- The same with the bound that walks are run with. -/
def run (b : Bundler) (entry : Bundle.ServerEntry) (app : App) :
    Except BuildError Output × Run :=
  runWithin maxLevels b entry app

/-- A platform that is not supported is refused before anything is touched. -/
theorem build_unsupported {bound : Nat} {b : Bundler} {entry : Bundle.ServerEntry} {app : App}
    (h : app.config.build.platform.isSupported = false) :
    runWithin bound b entry app =
      (.error (.unsupportedPlatform app.config.build.platform), ⟨app, [], 0⟩) := by
  have hs : (!app.config.build.platform.isSupported) = true := by rw [h]; rfl
  unfold runWithin build
  change (if (!app.config.build.platform.isSupported) = true then _ else _ : Step Output) _ = _
  rw [if_pos hs]
  rfl

end Build
end Waymark
