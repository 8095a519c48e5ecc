import Waymark.Build
import Waymark.Proofs.App.Runs
import Waymark.Proofs.Route.Base
/-!
# What a build deletes

A build begins by emptying the output directory.  Nothing is asked of the configured
path but that it leads to a directory, so the app root itself, a directory above it and
the directory of the route files are all emptied if they are configured.  What is lost
is what lies in that directory and nothing else: below the app root the configuration
stays, and a route file stays if it does not lie in the output directory.

## Main results

* `run_eq_afterReset` — a build for a supported platform empties the directory first.
* `resetOutput_keeps_of_plain` — a path of plain names costs nothing outside of them.
* `run_loses` — exactly what is lost when the output directory is emptied.
* `run_loses_sources` — accepted configurations that cost the sources of their app.
-/

namespace Waymark

/-! ## Configurations on a disk -/

/-- What is loaded is for a platform that can be built for. -/
theorem AppConfig.isSupported_of_load {d : Disk} {c : AppConfig} (h : AppConfig.load d = .ok c) :
    c.build.platform.isSupported = true := by
  obtain ⟨c₀, hfaults, rfl⟩ := faults_of_load h
  show c₀.build.platform.isSupported = true
  cases hsupported : c₀.build.platform.isSupported with
  | true => rfl
  | false =>
    have hmem := mem_faults_unsupported hsupported
    rw [hfaults] at hmem
    nomatch hmem

namespace Build

/-! ## The first step of a build -/

/-- What a build does when the output directory is empty. -/
def afterReset (bound : Nat) (b : Bundler) (entry : Bundle.ServerEntry) (outDir : String) :
    Step Output := do
  let files ← onApp readRoutes
  let inject ← onApp (injectLibrary entry outDir)
  let modules ← withCleanup inject (bundleAndEmit bound b entry files outDir inject)
  return ⟨modules, files⟩

theorem run_onApp {α : Type} (act : App.Action BuildError α) (run : Run) :
    (onApp act).run.run run =
      ((act.run.run run.app).1, { run with app := (act.run.run run.app).2 }) := rfl

/-- A build for a supported platform empties the output directory, and goes on only if it could. -/
theorem run_eq_afterReset (bound : Nat) (b : Bundler) (entry : Bundle.ServerEntry) {app : App}
    (h : app.config.build.platform.isSupported = true) :
    runWithin bound b entry app =
      match (resetOutput (outDirOf app)).run.run app with
      | (.ok (), emptied) => (afterReset bound b entry (outDirOf app)).run.run ⟨emptied, [], 0⟩
      | (.error e, emptied) => (.error e, ⟨emptied, [], 0⟩) := by
  have hs : (!app.config.build.platform.isSupported) ≠ true := by simp [h]
  unfold runWithin build
  change (if (!app.config.build.platform.isSupported) = true then _ else _ : Step Output) _ = _
  rw [if_neg hs]
  show ((onApp (resetOutput (outDirOf app)) >>= fun _ =>
    afterReset bound b entry (outDirOf app)).run.run ⟨app, [], 0⟩) = _
  rw [run_action_bind, run_onApp]
  rcases (resetOutput (outDirOf app)).run.run app with ⟨result, emptied⟩
  cases result with
  | ok => rfl
  | error e => rfl

/-- Emptying the output directory loses exactly what lies in it. -/
theorem resetOutput_loses {app emptied : App} {outDir : String} {result : Except BuildError Unit}
    (hrun : (resetOutput outDir).run.run app = (result, emptied)) (key : String) :
    Disk.Loses app.disk emptied.disk key ↔ (app.disk.entries.get? key).isSome = true ∧
      ∃ place, app.disk.directoryAt? outDir = some place ∧
        Disk.Inside place (Disk.namesOf key) := by
  unfold resetOutput at hrun
  rw [run_action_get_bind] at hrun
  split at hrun
  · rename_i disk hreset
    obtain ⟨-, rfl⟩ := Prod.mk.inj hrun
    exact Disk.resetDirectory_loses hreset key
  · rename_i cause hreset
    obtain ⟨-, rfl⟩ := Prod.mk.inj hrun
    refine iff_of_false (Disk.not_loses_self _ _) ?_
    rintro ⟨-, place, hplace, -⟩
    obtain ⟨disk, hdisk⟩ := Disk.resetDirectory_ok hplace
    rw [hdisk] at hreset
    nomatch hreset

/-- A configured path of plain names costs nothing but what lies below these names. -/
theorem resetOutput_keeps_of_plain {app emptied : App} {result : Except BuildError Unit}
    {names : List String} (hpath : app.config.outputPath = Disk.keyOf names)
    (hnames : ∀ name ∈ names, Disk.IsPlain name)
    (hrun : (resetOutput (outDirOf app)).run.run app = (result, emptied)) {key : String}
    (hkey : Disk.isBelow (Disk.namesOf key) names = false) :
    ¬app.disk.Loses emptied.disk key := by
  rw [resetOutput_loses hrun, outDirOf, hpath]
  rintro ⟨-, place, hplace, hinside⟩
  obtain rfl := Disk.eq_of_directoryAt?_pathOf hnames hplace
  exact Bool.false_ne_true (hkey.symm.trans hinside)

/-- The first thing that a build of an accepted configuration does is to empty the output
directory, and what that deletes is exactly what lies in it.  If it is a directory below the app
root, the configuration is not deleted, and a file of a route is deleted exactly if it lies
there. -/
theorem run_loses {d₀ : Disk} {app : App} (hconfig : AppConfig.load d₀ = .ok app.config)
    (bound : Nat) (b : Bundler) (entry : Bundle.ServerEntry) :
    ∃ result emptied,
      (resetOutput (outDirOf app)).run.run app = (result, emptied) ∧
      runWithin bound b entry app =
        (match result with
        | .ok () => (afterReset bound b entry (outDirOf app)).run.run ⟨emptied, [], 0⟩
        | .error e => (.error e, ⟨emptied, [], 0⟩)) ∧
      (∀ key, app.disk.Loses emptied.disk key ↔ (app.disk.entries.get? key).isSome = true ∧
        ∃ place, app.disk.directoryAt? (outDirOf app) = some place ∧
          Disk.Inside place (Disk.namesOf key)) ∧
      ∀ dir, dir ≠ [] → app.disk.directoryAt? (outDirOf app) = some (some dir) →
        ¬app.disk.Loses emptied.disk AppConfig.fileName ∧
        ∀ table, RouteTable.load app.config.routes app.disk = .ok table → ∀ r ∈ table.routes,
          ∃ key content, app.disk.entries.get? key = some (.file content) ∧
            r.filename = RouteTable.fileSpecifier (Disk.namesOf key) ∧
            (app.disk.Loses emptied.disk key ↔ Disk.isBelow (Disk.namesOf key) dir = true) := by
  have hrun := run_eq_afterReset bound b entry (AppConfig.isSupported_of_load hconfig)
  rcases hreset : (resetOutput (outDirOf app)).run.run app with ⟨result, emptied⟩
  rw [hreset] at hrun
  have hloses := resetOutput_loses hreset
  refine ⟨result, emptied, rfl, ?_, hloses, ?_⟩
  · rw [hrun]
    cases result with
    | ok => rfl
    | error e => rfl
  intro dir hdir hplace
  have hlost : ∀ key, app.disk.Loses emptied.disk key ↔
      (app.disk.entries.get? key).isSome = true ∧
        Disk.isBelow (Disk.namesOf key) dir = true := by
    intro key
    rw [hloses, hplace]
    simp [Disk.Inside]
  constructor
  · have hname : Disk.namesOf AppConfig.fileName = [AppConfig.fileName] := by decide
    rw [hlost, hname, Disk.isBelow_singleton _ hdir]
    simp
  · intro table htable r hr
    obtain ⟨key, content, hentry, hfile⟩ := RouteTable.exists_file_of_mem_routes htable hr
    refine ⟨key, content, hentry, hfile, ?_⟩
    rw [hlost, hentry]
    simp

/-- A disk with an app that has a route, an earlier build, and a configured output directory. -/
def pagesDisk (output : String) : Disk :=
  ⟨"/app", Dict.ofList
    [("routekit.toml", .file ("[routes]\ndir = \"pages\"\nexts = [\".tsx\"]\n" ++
        "[build]\noutput_dir = \"" ++ output ++ "\"\n").toUTF8),
      ("pages", .directory), ("pages/a.tsx", .file ByteArray.empty),
      ("dist", .directory), ("dist/old.js", .file ByteArray.empty)]⟩

/-- The app on it, with a configuration. -/
def pagesApp (output : String) (config : AppConfig) : App :=
  { surroundings := ⟨fun url => .error (.request url), fun _ => none,
      fun _ s _ => .error (.request s)⟩
    pipeline := Pipeline.standard false ImportMap.empty
    disk := pagesDisk output
    config, graph? := none, routes := RouteTable.empty, homePort := 3000, port := 3000
    registered := Dict.empty, now := 7, requests := [], fetched := [] }

/-- How the disk can be configured: what is said of routes, and the path of the output. -/
theorem load_pagesDisk (output path : String) {routes : Option RoutesConfig}
    (h : (AppConfig.load (pagesDisk output)).toOption.map (fun c => (c.routes, c.outputPath)) =
      some (routes, path)) :
    ∃ config, AppConfig.load (pagesDisk output) = .ok config ∧ config.routes = routes ∧
      outDirOf (pagesApp output config) = (pagesDisk output).pathOf path := by
  obtain ⟨config, hconfig, hsettings⟩ := Option.map_eq_some_iff.1 h
  obtain ⟨hroutes, hpath⟩ := Prod.mk.inj hsettings
  refine ⟨config, eq_ok_of_toOption hconfig, hroutes, ?_⟩
  rw [← hpath]
  rfl

/-- The earlier build is deleted; the configuration and the route stay. -/
theorem run_loses_earlier :
    ∃ config, AppConfig.load (pagesDisk "dist") = .ok config ∧
      let app := pagesApp "dist" config
      ∃ result emptied, (resetOutput (outDirOf app)).run.run app = (result, emptied) ∧
        app.disk.Loses emptied.disk "dist/old.js" ∧
        ¬app.disk.Loses emptied.disk AppConfig.fileName ∧
        ∃ table, RouteTable.load app.config.routes app.disk = .ok table ∧
          ∃ r ∈ table.routes, r.filename = "./pages/a.tsx" ∧
            ∃ key, r.filename = RouteTable.fileSpecifier (Disk.namesOf key) ∧
              ¬app.disk.Loses emptied.disk key := by
  obtain ⟨config, hconfig, hsettings, hout⟩ := load_pagesDisk "dist" "dist"
    (show _ = some (some (.dir "pages" [".tsx"] false), _) by decide +kernel)
  refine ⟨config, hconfig, ?_⟩
  intro app
  have hconfig : AppConfig.load (pagesDisk "dist") = .ok app.config := hconfig
  have hplace : app.disk.directoryAt? (outDirOf app) = some (some ["dist"]) := by
    rw [hout]
    show (pagesDisk "dist").directoryAt? ((pagesDisk "dist").pathOf "dist") = _
    decide +kernel
  have hroutes : (RouteTable.load app.config.routes app.disk).toOption.map
      (·.routes.map (·.filename)) = some ["./pages/a.tsx"] := by
    show (RouteTable.load config.routes (pagesDisk "dist")).toOption.map _ = _
    rw [hsettings]
    decide +kernel
  obtain ⟨table, htable, hnames⟩ := Option.map_eq_some_iff.1 hroutes
  have htable := eq_ok_of_toOption htable
  obtain ⟨r, hr, hfile⟩ : ∃ r ∈ table.routes, r.filename = "./pages/a.tsx" :=
    List.mem_map.1 (hnames ▸ List.mem_cons_self ..)
  obtain ⟨result, emptied, hreset, -, hloses, hbelow⟩ :=
    run_loses hconfig maxLevels copyingBundler .standard
  obtain ⟨hkept, hfiles⟩ := hbelow ["dist"] (by decide) hplace
  obtain ⟨key, content, hentry, hname, hlost⟩ := hfiles table htable r hr
  refine ⟨result, emptied, hreset, ?_, hkept, table, htable, r, hr, hfile, key, hname, ?_⟩
  · have hthere : ((pagesDisk "dist").entries.get? "dist/old.js").isSome = true := by
      decide +kernel
    have hinside : Disk.isBelow (Disk.namesOf "dist/old.js") ["dist"] = true := by decide
    rw [hloses]
    exact ⟨hthere, some ["dist"], hplace, hinside⟩
  · have hspecifier : "./pages/a.tsx" = RouteTable.fileSpecifier (Disk.namesOf "pages/a.tsx") := by
      decide
    have hkey := RouteTable.fileSpecifier_inj (hname.symm.trans (hfile.trans hspecifier))
    rw [hlost, hkey]
    decide

/-- Both configurations are accepted: with the app root for its output directory a build deletes
the configuration itself, and with the directory of the routes it deletes a route. -/
theorem run_loses_sources :
    (∃ config, AppConfig.load (pagesDisk ".") = .ok config ∧
      let app := pagesApp "." config
      app.disk.Loses ((resetOutput (outDirOf app)).run.run app).2.disk AppConfig.fileName) ∧
    ∃ config, AppConfig.load (pagesDisk "pages") = .ok config ∧
      let app := pagesApp "pages" config
      (RouteTable.load app.config.routes app.disk).toOption.map (·.routes.map (·.filename)) =
          some ["./pages/a.tsx"] ∧
        app.disk.Loses ((resetOutput (outDirOf app)).run.run app).2.disk "pages/a.tsx" := by
  constructor
  · obtain ⟨config, hconfig, -, hout⟩ := load_pagesDisk "." "."
      (show _ = some (some (.dir "pages" [".tsx"] false), _) by decide +kernel)
    refine ⟨config, hconfig, ?_⟩
    intro app
    have hplace : app.disk.directoryAt? (outDirOf app) = some (some []) := by
      rw [hout]
      show (pagesDisk ".").directoryAt? ((pagesDisk ".").pathOf ".") = _
      decide +kernel
    have hthere : ((pagesDisk ".").entries.get? AppConfig.fileName).isSome = true := by
      decide +kernel
    have hinside : Disk.isBelow (Disk.namesOf AppConfig.fileName) [] = true := by decide
    apply (resetOutput_loses (Prod.ext rfl rfl) _).2
    exact ⟨hthere, some [], hplace, hinside⟩
  · obtain ⟨config, hconfig, hsettings, hout⟩ := load_pagesDisk "pages" "pages"
      (show _ = some (some (.dir "pages" [".tsx"] false), _) by decide +kernel)
    refine ⟨config, hconfig, ?_⟩
    intro app
    have hplace : app.disk.directoryAt? (outDirOf app) = some (some ["pages"]) := by
      rw [hout]
      show (pagesDisk "pages").directoryAt? ((pagesDisk "pages").pathOf "pages") = _
      decide +kernel
    have hthere : ((pagesDisk "pages").entries.get? "pages/a.tsx").isSome = true := by
      decide +kernel
    have hinside : Disk.isBelow (Disk.namesOf "pages/a.tsx") ["pages"] = true := by decide
    constructor
    · show (RouteTable.load config.routes (pagesDisk "pages")).toOption.map _ = _
      rw [hsettings]
      decide +kernel
    · apply (resetOutput_loses (Prod.ext rfl rfl) _).2
      exact ⟨hthere, some ["pages"], hplace, hinside⟩

end Build
end Waymark
