import Waymark.Proofs.App.Kept
import Waymark.Proofs.App.Watched
/-!
# Configurations that are taken over

When the configuration file changes it is loaded anew.  What does not load is as if nothing
had happened.  What loads is taken over together with its routes, which are always found:
a configuration is only accepted if its routes compile.

So an app never runs under a configuration that was not accepted, nor with a table that
was found under another one, however edits, changes and requests follow each other.  One
change passes unnoticed: an app whose output directory has the name of the configuration
file takes the file for a part of its output.

## Main results

* `specifierFor_config_iff` — which changes are changes of the configuration.
* `handle_config` — what such a change does.
* `told_handle` — all that becomes of an app that is told of a change.
* `settingsAfter_perform` — what any event leaves of the configuration and the routes.
* `performAll_reloads` — under which configuration an app runs after a session.
-/

namespace Waymark

/-- What was loaded has routes on every disk. -/
theorem AppConfig.exists_table_of_load {d : Disk} {config : AppConfig}
    (h : AppConfig.load d = .ok config) (d' : Disk) :
    ∃ routes, RouteTable.load config.routes d' = .ok routes := by
  obtain ⟨accepted, hfaults, rfl⟩ := AppConfig.faults_of_load h
  show ∃ routes, RouteTable.load accepted.routes d' = .ok routes
  cases hroutes : accepted.routes with
  | none => exact ⟨_, rfl⟩
  | some routes =>
    cases hcompile : RouteFiles.compile routes with
    | ok files => exact ⟨_, RouteTable.load_of_compile hcompile d'⟩
    | error e =>
      -- a glob that cannot be read would have been a fault
      have hfault : ConfigFault.invalidRoutes e ∈ accepted.faults := by
        simp [AppConfig.faults, AppConfig.routeFaults, hroutes, hcompile]
      rw [hfaults] at hfault
      exact absurd hfault List.not_mem_nil

namespace App

/-! ## Changes of the configuration -/

/-- A path is that of the configuration file. -/
def IsConfigPath (app : App) (path : String) : Prop :=
  app.watchedNames? path = some [AppConfig.fileName]

/-- The configuration file does not count as output. -/
def HeedsConfig (app : App) : Prop := app.config.outputPath ≠ AppConfig.fileName

section
variable {app : App} {path : String}

theorem isName_of_watchedNames? {names : List String} (h : app.watchedNames? path = some names) :
    ∀ name ∈ names, Disk.IsName name := by
  unfold watchedNames? at h
  cases hbelow : app.disk.namesBelow path with
  | none =>
    rw [hbelow] at h
    nomatch h
  | some steps =>
    rw [hbelow] at h
    dsimp only at h
    split at h
    · nomatch h
    · obtain rfl := Option.some.inj h
      intro name hname
      unfold Disk.namesBelow at hbelow
      split at hbelow
      · nomatch hbelow
      · split at hbelow
        · obtain rfl := Option.some.inj hbelow
          exact Disk.isName_of_mem_namesOf (List.mem_filter.1 hname).1
        · nomatch hbelow

/-- A change is handled as one of the configuration exactly if its path is that of the file and
the file does not count as output. -/
theorem specifierFor_config_iff :
    app.specifierFor path = some ("./" ++ AppConfig.fileName) ↔
      app.IsConfigPath path ∧ app.HeedsConfig := by
  have hfile : "./" ++ AppConfig.fileName = RouteTable.fileSpecifier [AppConfig.fileName] := by
    decide
  unfold specifierFor IsConfigPath HeedsConfig
  cases hnames : app.watchedNames? path with
  | none => simp
  | some names =>
    dsimp only
    constructor
    · intro h
      split at h
      · nomatch h
      · rename_i hheeded
        have hkey : Disk.keyOf names = Disk.keyOf [AppConfig.fileName] := by
          have := (Option.some.inj h).trans hfile
          simpa [RouteTable.fileSpecifier] using this
        have hone : ∀ name ∈ [AppConfig.fileName], Disk.IsName name := by
          intro name hname
          obtain rfl := List.mem_singleton.1 hname
          exact ⟨by decide, by decide⟩
        obtain rfl := (Disk.keyOf_inj (isName_of_watchedNames? hnames) hone).1 hkey
        refine ⟨rfl, ?_⟩
        intro houtput
        rw [houtput] at hheeded
        exact hheeded (by simp)
    · rintro ⟨hconfig, hheeded⟩
      obtain rfl := Option.some.inj hconfig
      have hignored : [AppConfig.fileName].any isIgnored = false := by decide
      have helsewhere : decide ([AppConfig.fileName].head? = some app.config.outputPath) = false :=
        decide_eq_false fun h => hheeded (Option.some.inj h).symm
      rw [hignored, helsewhere, hfile]
      rfl

/-- A configuration that does not load changes nothing; one that loads is in force, together with
the routes that are found under it, and this is reported. -/
theorem handle_config (hpath : app.IsConfigPath path) (hheeds : app.HeedsConfig)
    (kind : ChangeKind) :
    (∀ cause, AppConfig.load app.disk = .error cause → app.handle kind path = (app, none)) ∧
      ∀ config, AppConfig.load app.disk = .ok config →
        ∃ routes, RouteTable.load config.routes app.disk = .ok routes ∧
          app.handle kind path = ({ app with config, routes }, some .config) := by
  have hhandle : app.handle kind path = app.reloadConfig := by
    unfold handle
    rw [specifierFor_config_iff.2 ⟨hpath, hheeds⟩]
    exact if_pos rfl
  rw [hhandle]
  constructor
  · intro cause hload
    unfold reloadConfig
    rw [hload]
  · intro config hload
    obtain ⟨routes, hroutes⟩ := AppConfig.exists_table_of_load hload app.disk
    refine ⟨routes, hroutes, ?_⟩
    unfold reloadConfig refreshRoutes
    rw [hload]
    dsimp only
    rw [hroutes]
    rfl

end

/-! ## Changes of any file -/

/-- What becomes of an app that is told of a change: another graph, or other routes, or another
configuration and its routes. -/
inductive Told (app : App) : App → Prop where
  | graph (graph? : Option Graph) : Told app { app with graph? }
  | refreshed {routes : RouteTable}
      (hroutes : RouteTable.load app.config.routes app.disk = .ok routes) :
      Told app { app with routes }
  | reloaded {config : AppConfig} {routes : RouteTable}
      (hconfig : AppConfig.load app.disk = .ok config)
      (hroutes : RouteTable.load config.routes app.disk = .ok routes) :
      Told app { app with config, routes }

theorem Told.refreshRoutes {app next : App} (h : app.refreshRoutes = .ok next) : Told app next := by
  unfold App.refreshRoutes at h
  cases hroutes : RouteTable.load app.config.routes app.disk with
  | error e =>
    rw [hroutes] at h
    nomatch h
  | ok routes =>
    rw [hroutes] at h
    obtain rfl := Except.ok.inj h
    exact .refreshed hroutes

theorem told_handleModule (app : App) (kind : ChangeKind) (s : Specifier) :
    Told app (app.handleModule kind s).1 := by
  unfold handleModule
  split
  · split
    · split
      · rename_i hrefreshed
        exact .refreshRoutes hrefreshed
      · exact .graph app.graph?
    · exact .graph app.graph?
  · dsimp only
    split
    · exact .graph _
    · exact .graph _

theorem told_handle (app : App) (kind : ChangeKind) (path : String) :
    Told app (app.handle kind path).1 := by
  cases hs : app.specifierFor path with
  | none =>
    rw [handle_unwatched kind hs]
    exact .graph app.graph?
  | some s =>
    by_cases hconfig : s = "./" ++ AppConfig.fileName
    · obtain ⟨hpath, hheeds⟩ := specifierFor_config_iff.1 (hconfig ▸ hs)
      obtain ⟨hfails, htakes⟩ := handle_config hpath hheeds kind
      cases hload : AppConfig.load app.disk with
      | error cause =>
        rw [hfails cause hload]
        exact .graph app.graph?
      | ok config =>
        obtain ⟨routes, hroutes, hhandle⟩ := htakes config hload
        rw [hhandle]
        exact .reloaded hload hroutes
    · unfold handle
      rw [hs]
      dsimp only
      rw [if_neg hconfig]
      exact told_handleModule app kind s

/-! ## Sessions -/

/-- No answer touches the configuration, the routes or the files. -/
theorem keptByAnswers_settings (app : App) :
    KeptByAnswers fun a => a.config = app.config ∧ a.routes = app.routes ∧ a.disk = app.disk where
  requested h _ := h
  fetched h _ := h
  ensured h := h
  marked h _ _ _ := h

/-- What an event leaves of the configuration and the routes. -/
inductive SettingsAfter (app next : App) : Prop where
  | kept (config : next.config = app.config) (routes : next.routes = app.routes)
  | refreshed (config : next.config = app.config)
      (routes : RouteTable.load next.config.routes app.disk = .ok next.routes)
  | reloaded (config : AppConfig.load app.disk = .ok next.config)
      (routes : RouteTable.load next.config.routes app.disk = .ok next.routes)

theorem Told.settings {app next : App} (h : Told app next) : SettingsAfter app next := by
  cases h with
  | graph graph? => exact .kept rfl rfl
  | refreshed hroutes => exact .refreshed rfl hroutes
  | reloaded hconfig hroutes => exact .reloaded hconfig hroutes

/-- An event leaves the configuration and the routes, or finds the routes anew, or loads both. -/
theorem settingsAfter_perform (app : App) (event : Event) :
    SettingsAfter app (app.perform event) := by
  cases event with
  | request uri =>
    obtain ⟨hconfig, hroutes, -⟩ :=
      keeps_answerWithin (keptByAnswers_settings app) _ uri app ⟨rfl, rfl, rfl⟩
    exact .kept hconfig hroutes
  | change kind path => exact (told_handle app kind path).settings
  | world entries surroundings now => exact .kept rfl rfl

theorem performAll_concat (app : App) (events : List Event) (event : Event) :
    app.performAll (events ++ [event]) = (app.performAll events).perform event := by
  simp [performAll]

/-- At some point of a session. -/
def Once (app : App) (events : List Event) (P : App → Prop) : Prop :=
  ∃ before, before <+: events ∧ P (app.performAll before)

theorem Once.concat {app : App} {events : List Event} {P : App → Prop} (h : Once app events P)
    (event : Event) : Once app (events ++ [event]) P := by
  obtain ⟨before, hbefore, hp⟩ := h
  exact ⟨before, hbefore.trans (List.prefix_append events [event]), hp⟩

theorem Once.last {app : App} {events : List Event} {P : App → Prop}
    (h : P (app.performAll events)) (event : Event) : Once app (events ++ [event]) P :=
  ⟨events, List.prefix_append events [event], h⟩

/-- After a session the configuration in force is the first one or was loaded at some point. -/
theorem performAll_config (app : App) (events : List Event) :
    (app.performAll events).config = app.config ∨
      Once app events fun point =>
        AppConfig.load point.disk = .ok (app.performAll events).config := by
  induction events using List.reverseRecOn with
  | nil => exact Or.inl rfl
  | append_singleton events event ih =>
    rw [performAll_concat]
    rcases settingsAfter_perform (app.performAll events) event with
      ⟨hconfig, -⟩ | ⟨hconfig, -⟩ | ⟨hload, -⟩
    · rw [hconfig]
      exact ih.imp_right fun h => h.concat event
    · rw [hconfig]
      exact ih.imp_right fun h => h.concat event
    · exact Or.inr (.last hload event)

/-- After a session the routes and the configuration are the first ones, or the routes are those
that were found under that configuration at some point. -/
theorem performAll_routes (app : App) (events : List Event) :
    ((app.performAll events).config = app.config ∧
        (app.performAll events).routes = app.routes) ∨
      Once app events fun point =>
        RouteTable.load (app.performAll events).config.routes point.disk =
          .ok (app.performAll events).routes := by
  induction events using List.reverseRecOn with
  | nil => exact Or.inl ⟨rfl, rfl⟩
  | append_singleton events event ih =>
    rw [performAll_concat]
    rcases settingsAfter_perform (app.performAll events) event with
      ⟨hconfig, hroutes⟩ | ⟨-, hroutes⟩ | ⟨-, hroutes⟩
    · rw [hconfig, hroutes]
      exact ih.imp_right fun h => h.concat event
    · exact Or.inr (.last hroutes event)
    · exact Or.inr (.last hroutes event)

/-- At every point of a session a change of the configuration file, unless it counts as output,
changes nothing and reports nothing if the file does not load, and else puts the loaded
configuration in force, with the routes found under it.  So the configuration in force is the
first one or was loaded at some point, and the routes were found under it or are the first ones. -/
theorem performAll_reloads (app : App) (events : List Event) :
    let here := app.performAll events
    (∀ kind path, here.IsConfigPath path → here.HeedsConfig →
      (∀ cause, AppConfig.load here.disk = .error cause → here.handle kind path = (here, none)) ∧
        ∀ config, AppConfig.load here.disk = .ok config →
          ∃ routes, RouteTable.load config.routes here.disk = .ok routes ∧
            here.handle kind path = ({ here with config, routes }, some .config)) ∧
      (here.config = app.config ∨
        Once app events fun point => AppConfig.load point.disk = .ok here.config) ∧
      (here.config = app.config ∧ here.routes = app.routes ∨
        Once app events fun point =>
          RouteTable.load here.config.routes point.disk = .ok here.routes) := by
  refine ⟨?_, performAll_config app events, performAll_routes app events⟩
  intro kind path hpath hheeds
  exact handle_config hpath hheeds kind

/-- A disk with a configuration file and nothing else. -/
def settingsDisk (text : String) : Disk :=
  ⟨"/app", Dict.ofList [(AppConfig.fileName, .file text.toUTF8)]⟩

/-- The text of a configuration with another port. -/
def portText : String := "[module_server]\nport = 7070\n"

/-- A new port is taken over, and is still in force when the file is broken after that. -/
theorem performAll_reloads_port :
    let app := aloneOn (settingsDisk portText) {}
    let here := app.performAll [.change .modified "/app/routekit.toml",
      .world (settingsDisk "[build").entries app.surroundings 8]
    here.IsConfigPath "/app/routekit.toml" ∧ here.HeedsConfig ∧
      here.handle .modified "/app/routekit.toml" = (here, none) ∧
      here.config.moduleServer.port = 7070 := by
  intro app here
  have hpath : here.IsConfigPath "/app/routekit.toml" := by
    unfold IsConfigPath
    decide +kernel
  have hheeds : here.HeedsConfig := by
    unfold HeedsConfig
    decide +kernel
  refine ⟨hpath, hheeds, ?_, by decide +kernel⟩
  obtain ⟨hreloads, -⟩ := performAll_reloads app [.change .modified "/app/routekit.toml",
    .world (settingsDisk "[build").entries app.surroundings 8]
  obtain ⟨hfails, -⟩ := hreloads .modified "/app/routekit.toml" hpath hheeds
  have hbroken : (AppConfig.load here.disk).toOption.isNone = true := by decide +kernel
  cases hload : AppConfig.load here.disk with
  | ok config =>
    rw [hload] at hbroken
    nomatch hbroken
  | error cause => exact hfails cause hload

/-- A configuration is accepted that makes its own file the output directory.  Then the next one
loads, but it is not taken over. -/
theorem handle_misses_config :
    let outputText := "[build]\noutput_dir = \"routekit.toml\"\n"
    ∃ config, AppConfig.load (settingsDisk outputText) = .ok config ∧
      let app := aloneOn (settingsDisk outputText) config
      let here := app.performAll [.world (settingsDisk portText).entries app.surroundings 8]
      here.IsConfigPath "/app/routekit.toml" ∧
        (∃ next, AppConfig.load here.disk = .ok next ∧ next.moduleServer.port = 7070) ∧
        here.handle .modified "/app/routekit.toml" = (here, none) ∧
        here.config.moduleServer.port = 6060 := by
  intro outputText
  have hsettings : (AppConfig.load (settingsDisk outputText)).toOption.map
      (fun c => (c.outputPath, c.moduleServer.port)) = some ("routekit.toml", 6060) := by
    decide +kernel
  obtain ⟨config, hconfig, hfirst⟩ := Option.map_eq_some_iff.1 hsettings
  obtain ⟨houtput, hport⟩ := Prod.mk.inj hfirst
  have hnext : (AppConfig.load (settingsDisk portText)).toOption.map (·.moduleServer.port) =
      some 7070 := by
    decide +kernel
  obtain ⟨next, hload, hnext⟩ := Option.map_eq_some_iff.1 hnext
  refine ⟨config, eq_ok_of_toOption hconfig, ?_⟩
  intro app here
  have hpath : here.IsConfigPath "/app/routekit.toml" := by
    show (aloneOn (settingsDisk outputText) {}).watchedNames? "/app/routekit.toml" = _
    decide +kernel
  refine ⟨hpath, ⟨next, eq_ok_of_toOption hload, hnext⟩, ?_, hport⟩
  apply handle_unwatched
  unfold specifierFor
  rw [hpath]
  dsimp only
  rw [show here.config.outputPath = "routekit.toml" from houtput]
  decide

end App
end Waymark
