import Waymark.Proofs.App.Watched
import Waymark.Proofs.Graph.Versions
/-!
# Files that go and come back

What an app does about a file that is no route depends on how it is told of.  That the file has
gone, or that it is there, is of no interest: only when the file is modified its module gets a
new version, and those that depend on it are reported.  So a file that is taken away and written
again passes unnoticed until its new content is told of as a modification.

As the file comes and goes, nothing that decides over it changes: neither its specifier nor
whether it is a route, whatever is on the disk by then.  The graph goes through one update for
each modification and through nothing else.

## Main results

* `handle_unmodified` — a file that comes or goes is not reported, and nothing is done.
* `handle_recorded` — a file that is modified is reported, and its version moves on.
* `performAll_updates` — the graph after a session about one file, and all that was reported.
* `modifications_report` — a module is reported and moves on exactly when its file is modified.
* `handle_misses_rewritten` — a file that is written again and not told of as modified.
-/

namespace Waymark

namespace Graph

variable {g : Graph} {s : Specifier}

/-- A record is still there if its dependencies are. -/
theorem exists_get?_of_deps {g' : Graph} {r : ModuleRecord}
    (h : (g'.get? s).map (·.deps) = (g.get? s).map (·.deps)) (hr : g.get? s = some r) :
    ∃ r', g'.get? s = some r' := by
  rw [hr, Option.map_some] at h
  obtain ⟨r', hr', -⟩ := Option.map_eq_some_iff.1 h
  exact ⟨r', hr'⟩

theorem affected_update (g : Graph) (now : Version) (s t : Specifier) :
    (g.update now s).affected t = g.affected t :=
  affected_congr (deps_update g now s) t

/-- Updates leave all dependencies as they are. -/
theorem deps_updates {calls : List Call} (hcalls : ∀ c ∈ calls, c.edit = .update s)
    (k : Specifier) : ((g.performAll calls).get? k).map (·.deps) = (g.get? k).map (·.deps) := by
  induction calls generalizing g with
  | nil => rfl
  | cons c calls ih =>
    have hc : g.perform c = g.update c.now s := by
      rw [perform, hcalls c (List.mem_cons_self ..)]
    rw [performAll_cons, hc, ih fun c hmem => hcalls c (List.mem_cons_of_mem _ hmem), deps_update]

/-- After some updates of a recorded module its version is above the clock they began with. -/
theorem clock_lt_versionOf {r : ModuleRecord} (hg : Sound g) (hroom : g.clock < Version.last)
    (hr : g.get? s = some r) {calls : List Call} (hcalls : ∀ c ∈ calls, c.edit = .update s)
    (hlast : ∀ v ∈ g.handedAll calls, v < Version.last) (hne : calls ≠ []) :
    g.clock < (g.performAll calls).versionOf s := by
  obtain ⟨before, c, hcalls_eq⟩ := (List.eq_nil_or_concat calls).resolve_left hne
  rw [List.concat_eq_append] at hcalls_eq
  subst hcalls_eq
  have hbefore : ∀ c ∈ before, c.edit = .update s := fun c hc =>
    hcalls c (List.mem_append_left _ hc)
  obtain ⟨hsound, hclock, hlt⟩ := hg.performAll hroom before fun v hv =>
    hlast v (by rw [handedAll_append]; exact List.mem_append_left _ hv)
  -- The last update alone decides: it hands out a version above the clock.
  obtain ⟨old, hold⟩ := exists_get?_of_deps (deps_updates hbefore s) hr
  obtain ⟨v, hv, hrecord⟩ :=
    (perform_follows hsound c hlt).updated s old (hcalls c (by simp)) hold
  have hversion : (g.performAll (before ++ [c])).versionOf s = v := by
    rw [performAll_append, performAll_cons, performAll_nil, versionOf, hrecord]
  rw [hversion]
  exact UInt64.lt_of_le_of_lt hclock (handed_spec hsound hlt hv).1

end Graph

namespace App

variable {app : App} {s : Specifier} {path : String}

/-! ## What is done about a file -/

/-- Nothing is done about a file that comes or goes, unless it is a route. -/
theorem handle_unmodified (hpath : app.specifierFor path = some s)
    (hmodule : s ≠ "./" ++ AppConfig.fileName) (hroute : app.isRouteFile s = false)
    {kind : ChangeKind} (hkind : kind ≠ .modified) : app.handle kind path = (app, none) := by
  unfold handle
  rw [hpath]
  dsimp only
  rw [if_neg hmodule, handleModule, if_pos hkind, hroute]
  rfl

/-- A file that is modified is reported with all modules that its own affects, which moves on. -/
theorem handle_recorded (hpath : app.specifierFor path = some s)
    (hmodule : s ≠ "./" ++ AppConfig.fileName) {r : ModuleRecord}
    (hr : app.graph.get? s = some r) :
    app.handle .modified path = (app.withGraph (app.graph.update app.now s),
      some (.modified s (app.graph.affected s))) := by
  have hgraph : app.ensureGraph.graph = app.graph := rfl
  have hnow : app.ensureGraph.now = app.now := rfl
  unfold handle
  rw [hpath]
  dsimp only
  rw [if_neg hmodule, handleModule, if_neg (by simp)]
  dsimp only
  rw [hgraph, hr]
  dsimp only
  rw [hnow, Graph.affected_update]
  rfl

/-! ## Sessions about one file -/

/-- What an event is reported as. -/
def reported (app : App) : Event → Option Change
  | .change kind path => (app.handle kind path).2
  | .request _ => none
  | .world _ _ _ => none

/-- All that is reported in a session, in order. -/
def reportedAll : App → List Event → List Change
  | _, [] => []
  | app, event :: events => (app.reported event).toList ++ reportedAll (app.perform event) events

/-- The app is told of the file of a module, or only the world around the app changes. -/
def IsAbout (app : App) (s : Specifier) : Event → Prop
  | .change _ path => app.specifierFor path = some s
  | .request _ => False
  | .world _ _ _ => True

/-- A file is told of as modified. -/
def Event.isModification : Event → Bool
  | .change kind _ => kind = .modified
  | .request _ => false
  | .world _ _ _ => false

/-- The updates that the graph goes through in a session about the file of a module, at the times
at which it is told of as modified. -/
def updatesOf (s : Specifier) : Version → List Event → List Graph.Call
  | _, [] => []
  | now, .change kind _ :: events =>
    if kind = .modified then ⟨now, .update s⟩ :: updatesOf s now events
    else updatesOf s now events
  | now, .request _ :: events => updatesOf s now events
  | _, .world _ _ now :: events => updatesOf s now events

theorem edit_of_mem_updatesOf {now : Version} {events : List Event} {c : Graph.Call}
    (h : c ∈ updatesOf s now events) : c.edit = .update s := by
  induction events generalizing now with
  | nil => nomatch h
  | cons event events ih =>
    cases event with
    | request uri => exact ih h
    | world entries surroundings later => exact ih h
    | change kind path =>
      rw [updatesOf] at h
      split at h
      · rcases List.mem_cons.1 h with rfl | hmem
        · rfl
        · exact ih hmem
      · exact ih h

theorem length_updatesOf (s : Specifier) (now : Version) (events : List Event) :
    (updatesOf s now events).length = events.countP Event.isModification := by
  induction events generalizing now with
  | nil => rfl
  | cons event events ih =>
    cases event with
    | request uri => rw [updatesOf, ih, List.countP_cons_of_neg (by simp [Event.isModification])]
    | world entries surroundings later =>
      rw [updatesOf, ih, List.countP_cons_of_neg (by simp [Event.isModification])]
    | change kind path =>
      rw [updatesOf]
      split
      · rename_i hkind
        rw [List.length_cons, ih, List.countP_cons_of_pos (by simp [Event.isModification, hkind])]
      · rename_i hkind
        rw [ih, List.countP_cons_of_neg (by simp [Event.isModification, hkind])]

/-- What decides over the file of a module: its specifier and whether it is a route. -/
structure SameFor (app next : App) : Prop where
  config : next.config = app.config
  routes : next.routes = app.routes
  root : next.disk.root = app.disk.root

theorem SameFor.specifierFor {app next : App} (h : SameFor app next) (path : String) :
    next.specifierFor path = app.specifierFor path := by
  unfold App.specifierFor watchedNames? Disk.namesBelow
  rw [h.config, h.root]

theorem SameFor.isRouteFile {app next : App} (h : SameFor app next) (s : Specifier) :
    next.isRouteFile s = app.isRouteFile s := by
  unfold App.isRouteFile
  rw [h.config, h.routes]

theorem SameFor.isAbout {app next : App} (h : SameFor app next) {event : Event}
    (habout : app.IsAbout s event) : next.IsAbout s event := by
  cases event with
  | change kind path => exact (h.specifierFor path).trans habout
  | request uri => exact habout
  | world entries surroundings now => exact trivial

/-- A graph with a record is there, so that it is not made anew at another time. -/
theorem graph_world {r : ModuleRecord} (hr : app.graph.get? s = some r)
    (entries : Dict DiskEntry) (surroundings : Surroundings) (now : Version) :
    (app.perform (.world entries surroundings now)).graph = app.graph := by
  have hgraph : (app.perform (.world entries surroundings now)).graph =
      app.graph?.getD (Graph.new now) := rfl
  rw [hgraph]
  unfold graph at hr ⊢
  cases hg : app.graph? with
  | some g => rfl
  | none =>
    rw [hg] at hr
    nomatch hr

/-- In a session about the file of a recorded module that is no route, the graph is updated
whenever the file is modified, which is reported each time, and nothing else becomes of it. -/
theorem performAll_updates {r : ModuleRecord} (hr : app.graph.get? s = some r)
    (hroute : app.isRouteFile s = false) (hmodule : s ≠ "./" ++ AppConfig.fileName)
    {events : List Event} (hevents : ∀ event ∈ events, app.IsAbout s event) :
    (app.performAll events).graph = app.graph.performAll (updatesOf s app.now events) ∧
      app.reportedAll events = List.replicate (updatesOf s app.now events).length
        (.modified s (app.graph.affected s)) := by
  induction events generalizing app r with
  | nil => exact ⟨rfl, rfl⟩
  | cons event events ih =>
    have hfirst := hevents event (List.mem_cons_self ..)
    have hrest : ∀ e ∈ events, app.IsAbout s e := fun e he =>
      hevents e (List.mem_cons_of_mem _ he)
    show ((app.perform event).performAll events).graph = _ ∧
      (app.reported event).toList ++ (app.perform event).reportedAll events = _
    cases event with
    | request uri => exact hfirst.elim
    | world entries surroundings now =>
      have hsame : SameFor app (app.perform (.world entries surroundings now)) := ⟨rfl, rfl, rfl⟩
      have hgraph := graph_world hr entries surroundings now
      have h := ih (hgraph ▸ hr) ((hsame.isRouteFile s).trans hroute)
        fun e he => hsame.isAbout (hrest e he)
      rw [hgraph] at h
      exact h
    | change kind path =>
      by_cases hkind : kind = .modified
      · subst hkind
        have hhandle := handle_recorded hfirst hmodule hr
        have hnext : app.perform (.change .modified path) =
            app.withGraph (app.graph.update app.now s) := congrArg Prod.fst hhandle
        have hreported : app.reported (.change .modified path) =
            some (.modified s (app.graph.affected s)) := congrArg Prod.snd hhandle
        have hsame : SameFor app (app.withGraph (app.graph.update app.now s)) := ⟨rfl, rfl, rfl⟩
        obtain ⟨r', hr'⟩ :=
          Graph.exists_get?_of_deps (Graph.deps_update app.graph app.now s s) hr
        have hrecord : (app.withGraph (app.graph.update app.now s)).graph.get? s = some r' := hr'
        obtain ⟨hgraph, hall⟩ := ih hrecord
          ((hsame.isRouteFile s).trans hroute) fun e he => hsame.isAbout (hrest e he)
        rw [hnext, hreported]
        refine ⟨hgraph, ?_⟩
        have hagain : (app.withGraph (app.graph.update app.now s)).graph.affected s =
            app.graph.affected s := Graph.affected_update app.graph app.now s s
        rw [hall, hagain]
        rfl
      · have hhandle := handle_unmodified hfirst hmodule hroute hkind
        have hnext : app.perform (.change kind path) = app := congrArg Prod.fst hhandle
        have hreported : app.reported (.change kind path) = none := congrArg Prod.snd hhandle
        have hupdates : updatesOf s app.now (.change kind path :: events) =
            updatesOf s app.now events := if_neg hkind
        rw [hnext, hreported, hupdates]
        exact ih hr hroute hrest

/-- In a session about the file of a recorded module that is no route, while the files and the
clock change as they may, each modification of the file and nothing else is reported, with all
modules that the module affects.  Without a modification the graph stays as it is; with one, as
long as no version reaches the last one, the module has a later version at the end. -/
theorem modifications_report {r : ModuleRecord} (hr : app.graph.get? s = some r)
    (hroute : app.isRouteFile s = false) (hmodule : s ≠ "./" ++ AppConfig.fileName)
    (hsound : app.graph.Sound) {events : List Event}
    (hevents : ∀ event ∈ events, app.IsAbout s event)
    (hlast : ∀ v ∈ app.graph.clock :: app.graph.handedAll (updatesOf s app.now events),
      v < Version.last) :
    let modifications := events.countP Event.isModification
    app.reportedAll events =
        List.replicate modifications (.modified s (app.graph.affected s)) ∧
      (modifications = 0 → (app.performAll events).graph = app.graph) ∧
      (r.version < (app.performAll events).graph.versionOf s ↔ 0 < modifications) := by
  intro modifications
  obtain ⟨hgraph, hreported⟩ := performAll_updates hr hroute hmodule hevents
  have hlength : (updatesOf s app.now events).length = modifications :=
    length_updatesOf s app.now events
  have hunmodified : modifications = 0 → (app.performAll events).graph = app.graph := by
    intro hnone
    rw [hgraph, List.eq_nil_of_length_eq_zero (hlength.trans hnone), Graph.performAll_nil]
  refine ⟨hlength ▸ hreported, hunmodified, ?_, ?_⟩
  · intro hlater
    refine Nat.pos_of_ne_zero fun hnone => ?_
    rw [hunmodified hnone, Graph.versionOf, hr] at hlater
    exact UInt64.lt_irrefl _ hlater
  · intro hsome
    have hne : updatesOf s app.now events ≠ [] := by
      rw [← List.length_pos_iff, hlength]
      exact hsome
    have habove := Graph.clock_lt_versionOf hsound (hlast _ (List.mem_cons_self ..)) hr
      (fun c hc => edit_of_mem_updatesOf hc) (fun v hv => hlast v (List.mem_cons_of_mem _ hv)) hne
    rw [hgraph]
    exact UInt64.lt_of_le_of_lt (hsound.version_le hr) habove

/-- An app with two modules that an earlier run has left records of, one of which imports the
other. -/
def importedApp : App :=
  (aloneOn ⟨"/app", Dict.ofList [("a.ts", .file "1".toUTF8),
    ("b.ts", .file "import './a.ts'".toUTF8)]⟩ {}).withGraph
      (Graph.ofRecords 5 [⟨"./a.ts", 5, [], none⟩, ⟨"./b.ts", 6, ["./a.ts"], none⟩])

theorem affected_importedApp : importedApp.graph.affected "./a.ts" = ["./b.ts"] := by
  have hfirst : importedApp.graph.freshDependents "./a.ts" [] "./a.ts" = ["./b.ts"] := by
    decide +kernel
  have hsecond : importedApp.graph.freshDependents "./a.ts" ["./b.ts"] "./b.ts" = [] := by
    decide +kernel
  rw [Graph.affected, Graph.spread, hfirst, List.nil_append, Graph.spread, hsecond,
    List.append_nil, List.append_nil, Graph.spread]
  decide

/-- The imported file is taken away, and then another one is written in its place. -/
def rewriting : List Event :=
  [.world (importedApp.disk.clear ["a.ts"] true).entries importedApp.surroundings 8,
    .change .removed "/app/a.ts",
    .world (importedApp.disk.put ["a.ts"] (.file "2".toUTF8)).entries importedApp.surroundings 9,
    .change .created "/app/a.ts"]

theorem isAbout_rewriting : ∀ event ∈ rewriting, importedApp.IsAbout "./a.ts" event := by
  have hpath : importedApp.specifierFor "/app/a.ts" = some "./a.ts" := by decide +kernel
  intro event hevent
  simp only [rewriting, List.mem_cons, List.not_mem_nil, or_false] at hevent
  rcases hevent with rfl | rfl | rfl | rfl
  · exact trivial
  · exact hpath
  · exact trivial
  · exact hpath

/-- A file that is written again is reported when it is told of as modified after that. -/
theorem modifications_report_rewritten :
    let events := rewriting ++ [.change .modified "/app/a.ts"]
    importedApp.isRouteFile "./a.ts" = false ∧
      importedApp.reportedAll events = [.modified "./a.ts" ["./b.ts"]] ∧
      (5 : Version) < (importedApp.performAll events).graph.versionOf "./a.ts" := by
  intro events
  have hr : importedApp.graph.get? "./a.ts" = some ⟨"./a.ts", 5, [], none⟩ := by decide +kernel
  have hroute : importedApp.isRouteFile "./a.ts" = false := by decide +kernel
  have hsound : importedApp.graph.Sound := (Graph.MadeOf.ofRecords _ _).sound
  have hevents : ∀ event ∈ events, importedApp.IsAbout "./a.ts" event := by
    intro event hevent
    rcases List.mem_append.1 hevent with hevent | hevent
    · exact isAbout_rewriting event hevent
    · obtain rfl := List.mem_singleton.1 hevent
      show importedApp.specifierFor "/app/a.ts" = some "./a.ts"
      decide +kernel
  have hlast : ∀ v ∈ importedApp.graph.clock ::
      importedApp.graph.handedAll (updatesOf "./a.ts" importedApp.now events),
        v < Version.last := by
    have hall : (importedApp.graph.clock ::
        importedApp.graph.handedAll (updatesOf "./a.ts" importedApp.now events)).all
          (· < Version.last) = true := by
      decide +kernel
    exact fun v hv => of_decide_eq_true (List.all_eq_true.1 hall v hv)
  obtain ⟨hreported, -, hversion⟩ :=
    modifications_report hr hroute (by decide) hsound hevents hlast
  rw [affected_importedApp] at hreported
  exact ⟨hroute, hreported, hversion.2 (by decide +kernel)⟩

/-- A file with a record, which is watched and no route, and on which another module depends: it is
taken away and written again with another content, and told of as gone and as new.  It keeps its
version, and nothing is reported. -/
theorem handle_misses_rewritten :
    let after := importedApp.performAll rewriting
    IsWatched importedApp ["a.ts"] ∧ importedApp.isRouteFile "./a.ts" = false ∧
      importedApp.graph.get? "./a.ts" = some ⟨"./a.ts", 5, [], none⟩ ∧
      importedApp.graph.affected "./a.ts" = ["./b.ts"] ∧
      (importedApp.disk.readText "/app/a.ts").toOption = some "1" ∧
      (after.disk.readText "/app/a.ts").toOption = some "2" ∧
      after.graph.versionOf "./a.ts" = importedApp.graph.versionOf "./a.ts" ∧
      importedApp.reportedAll rewriting = [] := by
  intro after
  refine ⟨⟨by decide, ?_, by decide, by decide +kernel, by decide⟩, by decide +kernel,
    by decide +kernel, affected_importedApp, by decide +kernel⟩
  intro name hname
  obtain rfl := List.mem_singleton.1 hname
  exact ⟨by decide, by decide⟩

end App
end Waymark
