import Mathlib.Logic.Relation
import Waymark.Proofs.App.Reloaded
import Waymark.Proofs.Disk.Listing
import Waymark.Proofs.Route.Base
/-!
# Route tables that follow their files

The route table is found again when the app is told of a route file that was made or taken
away.  It may be told late: files come and go while earlier changes wait, so a refresh may
already see what a later change is about, and no longer see what an earlier one was about.

Still the table is right in the end.  As long as it is not what would be found, there is a
change of a file that the configuration accepts among those the app has not been told of,
and when it is told of that, it finds the table anew.  What would be found depends on no
other files, nor on the order they were made in.

This needs that the app heeds all route files.  Those with hidden names and those in the
output directory or in installed packages are found by a scan but are not watched, and a
change of the configuration file loads that file and does nothing else.

## Main results

* `RouteTable.load_congr` — a table depends on the files only that are accepted.
* `Scene.Settled.step` — the table is right, or there is a change to come of which it is set right.
* `load_of_steps` — once the app was told of all changes its table is the one that is found.
-/

namespace Waymark

namespace RouteTable

/-! ## The files a table depends on -/

/-- Whether a configuration accepts the file with these names. -/
def Accepts (config : Option RoutesConfig) (names : List String) : Prop :=
  ∃ c files, config = some c ∧ RouteFiles.compile c = .ok files ∧
    files.accepts (fileSpecifier names) = true

/-- The table that is loaded depends on those files only that the configuration accepts. -/
theorem load_congr {config : Option RoutesConfig} {d d' : Disk} (hd : d.IsTree) (hd' : d'.IsTree)
    (h : ∀ dir names, Accepts config names → (names ∈ d.filesBelow dir ↔ names ∈ d'.filesBelow dir)) :
    load config d = load config d' := by
  cases config with
  | none => rfl
  | some c =>
    unfold load
    dsimp only
    cases hfiles : RouteFiles.compile c with
    | error e => dsimp only [Except.map]
    | ok files =>
      have hbase := RouteFiles.hasBase_of_compile hfiles
      have hlisted : (d.filesBelow files.baseNames).filter (files.accepts ∘ fileSpecifier) =
          (d'.filesBelow files.baseNames).filter (files.accepts ∘ fileSpecifier) :=
        Disk.filter_filesBelow_congr hd hd' fun names haccepts =>
          h files.baseNames names ⟨c, files, rfl, hfiles, haccepts⟩
      have hscan : scan files d = scan files d' := by
        rw [scan_eq_ofFiles hbase hd, scan_eq_ofFiles hbase hd', ← ofFiles_filter_accepts,
          ← ofFiles_filter_accepts files ((d'.filesBelow files.baseNames).map fileSpecifier),
          List.filter_map, List.filter_map, hlisted]
      exact congrArg Except.ok hscan

/-- What is loaded from one disk can be loaded from any. -/
theorem exists_load_of_load {config : Option RoutesConfig} {d : Disk} {routes : RouteTable}
    (h : load config d = .ok routes) (d' : Disk) : ∃ routes', load config d' = .ok routes' := by
  rcases load_eq_ok_iff.1 h with ⟨rfl, -⟩ | ⟨c, files, rfl, hfiles, -⟩
  · exact ⟨empty, rfl⟩
  · exact ⟨_, load_of_compile hfiles d'⟩

end RouteTable

namespace App

/-! ## Route files -/

section
variable {app : App} {names : List String}

theorem isRouteFile_of_accepts (h : RouteTable.Accepts app.config.routes names) :
    app.isRouteFile (RouteTable.fileSpecifier names) = true := by
  obtain ⟨c, files, hconfig, hfiles, haccepts⟩ := h
  unfold isRouteFile
  rw [hconfig, Option.map_some, hfiles]
  exact Bool.or_eq_true_iff.2 (Or.inr haccepts)

/-- When a watched route file comes or goes the table is found anew. -/
theorem handle_routeFile (hwatched : IsWatched app names)
    (hroute : app.isRouteFile (RouteTable.fileSpecifier names) = true) {kind : ChangeKind}
    (hkind : kind ≠ .modified) {routes : RouteTable}
    (hload : RouteTable.load app.config.routes app.disk = .ok routes) :
    app.handle kind (app.disk.pathOf (Disk.keyOf names)) =
      ({ app with routes }, some (.routes routes.size)) := by
  unfold handle
  rw [specifierFor_keyOf hwatched]
  dsimp only
  rw [if_neg hwatched.module, handleModule, if_pos hkind, if_pos hroute, refreshRoutes, hload]
  rfl

/-- A route file is watched. -/
def Heeds (app : App) (names : List String) : Prop :=
  app.isRouteFile (RouteTable.fileSpecifier names) = true → IsWatched app names

end

/-! ## Files that come and go -/

/-- An app, and the changes of files that it has not been told of, the first one first. -/
structure Scene where
  app : App
  untold : List (ChangeKind × List String)

/-- A file is made, changed or taken away, or the app is told of the first of these changes or
asked for something. -/
inductive Scene.Step : Scene → Scene → Prop where
  | create {app : App} {untold : List (ChangeKind × List String)} {names : List String}
      {content : ByteArray} {disk : Disk} (hnames : ∀ name ∈ names, Disk.IsPlain name)
      (hnew : app.disk.find? names = none)
      (hwrite : app.disk.write (app.disk.pathOf (Disk.keyOf names)) content = .ok disk) :
      Step ⟨app, untold⟩ ⟨{ app with disk }, untold ++ [(.created, names)]⟩
  | rewrite {app : App} {untold : List (ChangeKind × List String)} {names : List String}
      {old content : ByteArray} {disk : Disk} (hnames : ∀ name ∈ names, Disk.IsPlain name)
      (hold : app.disk.find? names = some (.file old))
      (hwrite : app.disk.write (app.disk.pathOf (Disk.keyOf names)) content = .ok disk) :
      Step ⟨app, untold⟩ ⟨{ app with disk }, untold ++ [(.modified, names)]⟩
  | remove {app : App} {untold : List (ChangeKind × List String)} {names : List String}
      {disk : Disk} (hnames : ∀ name ∈ names, Disk.IsPlain name)
      (hremove : app.disk.removeFile (app.disk.pathOf (Disk.keyOf names)) = .ok disk) :
      Step ⟨app, untold⟩ ⟨{ app with disk }, untold ++ [(.removed, names)]⟩
  | tell {app : App} {untold : List (ChangeKind × List String)} {kind : ChangeKind}
      {names : List String} (hheeds : kind ≠ .modified → app.Heeds names) :
      Step ⟨app, (kind, names) :: untold⟩
        ⟨(app.handle kind (app.disk.pathOf (Disk.keyOf names))).1, untold⟩
  | request {app : App} {untold : List (ChangeKind × List String)} (uri : Uri) :
      Step ⟨app, untold⟩ ⟨((answer uri).run app).2, untold⟩

/-- The table is the one that is found. -/
def IsFresh (app : App) : Prop := RouteTable.load app.config.routes app.disk = .ok app.routes

/-- A file that the configuration accepts has come or gone, and the app has not been told. -/
def Awaits (scene : Scene) : Prop :=
  ∃ kind names, (kind, names) ∈ scene.untold ∧ kind ≠ .modified ∧
    RouteTable.Accepts scene.app.config.routes names

/-- The table is the one that is found, or will be when the app is told of a change. -/
structure Scene.Settled (scene : Scene) : Prop where
  tree : scene.app.disk.IsTree
  loads : ∀ d, ∃ routes, RouteTable.load scene.app.config.routes d = .ok routes
  fresh : IsFresh scene.app ∨ Awaits scene

section
variable {app : App} {untold : List (ChangeKind × List String)}

/-- Changes of files come before the app is told of them. -/
theorem Scene.Settled.edit (h : Scene.Settled ⟨app, untold⟩) {disk : Disk} (htree : disk.IsTree)
    {kind : ChangeKind} {names : List String}
    (hfiles : ∀ dir other, kind ≠ .modified ∧ other = names ∨
      (other ∈ app.disk.filesBelow dir ↔ other ∈ disk.filesBelow dir)) :
    Scene.Settled ⟨{ app with disk }, untold ++ [(kind, names)]⟩ := by
  refine ⟨htree, h.loads, ?_⟩
  by_cases hnews : kind ≠ .modified ∧ RouteTable.Accepts app.config.routes names
  · have hmem : (kind, names) ∈ untold ++ [(kind, names)] :=
      List.mem_append_right _ (List.mem_singleton_self _)
    exact Or.inr ⟨kind, names, hmem, hnews⟩
  · have hsame : RouteTable.load app.config.routes app.disk =
        RouteTable.load app.config.routes disk := by
      apply RouteTable.load_congr h.tree htree
      intro dir other haccepts
      rcases hfiles dir other with ⟨hkind, rfl⟩ | hlisted
      · exact absurd ⟨hkind, haccepts⟩ hnews
      · exact hlisted
    rcases h.fresh with hfresh | ⟨kind', names', hmem, hkind, haccepts⟩
    · exact Or.inl (hsame.symm.trans hfresh)
    · exact Or.inr ⟨kind', names', List.mem_append_left _ hmem, hkind, haccepts⟩

/-- What was awaited is told, or is awaited still. -/
theorem Scene.Settled.tell {kind : ChangeKind} {names : List String}
    (h : Scene.Settled ⟨app, (kind, names) :: untold⟩)
    (hheeds : kind ≠ .modified → app.Heeds names) :
    Scene.Settled ⟨(app.handle kind (app.disk.pathOf (Disk.keyOf names))).1, untold⟩ := by
  obtain ⟨routes, hroutes⟩ := h.loads app.disk
  by_cases hnews : kind ≠ .modified ∧ RouteTable.Accepts app.config.routes names
  · obtain ⟨hkind, haccepts⟩ := hnews
    have hroute := isRouteFile_of_accepts haccepts
    rw [handle_routeFile (hheeds hkind hroute) hroute hkind hroutes]
    exact ⟨h.tree, h.loads, Or.inl hroutes⟩
  · have htold := told_handle app kind (app.disk.pathOf (Disk.keyOf names))
    generalize (app.handle kind (app.disk.pathOf (Disk.keyOf names))).1 = next at htold
    cases htold with
    | graph graph? =>
      refine ⟨h.tree, h.loads, ?_⟩
      rcases h.fresh with hfresh | ⟨kind', names', hmem, hkind, haccepts⟩
      · exact Or.inl hfresh
      · rcases List.mem_cons.1 hmem with heq | hlater
        · obtain ⟨rfl, rfl⟩ := Prod.mk.inj heq
          exact absurd ⟨hkind, haccepts⟩ hnews
        · exact Or.inr ⟨kind', names', hlater, hkind, haccepts⟩
    | refreshed hrefreshed => exact ⟨h.tree, h.loads, Or.inl hrefreshed⟩
    | reloaded hconfig hreloaded =>
      exact ⟨h.tree, AppConfig.exists_table_of_load hconfig, Or.inl hreloaded⟩

end

/-- Whatever happens, the table is the one that is found, or will be. -/
theorem Scene.Settled.step {scene next : Scene} (h : scene.Settled) (hstep : Scene.Step scene next) :
    next.Settled := by
  cases hstep with
  | @create app untold names content disk hnames hnew hwrite =>
    apply h.edit (h.tree.write hnames hwrite)
    intro dir other
    by_cases heq : other = names
    · exact Or.inl ⟨nofun, heq⟩
    · rw [Disk.mem_filesBelow_write h.tree hnames hwrite]
      exact Or.inr ⟨Or.inl, fun hmem => hmem.resolve_right fun hnew => heq hnew.1⟩
  | @rewrite app untold names old content disk hnames hold hwrite =>
    apply h.edit (h.tree.write hnames hwrite)
    intro dir other
    right
    rw [Disk.mem_filesBelow_write h.tree hnames hwrite]
    refine ⟨Or.inl, ?_⟩
    rintro (hmem | ⟨rfl, hbelow⟩)
    · exact hmem
    · exact Disk.mem_filesBelow_of_find? (fun name hname => (hnames name hname).toIsName) hold hbelow
  | @remove app untold names disk hnames hremove =>
    apply h.edit (h.tree.removeFile hnames hremove)
    intro dir other
    by_cases heq : other = names
    · exact Or.inl ⟨nofun, heq⟩
    · rw [Disk.mem_filesBelow_removeFile h.tree hnames hremove]
      exact Or.inr ⟨fun hmem => ⟨hmem, heq⟩, And.left⟩
  | tell hheeds => exact h.tell hheeds
  | @request app untold uri =>
    obtain ⟨hconfig, hroutes, hdisk⟩ :=
      keeps_answerWithin (keptByAnswers_settings app) _ uri app ⟨rfl, rfl, rfl⟩
    show Scene.Settled ⟨((answerWithin _ uri).run app).2, untold⟩
    generalize ((answerWithin _ uri).run app).2 = answered at hconfig hroutes hdisk ⊢
    refine ⟨hdisk ▸ h.tree, hconfig ▸ h.loads, ?_⟩
    rcases h.fresh with hfresh | ⟨kind, names, hmem, hkind, haccepts⟩
    · left
      unfold IsFresh
      rw [hconfig, hroutes, hdisk]
      exact hfresh
    · exact Or.inr ⟨kind, names, hmem, hkind, hconfig ▸ haccepts⟩

/-- Files come and go, and are changed, while the app is told of earlier changes and answers
requests.  If its table was the one that is found, and if it heeds the route files of whose coming
or going it is told, then once it has been told of every change its table is the one that is found
under the configuration that is in force, among the files that there are. -/
theorem load_of_steps {first last : Scene} (htree : first.app.disk.IsTree)
    (hfresh : IsFresh first.app) (hsteps : Relation.ReflTransGen Scene.Step first last)
    (hdone : last.untold = []) :
    RouteTable.load last.app.config.routes last.app.disk = .ok last.app.routes := by
  have hfirst : first.Settled :=
    ⟨htree, RouteTable.exists_load_of_load hfresh, Or.inl hfresh⟩
  have hlast : last.Settled := by
    clear hdone
    induction hsteps with
    | refl => exact hfirst
    | tail _ hstep ih => exact ih.step hstep
  rcases hlast.fresh with hfresh | ⟨kind, names, hmem, -⟩
  · exact hfresh
  · rw [hdone] at hmem
    exact absurd hmem List.not_mem_nil

/-- A disk with a directory for route files, and none there. -/
def directoryDisk : Disk := ⟨"/app", Dict.ofList [("routes", .directory)]⟩

theorem isTree_directoryDisk : directoryDisk.IsTree := by
  have hkey {key : String} {entry : DiskEntry}
      (h : directoryDisk.entries.get? key = some entry) : key = "routes" :=
    congrArg Prod.fst (List.mem_singleton.1 (Dict.mem_of_get?_ofList h))
  constructor
  · intro key entry h
    obtain rfl := hkey h
    decide +kernel
  · intro key entry h
    obtain rfl := hkey h
    decide +kernel
  · intro key entry h
    obtain rfl := hkey h
    rfl
  · intro key entry h
    obtain rfl := hkey h
    decide +kernel

/-- An app with the route files in that directory. -/
def directoryApp : App :=
  aloneOn directoryDisk { routes := some (.dir "./routes" ["tsx"] false) }

theorem isFresh_directoryApp : IsFresh directoryApp := eq_ok_of_toOption (by decide +kernel)

/-- A file can be made in the directory. -/
theorem write_directoryApp (name : String) (hname : Disk.IsPlain name)
    (hwrite : (directoryApp.disk.write (directoryApp.disk.pathOf (Disk.keyOf ["routes", name]))
      ByteArray.empty).toOption.isSome = true) :
    directoryApp.disk.write (directoryApp.disk.pathOf (Disk.keyOf ["routes", name]))
        ByteArray.empty =
      .ok (directoryApp.disk.put ["routes", name] (.file ByteArray.empty)) := by
  have hnames : ∀ other ∈ ["routes", name], Disk.IsPlain other := by
    intro other hother
    rcases List.mem_cons.1 hother with rfl | hother
    · decide
    · rwa [List.mem_singleton.1 hother]
  obtain ⟨disk, hdisk⟩ := Option.isSome_iff_exists.1 hwrite
  have hok := eq_ok_of_toOption hdisk
  rw [hok, (isTree_directoryDisk.takes_of_write hnames hok).2]
  rfl

/-- A route file is made, and the app is told of it: then it has the route. -/
theorem load_of_steps_made : ∃ last,
    Relation.ReflTransGen Scene.Step ⟨directoryApp, []⟩ last ∧ last.untold = [] ∧
      RouteTable.load last.app.config.routes last.app.disk = .ok last.app.routes ∧
      last.app.routes.containsFile "./routes/b.tsx" = true := by
  have hwrite := write_directoryApp "b.tsx" (by decide) (by decide +kernel)
  have hnames : ∀ name ∈ ["routes", "b.tsx"], Disk.IsPlain name := by decide
  let made : App :=
    { directoryApp with disk := directoryApp.disk.put ["routes", "b.tsx"] (.file ByteArray.empty) }
  have hwatched : IsWatched made ["routes", "b.tsx"] := by
    refine ⟨by decide, fun name hname => (hnames name hname).toIsName, by decide, ?_, by decide⟩
    show some "routes" ≠ some (AppConfig.outputPath {})
    decide +kernel
  have hcreate : Scene.Step ⟨directoryApp, []⟩ ⟨made, [(.created, ["routes", "b.tsx"])]⟩ :=
    .create hnames (by decide +kernel) hwrite
  let told := (made.handle .created (made.disk.pathOf (Disk.keyOf ["routes", "b.tsx"]))).1
  have htell : Scene.Step ⟨made, [(.created, ["routes", "b.tsx"])]⟩ ⟨told, []⟩ :=
    .tell fun _ _ => hwatched
  have hsteps : Relation.ReflTransGen Scene.Step ⟨directoryApp, []⟩ ⟨told, []⟩ :=
    .tail (.single hcreate) htell
  refine ⟨⟨told, []⟩, hsteps, rfl, ?_, by decide +kernel⟩
  exact load_of_steps isTree_directoryDisk isFresh_directoryApp hsteps rfl

/-- A route file with a hidden name is made: the app is told of it and does nothing, although the
table that is found has it. -/
theorem handle_misses_hidden :
    IsFresh directoryApp ∧ ∃ disk,
      directoryApp.disk.write (directoryApp.disk.pathOf (Disk.keyOf ["routes", ".b.tsx"]))
          ByteArray.empty = .ok disk ∧
        let made := { directoryApp with disk }
        (made.handle .created (made.disk.pathOf (Disk.keyOf ["routes", ".b.tsx"]))) = (made, none) ∧
          RouteTable.load made.config.routes made.disk ≠ .ok made.routes := by
  refine ⟨isFresh_directoryApp, _, write_directoryApp ".b.tsx" (by decide) (by decide +kernel), ?_⟩
  intro made
  refine ⟨handle_unwatched _ (by decide +kernel), ?_⟩
  intro hload
  have hfound : (RouteTable.load made.config.routes made.disk).toOption.map
      (·.containsFile "./routes/.b.tsx") = some true := by
    decide +kernel
  have hknown : made.routes.containsFile "./routes/.b.tsx" = false := by decide +kernel
  rw [hload] at hfound
  exact Bool.false_ne_true (hknown.symm.trans (Option.some.inj hfound))

end App
end Waymark
