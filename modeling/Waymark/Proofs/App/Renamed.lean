import Waymark.App.Events
import Waymark.Proofs.App.Routed
import Waymark.Proofs.Route.Scanned
/-!
# Files that get other names

When a file gets another name the app is told that two files were modified, the one with
the old name and the one with the new.  It is not told that a file has come or gone, and so
the route table is not found anew: after a renaming, and after any number of them, the app
has the table that it had.

That table is right only if the renamed files make no difference to it.  One that is listed
under its old name, or would have to be under its new one, is missed until the app is told
of something else.  The configuration file is left out here: whatever it is told to be, it is
loaded again.

## Main results

* `handle_modified_keeps` — a modified file changes the graph at most.
* `renameAll_keeps` — what is left of an app after files got other names.
* `isFresh_renameAll_iff` — when its table is the one that is found.
* `isFresh_rename_iff` — the same for a single file.
-/

namespace Waymark

namespace App

/-! ## Modified files -/

section
variable {app : App} {names target : List String}

/-- A file that was modified, if it is not the configuration, changes the graph at most. -/
theorem handle_modified_keeps {path : String} (hpath : ¬app.IsConfigPath path) :
    ∃ graph?, (app.handle .modified path).1 = { app with graph? } := by
  unfold handle
  cases hs : app.specifierFor path with
  | none => exact ⟨app.graph?, rfl⟩
  | some s =>
    have hmodule : s ≠ "./" ++ AppConfig.fileName := by
      rintro rfl
      exact hpath (specifierFor_config_iff.1 hs).1
    dsimp only
    rw [if_neg hmodule, handleModule, if_neg (not_not_intro rfl)]
    dsimp only
    cases app.ensureGraph.graph.get? s with
    | none => exact ⟨app.ensureGraph.graph?, rfl⟩
    | some record => exact ⟨_, rfl⟩

/-- Any number of files that were modified change the graph at most. -/
theorem handleAll_modified_keeps {changes : List (ChangeKind × String)}
    (h : ∀ change ∈ changes, change.1 = .modified ∧ ¬app.IsConfigPath change.2) :
    ∃ graph?, (app.handleAll changes).1 = { app with graph? } := by
  induction changes generalizing app with
  | nil => exact ⟨app.graph?, rfl⟩
  | cons change changes ih =>
    obtain ⟨kind, path⟩ := change
    obtain ⟨⟨rfl, hpath⟩, hrest⟩ := List.forall_mem_cons.1 h
    obtain ⟨graph?, hfirst⟩ := handle_modified_keeps hpath
    rw [handleAll]
    dsimp only
    rw [hfirst]
    -- which path is that of the configuration does not depend on the graph
    exact @ih { app with graph? } hrest

/-- The path of the configuration file. -/
theorem isConfigPath_pathIn_iff (hnames : ∀ name ∈ names, Disk.IsPlain name) :
    app.IsConfigPath (FileEdit.pathIn app.disk names) ↔ names = [AppConfig.fileName] := by
  have hisName : ∀ name ∈ names, Disk.IsName name := fun name hname => (hnames name hname).toIsName
  have hkept : names.filter (· ≠ ".") = names :=
    List.filter_eq_self.2 fun name hname => decide_eq_true (hnames name hname).ne_dot
  have hup : ".." ∉ names := fun hmem => (hnames _ hmem).ne_dots rfl
  unfold IsConfigPath watchedNames? FileEdit.pathIn
  rw [Disk.namesBelow_pathOf (Disk.isPrefixOf_keyOf hisName), Disk.namesOf_keyOf hisName]
  dsimp only
  rw [hkept, if_neg hup, Option.some.injEq]

/-! ## Renamings -/

/-- The old names and the new ones of a file, neither of them those of the configuration. -/
structure IsRenaming (old new : List String) : Prop where
  old_plain : ∀ name ∈ old, Disk.IsPlain name
  new_plain : ∀ name ∈ new, Disk.IsPlain name
  old_ne : old ≠ [AppConfig.fileName]
  new_ne : new ≠ [AppConfig.fileName]

theorem IsRenaming.isName_old {old new : List String} (h : IsRenaming old new) :
    ∀ name ∈ old, Disk.IsName name := fun name hname => (h.old_plain name hname).toIsName

theorem IsRenaming.isName_new {old new : List String} (h : IsRenaming old new) :
    ∀ name ∈ new, Disk.IsName name := fun name hname => (h.new_plain name hname).toIsName

theorem root_apply_rename (d : Disk) (names target : List String) :
    ((FileEdit.rename target).apply d names).root = d.root := by
  unfold FileEdit.apply
  dsimp only
  cases hrename : d.renameFile (FileEdit.pathIn d names) (FileEdit.pathIn d target) with
  | error cause => rfl
  | ok d' => exact Disk.root_of_renameFile hrename

theorem isTree_apply_rename {d : Disk} (htree : d.IsTree) (h : IsRenaming names target) :
    ((FileEdit.rename target).apply d names).IsTree := by
  unfold FileEdit.apply
  dsimp only
  cases hrename : d.renameFile (FileEdit.pathIn d names) (FileEdit.pathIn d target) with
  | error cause => exact htree
  | ok d' => exact htree.renameFile h.old_plain h.new_plain hrename

/-- A file that gets another name changes the disk, and nothing else but the graph. -/
theorem edit_rename_keeps (app : App) (h : IsRenaming names target) :
    ∃ graph?, (app.edit names (.rename target)).1 =
      { app with disk := (FileEdit.rename target).apply app.disk names, graph? } := by
  have hroot := root_apply_rename app.disk names target
  unfold edit
  generalize (FileEdit.rename target).apply app.disk names = disk at hroot ⊢
  have hpath (other : List String) :
      FileEdit.pathIn app.disk other = FileEdit.pathIn { app with disk }.disk other := by
    rw [FileEdit.pathIn, FileEdit.pathIn, Disk.pathOf, Disk.pathOf, hroot]
  refine handleAll_modified_keeps fun change hchange => ?_
  obtain ⟨hkind, hpaths⟩ := FileEdit.eq_modified_of_rename hchange
  refine ⟨hkind, ?_⟩
  rcases hpaths with hold | hnew
  · rw [hold, hpath, isConfigPath_pathIn_iff h.old_plain]
    exact h.old_ne
  · rw [hnew, hpath, isConfigPath_pathIn_iff h.new_plain]
    exact h.new_ne

end

/-- The app after files got other names, each of them told of before the next. -/
def renameAll (app : App) (moves : List (List String × List String)) : App :=
  moves.foldl (fun app move => (app.edit move.1 (.rename move.2)).1) app

theorem renameAll_cons (app : App) (move : List String × List String)
    (moves : List (List String × List String)) :
    app.renameAll (move :: moves) = (app.edit move.1 (.rename move.2)).1.renameAll moves :=
  List.foldl_cons ..

/-- However many files get other names, the configuration and the routes are what they were. -/
theorem renameAll_keeps (app : App) {moves : List (List String × List String)}
    (h : ∀ move ∈ moves, IsRenaming move.1 move.2) :
    (app.renameAll moves).config = app.config ∧
      (app.renameAll moves).routes = app.routes := by
  induction moves generalizing app with
  | nil => exact ⟨rfl, rfl⟩
  | cons move moves ih =>
    obtain ⟨hfirst, hrest⟩ := List.forall_mem_cons.1 h
    obtain ⟨graph?, hedit⟩ := edit_rename_keeps app hfirst
    obtain ⟨hconfig, hroutes⟩ := @ih (app.edit move.1 (.rename move.2)).1 hrest
    rw [renameAll_cons, hconfig, hroutes, hedit]
    exact ⟨rfl, rfl⟩

/-- A tree stays one when files get other names. -/
theorem isTree_renameAll {app : App} (htree : app.disk.IsTree)
    {moves : List (List String × List String)}
    (h : ∀ move ∈ moves, IsRenaming move.1 move.2) :
    (app.renameAll moves).disk.IsTree := by
  induction moves generalizing app with
  | nil => exact htree
  | cons move moves ih =>
    obtain ⟨hfirst, hrest⟩ := List.forall_mem_cons.1 h
    obtain ⟨graph?, hedit⟩ := edit_rename_keeps app hfirst
    rw [renameAll_cons, hedit]
    refine ih ?_ hrest
    exact isTree_apply_rename htree hfirst

/-! ## Tables after moves -/

/-- Tables that are found under one configuration are the same if they hold the same files. -/
theorem eq_of_containsFile {config : Option RoutesConfig} {d d' : Disk} (hd : d.IsTree)
    (hd' : d'.IsTree) {table table' : RouteTable} (h : RouteTable.load config d = .ok table)
    (h' : RouteTable.load config d' = .ok table')
    (hsame : ∀ names, (∀ name ∈ names, Disk.IsName name) →
      (table.containsFile (RouteTable.fileSpecifier names) = true ↔
        table'.containsFile (RouteTable.fileSpecifier names) = true)) : table = table' := by
  rcases RouteTable.load_eq_ok_iff.1 h with ⟨rfl, rfl⟩ | ⟨c, files, rfl, hfiles, rfl⟩
  · exact Except.ok.inj h'
  · obtain rfl := Except.ok.inj ((RouteTable.load_of_compile hfiles d').symm.trans h')
    exact (RouteTable.scan_eq_iff (RouteFiles.hasBase_of_compile hfiles) hd hd').2 hsame

/-- After files got other names the table of an app is the one that is found exactly if the same
files are routes as before. -/
theorem isFresh_renameAll_iff {app : App} (htree : app.disk.IsTree) (hfresh : IsFresh app)
    {moves : List (List String × List String)}
    (h : ∀ move ∈ moves, IsRenaming move.1 move.2) :
    ∃ table, RouteTable.load app.config.routes (app.renameAll moves).disk = .ok table ∧
      (IsFresh (app.renameAll moves) ↔ ∀ names, (∀ name ∈ names, Disk.IsName name) →
        (app.routes.containsFile (RouteTable.fileSpecifier names) = true ↔
          table.containsFile (RouteTable.fileSpecifier names) = true)) := by
  obtain ⟨hconfig, hroutes⟩ := renameAll_keeps app h
  obtain ⟨table, htable⟩ := RouteTable.exists_load_of_load hfresh (app.renameAll moves).disk
  refine ⟨table, htable, ?_⟩
  unfold IsFresh
  rw [hconfig, hroutes, htable]
  constructor
  · intro heq
    obtain rfl := Except.ok.inj heq
    exact fun _ _ => Iff.rfl
  · intro hsame
    rw [eq_of_containsFile htree (isTree_renameAll htree h) hfresh htable hsame]

section
variable {app : App} {old new : List String} {disk : Disk} {table : RouteTable}

/-- What the table holds that is found after a file got another name. -/
theorem containsFile_rename_iff (htree : app.disk.IsTree) (hfresh : IsFresh app)
    (h : IsRenaming old new)
    (hrename : app.disk.renameFile (FileEdit.pathIn app.disk old) (FileEdit.pathIn app.disk new) =
      .ok disk)
    (htable : RouteTable.load app.config.routes disk = .ok table) {names : List String}
    (hnames : ∀ name ∈ names, Disk.IsName name) :
    table.containsFile (RouteTable.fileSpecifier names) = true ↔
      app.routes.containsFile (RouteTable.fileSpecifier names) = true ∧ names ≠ old ∨
        names = new ∧ table.containsFile (RouteTable.fileSpecifier new) = true := by
  have hdisk : disk.IsTree := htree.renameFile h.old_plain h.new_plain hrename
  rcases RouteTable.load_eq_ok_iff.1 htable with ⟨hconfig, rfl⟩ | ⟨c, files, hconfig, hfiles, rfl⟩
  · have hroutes : app.routes = RouteTable.empty := by
      rw [IsFresh, hconfig] at hfresh
      exact (Except.ok.inj hfresh).symm
    rw [hroutes]
    simp [RouteTable.containsFile, RouteTable.empty]
  · have hroutes : app.routes = RouteTable.scan files app.disk := by
      rw [IsFresh, hconfig, RouteTable.load_of_compile hfiles] at hfresh
      exact (Except.ok.inj hfresh).symm
    have hbase := RouteFiles.hasBase_of_compile hfiles
    have hlisted : names ∈ disk.filesBelow files.baseNames ↔
        names ∈ app.disk.filesBelow files.baseNames ∧ names ≠ old ∨
          names = new ∧ Disk.isBelow new files.baseNames = true :=
      Disk.mem_filesBelow_renameFile htree h.old_plain h.new_plain hrename
    rw [hroutes, RouteTable.containsFile_scan_iff hbase hdisk hnames,
      RouteTable.containsFile_scan_iff hbase htree hnames]
    constructor
    · rintro ⟨hmem, hpattern⟩
      rcases hlisted.1 hmem with ⟨hmem', hne⟩ | ⟨rfl, -⟩
      · exact Or.inl ⟨⟨hmem', hpattern⟩, hne⟩
      · exact Or.inr ⟨rfl, (RouteTable.containsFile_scan_iff hbase hdisk hnames).2 ⟨hmem, hpattern⟩⟩
    · rintro (⟨⟨hmem, hpattern⟩, hne⟩ | ⟨rfl, hnew⟩)
      · exact ⟨hlisted.2 (Or.inl ⟨hmem, hne⟩), hpattern⟩
      · exact (RouteTable.containsFile_scan_iff hbase hdisk hnames).1 hnew

/-- After a file got another name the table of an app is the one that is found exactly if the file
was no route, and is none under the new name unless one of that name was. -/
theorem isFresh_rename_iff (htree : app.disk.IsTree) (hfresh : IsFresh app)
    (h : IsRenaming old new) (hne : old ≠ new)
    (hrename : app.disk.renameFile (FileEdit.pathIn app.disk old) (FileEdit.pathIn app.disk new) =
      .ok disk) :
    ∃ table, RouteTable.load app.config.routes disk = .ok table ∧
      (IsFresh (app.edit old (.rename new)).1 ↔
        app.routes.containsFile (RouteTable.fileSpecifier old) = false ∧
          (table.containsFile (RouteTable.fileSpecifier new) = true →
            app.routes.containsFile (RouteTable.fileSpecifier new) = true)) := by
  have hmoves : ∀ move ∈ [(old, new)], IsRenaming move.1 move.2 := List.forall_mem_singleton.2 h
  obtain ⟨table, htable, hiff⟩ := isFresh_renameAll_iff htree hfresh hmoves
  obtain ⟨graph?, hedit⟩ := edit_rename_keeps app h
  have hdisk : (app.edit old (.rename new)).1.disk = disk := by
    rw [hedit]
    show (FileEdit.rename new).apply app.disk old = disk
    rw [FileEdit.apply, hrename]
    rfl
  rw [renameAll_cons, show (app.edit old (.rename new)).1.renameAll [] =
    (app.edit old (.rename new)).1 from rfl] at htable hiff
  rw [hdisk] at htable
  refine ⟨table, htable, hiff.trans ?_⟩
  have hholds {names : List String} (hnames : ∀ name ∈ names, Disk.IsName name) :=
    containsFile_rename_iff htree hfresh h hrename htable hnames
  constructor
  · intro hsame
    refine ⟨Bool.eq_false_iff.2 fun hold => ?_, (hsame new h.isName_new).2⟩
    rcases (hholds h.isName_old).1 ((hsame old h.isName_old).1 hold) with hno | hno
    · exact hno.2 rfl
    · exact hne hno.1
  · rintro ⟨hold, hnew⟩ names hnames
    rw [hholds hnames]
    constructor
    · refine fun hroute => Or.inl ⟨hroute, ?_⟩
      rintro rfl
      exact Bool.false_ne_true (hold.symm.trans hroute)
    · rintro (⟨hroute, -⟩ | ⟨rfl, hfound⟩)
      · exact hroute
      · exact hnew hfound

/-- A route that got another name: the table still holds the old one. -/
example : ((RouteTable.routesApp "./routes/*.tsx").refreshRoutes.toOption.map fun app =>
    let routes := (app.edit ["routes", "ab.tsx"] (.rename ["routes", "c.tsx"])).1.routes
    (routes.containsFile "./routes/ab.tsx", routes.containsFile "./routes/c.tsx")) =
      some (true, false) := by
  decide +kernel

end

end App
end Waymark
