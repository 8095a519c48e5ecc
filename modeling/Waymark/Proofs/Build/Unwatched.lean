import Mathlib.Data.List.Basic
import Waymark.Proofs.App.Watched
import Waymark.Proofs.Build.Emptied
import Waymark.Proofs.Disk.Apart
/-!
# Builds and the files that are watched

What a build writes is no change of a source, so a running app does not watch its output
directory.  The build goes where the configured path leads.  The app compares the path, as
it is written, with the first name below the root.  The two mean one directory only if the
path is a single name; otherwise everything in the output directory is watched that is not
hidden and belongs to no installed package.

## Main results

* `specifierFor_below` — what is watched of a directory below the root.
* `eq_singleton_of_head?` — a path that is the first name of the directory it leads to is its only
  one.
* `output_unwatched_iff` — nothing in the output directory is watched exactly if its path is one
  name or some name of it is ignored.
* `output_watched` — accepted configurations whose output is watched.
-/

namespace Waymark

namespace Disk

/-! ## Names inside of a directory -/

/-- The names a path leads through, with its dots followed as far as its text tells. -/
def resolved (names : List String) : List String :=
  names.foldl (fun kept name =>
    if name = "." then kept else if name = ".." then kept.dropLast else kept ++ [name]) []

/-- A path below the root names something in a directory. -/
def NamesInside (d : Disk) (dir : List String) (path : String) : Prop :=
  ∃ names, d.namesBelow path = some names ∧ isBelow (resolved names) dir = true

/-- Where no path goes up, only single dots lead nowhere. -/
theorem resolved_eq_filter {names : List String} (h : ".." ∉ names) :
    resolved names = names.filter (· ≠ ".") := by
  have hkept (kept : List String) : names.foldl (fun kept name =>
      if name = "." then kept else if name = ".." then kept.dropLast else kept ++ [name]) kept =
        kept ++ names.filter (· ≠ ".") := by
    induction names generalizing kept with
    | nil => simp
    | cons name names ih =>
      simp only [List.mem_cons, not_or] at h
      rw [List.foldl_cons, ih h.2]
      by_cases hdot : name = "."
      · simp [hdot]
      · simp [hdot, Ne.symm h.1]
  exact (hkept []).trans (List.nil_append _)

/-- Plain names behind those of a directory name something in it. -/
theorem namesInside_keyOf {d : Disk} {dir rest : List String} (hrest : rest ≠ [])
    (hnames : ∀ name ∈ dir ++ rest, IsPlain name) :
    d.NamesInside dir (d.pathOf (keyOf (dir ++ rest))) := by
  have hisName : ∀ name ∈ dir ++ rest, IsName name := fun name hname => (hnames name hname).toIsName
  have hkept : (dir ++ rest).filter (· ≠ ".") = dir ++ rest :=
    List.filter_eq_self.2 fun name hname => decide_eq_true (hnames name hname).ne_dot
  refine ⟨dir ++ rest, ?_, ?_⟩
  · rw [namesBelow_pathOf (isPrefixOf_keyOf hisName), namesOf_keyOf hisName]
  · rw [resolved_eq_filter fun hup => (hnames _ hup).ne_dots rfl, hkept]
    exact isBelow_iff.2 ⟨by simpa using hrest, List.prefix_append _ _⟩

/-- The walk along a path that leads to a directory. -/
theorem exists_of_directoryAt? {d : Disk} {path : String} {dir : List String}
    (h : d.directoryAt? path = some (some dir)) :
    ∃ start steps, d.entrance? path = some (start, steps) ∧
      d.walk start steps = .ok (.below dir) := by
  unfold directoryAt? at h
  split at h
  · rename_i place hlookup
    obtain rfl := Option.some.inj h
    unfold lookup at hlookup
    split at hlookup
    · nomatch hlookup
    · nomatch hlookup
    · rename_i start steps _ hentrance
      obtain ⟨spot, hwalk, hfound⟩ := exists_of_bind_eq_ok hlookup
      refine ⟨start, steps, hentrance, ?_⟩
      rw [hwalk]
      cases spot with
      | above n => nomatch hfound
      | below names =>
        dsimp only at hfound
        split at hfound
        · split at hfound
          · nomatch hfound
          · nomatch hfound
        · rw [Option.some.inj (Prod.mk.inj (Except.ok.inj hfound)).1]
        · nomatch hfound
  · nomatch h

/-- The names of a directory that is found can stand in a key. -/
theorem isName_of_directoryAt? {d : Disk} {path : String} {dir : List String}
    (h : d.directoryAt? path = some (some dir)) : ∀ name ∈ dir, IsName name := by
  obtain ⟨start, steps, hentrance, hwalk⟩ := exists_of_directoryAt? h
  obtain ⟨hstart, hsteps⟩ := isName_of_entrance hentrance
  exact isName_of_walk hsteps hstart hwalk

/-- A path that is the first name of the directory it leads to is the only one. -/
theorem eq_singleton_of_head? {d : Disk} {path : String} {dir : List String}
    (h : d.directoryAt? (d.pathOf path) = some (some dir)) (hhead : dir.head? = some path) :
    dir = [path] := by
  have hname : ∀ name ∈ [path], IsName name := by
    intro name hmem
    obtain rfl := List.mem_singleton.1 hmem
    exact isName_of_directoryAt? h _ (List.mem_of_head? hhead)
  have hkey : keyOf [path] = path := by simp [keyOf]
  obtain ⟨start, steps, hentrance, hwalk⟩ := exists_of_directoryAt? h
  rw [← hkey, entrance?_pathOf d hname] at hentrance
  obtain ⟨rfl, rfl⟩ := Prod.mk.inj (Option.some.inj hentrance)
  -- a single step from the root stays there, goes up, or leads to the name
  have hstep : d.step (.below []) path = .ok (.below dir) := by
    unfold walk at hwalk
    rw [List.foldlM_cons] at hwalk
    obtain ⟨next, hnext, hrest⟩ := exists_of_bind_eq_ok hwalk
    rw [hnext, Except.ok.inj hrest]
  have hne : dir ≠ [] := by
    rintro rfl
    cases hhead
  rcases (exists_of_step_below hstep).2 with hsame | hup | ⟨hdown, -⟩
  · exact absurd (Spot.below.inj hsame) hne
  · unfold up at hup
    split at hup
    · split at hup
      · exact absurd (Spot.below.inj hup) hne
      · cases hup
    · rename_i heq hroot
      exact absurd (Spot.below.inj hroot).symm heq
    · rename_i hroot
      cases hroot
  · exact Spot.below.inj hdown

end Disk

namespace App

variable {app : App} {dir : List String}

/-! ## What is watched of a directory -/

/-- A name that is not ignored leads down. -/
theorem isPlain_of_heeded {name : String} (hname : Disk.IsName name)
    (hheeded : isIgnored name = false) : Disk.IsPlain name := by
  refine ⟨hname, ?_, ?_⟩
  · rintro rfl
    exact absurd hheeded (by decide)
  · rintro rfl
    exact absurd hheeded (by decide)

/-- Nothing is watched that lies in a directory with an ignored name, or in the one that is named
like the configured path. -/
theorem specifierFor_inside {path : String} (hdir : dir ≠ [])
    (hinside : app.disk.NamesInside dir path)
    (h : dir.head? = some app.config.outputPath ∨ ∃ name ∈ dir, isIgnored name = true) :
    app.specifierFor path = none := by
  obtain ⟨names, hnames, hbelow⟩ := hinside
  unfold specifierFor watchedNames?
  rw [hnames]
  dsimp only
  by_cases hup : ".." ∈ names.filter (· ≠ ".")
  · rw [if_pos hup]
  · have hnone : ".." ∉ names := fun hmem => hup (List.mem_filter.2 ⟨hmem, by decide⟩)
    rw [Disk.resolved_eq_filter hnone] at hbelow
    obtain ⟨rest, hrest⟩ := (Disk.isBelow_iff.1 hbelow).2
    rw [if_neg hup]
    dsimp only
    rw [← hrest]
    refine if_pos ?_
    simp only [Bool.or_eq_true, decide_eq_true_eq]
    rcases h with hhead | ⟨name, hname, hignored⟩
    · exact Or.inl (Or.inr (by rw [List.head?_append_of_ne_nil _ hdir, hhead]))
    · exact Or.inl (Or.inl (List.any_eq_true.2 ⟨name, List.mem_append_left _ hname, hignored⟩))

/-- Everything else in a directory is watched, as long as its own names are not ignored. -/
theorem specifierFor_below {rest : List String} (hdir : dir ≠ [])
    (hnames : ∀ name ∈ dir ++ rest, Disk.IsName name ∧ isIgnored name = false)
    (hhead : dir.head? ≠ some app.config.outputPath) :
    app.specifierFor (app.disk.pathOf (Disk.keyOf (dir ++ rest))) =
      some (RouteTable.fileSpecifier (dir ++ rest)) := by
  have hignored : (dir ++ rest).any isIgnored = false :=
    List.any_eq_false.2 fun name hname => by simp [(hnames name hname).2]
  have hempty : (dir ++ rest).isEmpty = false := by simp [hdir]
  unfold specifierFor
  rw [watchedNames?_keyOf (fun name hname => (hnames name hname).1)
    fun name hname => (hnames name hname).2]
  dsimp only
  rw [List.head?_append_of_ne_nil _ hdir, hignored, hempty, decide_eq_false hhead]
  rfl

end App

namespace Build

open App

/-! ## The output directory -/

/-- An app watches nothing in a directory: it has one name, which is the configured path, or it is
hidden or installed. -/
def LeavesOut (app : App) (dir : List String) : Prop :=
  dir = [app.config.outputPath] ∨ ∃ name ∈ dir, isIgnored name = true

/-- Nothing in the directory that a build writes to is watched exactly if the configured path is
the one name of this directory or some name of it is ignored.  Otherwise everything in it is
watched that is not hidden or installed. -/
theorem output_unwatched_iff {app : App} {disk : Disk} (hroot : disk.root = app.disk.root)
    {dir : List String} (hdir : dir ≠ [])
    (hout : disk.directoryAt? (outDirOf app) = some (some dir)) :
    ((∀ path, app.disk.NamesInside dir path → app.specifierFor path = none) ↔ LeavesOut app dir) ∧
    (¬LeavesOut app dir →
      ∀ rest, (∀ name ∈ rest, Disk.IsName name ∧ isIgnored name = false) →
        app.specifierFor (app.disk.pathOf (Disk.keyOf (dir ++ rest))) =
          some (RouteTable.fileSpecifier (dir ++ rest))) := by
  have hpath : outDirOf app = disk.pathOf app.config.outputPath := by
    rw [outDirOf, Disk.pathOf, Disk.pathOf, hroot]
  rw [hpath] at hout
  have hisName := Disk.isName_of_directoryAt? hout
  have hwatched : ¬LeavesOut app dir →
      ∀ rest, (∀ name ∈ rest, Disk.IsName name ∧ isIgnored name = false) →
        app.specifierFor (app.disk.pathOf (Disk.keyOf (dir ++ rest))) =
          some (RouteTable.fileSpecifier (dir ++ rest)) := by
    intro h rest hrest
    obtain ⟨hne, hheeded⟩ := not_or.1 h
    apply specifierFor_below hdir
    · intro name hname
      rcases List.mem_append.1 hname with hname | hname
      · exact ⟨hisName name hname,
          Bool.eq_false_iff.2 fun hignored => hheeded ⟨name, hname, hignored⟩⟩
      · exact hrest name hname
    · exact fun hhead => hne (Disk.eq_singleton_of_head? hout hhead)
  refine ⟨⟨?_, ?_⟩, hwatched⟩
  · intro hnone
    by_contra h
    have hfile : ∀ name ∈ ["server.js"], Disk.IsName name ∧ isIgnored name = false := by decide
    have hinside : app.disk.NamesInside dir
        (app.disk.pathOf (Disk.keyOf (dir ++ ["server.js"]))) := by
      refine Disk.namesInside_keyOf (by decide) fun name hname => ?_
      rcases List.mem_append.1 hname with hname | hname
      · exact isPlain_of_heeded (hisName name hname)
          (Bool.eq_false_iff.2 fun hignored => h (Or.inr ⟨name, hname, hignored⟩))
      · exact isPlain_of_heeded (hfile name hname).1 (hfile name hname).2
    have hsome := hwatched h ["server.js"] hfile
    rw [hnone _ hinside] at hsome
    cases hsome
  · rintro h path hinside
    refine specifierFor_inside hdir hinside (h.imp_left ?_)
    rintro rfl
    rfl

/-- A disk with an earlier build in a directory and in one below it, and a configured output
directory. -/
def builtDisk (output : String) : Disk :=
  ⟨"/app", Dict.ofList
    [("routekit.toml", .file ("[build]\noutput_dir = \"" ++ output ++ "\"\n").toUTF8),
      ("build", .directory), ("build/server", .directory),
      ("build/server/a.js", .file ByteArray.empty)]⟩

/-- An accepted configuration of it, and what is watched under it. -/
theorem exists_load_builtDisk (output : String)
    (h : (AppConfig.load (builtDisk output)).toOption.map (·.outputPath) = some output) :
    ∃ config, AppConfig.load (builtDisk output) = .ok config ∧ config.outputPath = output ∧
      outDirOf (aloneOn (builtDisk output) config) = (builtDisk output).pathOf output := by
  obtain ⟨config, hconfig, hpath⟩ := Option.map_eq_some_iff.1 h
  refine ⟨config, eq_ok_of_toOption hconfig, hpath, ?_⟩
  show (builtDisk output).pathOf config.outputPath = _
  rw [hpath]

/-- What an earlier build has left in a directory of one name is not watched. -/
theorem output_unwatched_iff_named :
    ∃ config, AppConfig.load (builtDisk "build") = .ok config ∧
      (aloneOn (builtDisk "build") config).specifierFor "/app/build/server/a.js" = none := by
  obtain ⟨config, hconfig, hpath, hout⟩ := exists_load_builtDisk "build" (by decide +kernel)
  refine ⟨config, hconfig, ?_⟩
  have hplace : (builtDisk "build").directoryAt?
      (outDirOf (aloneOn (builtDisk "build") config)) = some (some ["build"]) := by
    rw [hout]
    decide +kernel
  have hinside : (aloneOn (builtDisk "build") config).disk.NamesInside ["build"]
      "/app/build/server/a.js" := by
    refine ⟨["build", "server", "a.js"], ?_, by decide⟩
    show (builtDisk "build").namesBelow "/app/build/server/a.js" = _
    decide +kernel
  have hname : ["build"] = [(aloneOn (builtDisk "build") config).config.outputPath] := by
    rw [← hpath]
    rfl
  exact (output_unwatched_iff rfl (by decide) hplace).1.2 (Or.inl hname) _ hinside

/-- Both configurations are accepted, and both lead to a directory below the app root whose files
are watched: one path ends in a slash, the other has two names. -/
theorem output_watched :
    (∃ config, AppConfig.load (builtDisk "build/") = .ok config ∧
      let app := aloneOn (builtDisk "build/") config
      app.disk.directoryAt? (outDirOf app) = some (some ["build"]) ∧
      app.specifierFor "/app/build/server/a.js" = some "./build/server/a.js") ∧
    ∃ config, AppConfig.load (builtDisk "build/server") = .ok config ∧
      let app := aloneOn (builtDisk "build/server") config
      app.disk.directoryAt? (outDirOf app) = some (some ["build", "server"]) ∧
      app.specifierFor "/app/build/server/a.js" = some "./build/server/a.js" := by
  have hwatched (output : String) (config : AppConfig) (hpath : config.outputPath = output)
      (hne : output ≠ "build") :
      (aloneOn (builtDisk output) config).specifierFor "/app/build/server/a.js" =
        some "./build/server/a.js" := by
    have hhead : ["build"].head? ≠
        some (aloneOn (builtDisk output) config).config.outputPath := by
      show some "build" ≠ some config.outputPath
      rw [hpath]
      exact fun heq => hne (Option.some.inj heq).symm
    have hfile : (aloneOn (builtDisk output) config).disk.pathOf
        (Disk.keyOf (["build"] ++ ["server", "a.js"])) = "/app/build/server/a.js" := by
      show Disk.join "/app" _ = _
      decide
    rw [← hfile]
    exact specifierFor_below (by decide) (by decide) hhead
  constructor
  · obtain ⟨config, hconfig, hpath, hout⟩ := exists_load_builtDisk "build/" (by decide +kernel)
    refine ⟨config, hconfig, ?_, hwatched "build/" config hpath (by decide)⟩
    rw [hout]
    show (builtDisk "build/").directoryAt? _ = _
    decide +kernel
  · obtain ⟨config, hconfig, hpath, hout⟩ :=
      exists_load_builtDisk "build/server" (by decide +kernel)
    refine ⟨config, hconfig, ?_, hwatched "build/server" config hpath (by decide)⟩
    rw [hout]
    show (builtDisk "build/server").directoryAt? _ = _
    decide +kernel

end Build
end Waymark
