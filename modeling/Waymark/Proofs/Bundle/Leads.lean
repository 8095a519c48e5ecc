import Waymark.Proofs.Bundle.Names
import Waymark.Proofs.Bundle.Run
/-!
# Imports of a bundle lead to its files

An import that is copied is replaced by a path that goes up from the importing file and
down to the copy.  Read as a URL, seen from any URL that the importing file may have, it
leads to the copy; and when a run has ended, the copy is among the files it wrote, also
where the two modules import one another or the copy is written later.

This needs hosts that are no dots.  The host stands in the names of the copies as it is;
the path counts it as a directory, but in a URL a segment of dots is no directory.

## Main results

* `leadsTo_relativeImport` — from file to file, the path leads where it should.
* `mem_written` — whatever has been asked for is written when a run has ended.
* `bundle_lands` — every import that is copied leads to a written file.
* `bundle_strays` — with a host of dots it leads out of the output directory.
-/

namespace Waymark.Bundle

open Url

variable {ε σ : Type}

/-! ## From file to file -/

/-- Whether a file of an output directory may have the URL, the directory being at `dir`.  How
the file's own name is written does not matter, as long as it is no drive. -/
def IsUrlOf (dir : List (List Char)) (file : String) (u : Url) : Prop :=
  ∃ name, u.path = .rooted (dir ++ (Text.pieces '/' file.toList).dropLast ++ [name]) ∧
    (u.scheme = fileScheme → isDrive name = false ∧ dir.head? ≠ some [])

/-- Whether an import in one output file leads to another one, wherever the output directory is. -/
def LeadsTo (source target goal : String) : Prop :=
  ∀ dir u, IsUrlOf dir source u →
    u.join target = .ok (u.withSuffix (.rooted (dir ++ Text.pieces '/' goal.toList)) none none)

theorem pieces_eq {file : String} {names : List (List Char)}
    (h : file.toList = Text.joinPieces '/' names) (hslash : ∀ s ∈ names, '/' ∉ s)
    (hne : names ≠ []) : Text.pieces '/' file.toList = names := by
  rw [h, Text.pieces_joinPieces hslash hne]

/-- The path of an import between two files leads from the one to the other. -/
theorem leadsTo_relativeImport {source goal : String} {above names : List (List Char)}
    {name : List Char} (hsource : source.toList = Text.joinPieces '/' (above ++ [name]))
    (habove : ∀ s ∈ above, IsName s) (hname : '/' ∉ name)
    (hgoal : goal.toList = Text.joinPieces '/' names) (hnames : ∀ s ∈ names, IsName s)
    (hhead : names.head? = some vendorDirectory.toList) :
    LeadsTo source (relativeImport source goal) goal := by
  have hne : names ≠ [] := by
    rintro rfl
    nomatch hhead
  have haboveSlash : ∀ s ∈ above, '/' ∉ s := fun s hs => (habove s hs).segment.notMem
  have hslash : ∀ s ∈ above ++ [name], '/' ∉ s := by
    intro s hs
    rcases List.mem_append.1 hs with hs | hs
    · exact haboveSlash s hs
    · exact List.mem_singleton.1 hs ▸ hname
  intro dir u hurl
  obtain ⟨own, hpath, hfile⟩ := hurl
  have hpieces : Text.pieces '/' source.toList = above ++ [name] :=
    pieces_eq hsource hslash (by simp)
  have hgoalPieces : Text.pieces '/' goal.toList = names :=
    pieces_eq hgoal (fun s hs => (hnames s hs).segment.notMem) hne
  rw [hpieces, List.dropLast_concat] at hpath
  rw [relativeImport_eq hsource haboveSlash hname hgoal hne, hgoalPieces]
  apply join_upward hpath (fun s hs => (habove s hs).isDriveRoot) hnames hne
  intro hscheme
  obtain ⟨hdrive, hdir⟩ := hfile hscheme
  refine ⟨hdrive, ?_⟩
  cases dir with
  | nil =>
    rw [List.nil_append, hhead]
    decide
  | cons s dir => exact hdir

/-! ## What is copied -/

/-- Whether a module that is to be copied is at a URL of the web with a host that is no dots. -/
def IsPlace (path : String) : Prop :=
  ∃ u, Url.parse path = .ok u ∧ IsWeb u.scheme ∧ u.host ≠ some ['.'] ∧ u.host ≠ some ['.', '.']

theorem IsPlace.exists_names {path : String} (h : IsPlace path) :
    ∃ names, (∀ s ∈ names, IsName s) ∧ names.head? = some vendorDirectory.toList ∧
      (copyOf path).toList = Text.joinPieces '/' names := by
  obtain ⟨u, hparse, hweb, hsingle, hdouble⟩ := h
  exact exists_names_copyOf hparse hweb hsingle hdouble

/-- The directories of a file that a run writes are names. -/
def IsPlain (file : String) : Prop :=
  ∃ above name, file.toList = Text.joinPieces '/' (above ++ [name]) ∧ (∀ s ∈ above, IsName s) ∧
    '/' ∉ name

theorem IsPlace.isPlain_copyOf {path : String} (h : IsPlace path) : IsPlain (copyOf path) := by
  obtain ⟨names, hnames, hhead, hfile⟩ := h.exists_names
  have hne : names ≠ [] := by
    rintro rfl
    nomatch hhead
  refine ⟨names.dropLast, names.getLast hne, ?_, ?_, ?_⟩
  · rw [List.dropLast_concat_getLast, hfile]
  · exact fun s hs => hnames s ((List.dropLast_sublist _).subset hs)
  · exact (hnames _ (List.getLast_mem hne)).segment.notMem

theorem IsPlace.leadsTo {path source : String} (h : IsPlace path) (hsource : IsPlain source) :
    LeadsTo source (relativeImport source (copyOf path)) (copyOf path) := by
  obtain ⟨names, hnames, hhead, hgoal⟩ := h.exists_names
  obtain ⟨above, name, hfile, habove, hname⟩ := hsource
  exact leadsTo_relativeImport hfile habove hname hgoal hnames hhead

/-! ## A run that has ended -/

/-- Where what a specifier is replaced with leads, if it is a copy: to one of the files. -/
def Lands (resolve : Request → Resolution) (files : List String) (module : Pending)
    (specifier target : String) : Prop :=
  ∃ m ∈ Script.mentions module.contents.toList, String.ofList m.specifier = specifier ∧
    match resolve (module.request m) with
    | .external path => target = path
    | .resolved path .file => target = path
    | .resolved path .http =>
      target = relativeImport module.out (copyOf path) ∧ copyOf path ∈ files ∧
        LeadsTo module.out target (copyOf path)

/-- A file as it is written for a module: every import in it is replaced, and those that are
copied lead to files. -/
def Landed (resolve : Request → Resolution) (files : List String) (module : Pending)
    (file : String × String) : Prop :=
  ∃ plan : Plan, file = (module.out, rewriteModule plan module.contents) ∧
    (∀ m ∈ Script.mentions module.contents.toList,
      (plan.replacements.lookup (String.ofList m.specifier)).isSome) ∧
    ∀ specifier target, plan.replacements.lookup specifier = some target →
      Lands resolve files module specifier target

theorem Rewritten.landed {resolve : Request → Resolution} {seen files : List String}
    {module : Pending} {file : String × String} (h : Rewritten resolve seen module file)
    (hplaces : ∀ r path, resolve r = .resolved path .http → IsPlace path)
    (hseen : ∀ path, vendorKey path ∈ seen → copyOf path ∈ files) (hplain : IsPlain module.out) :
    Landed resolve files module file := by
  obtain ⟨plan, hfile, hall, hdecided⟩ := h
  refine ⟨plan, hfile, hall, ?_⟩
  intro specifier target hlookup
  obtain ⟨m, hm, hspecifier, htarget⟩ := hdecided specifier target hlookup
  refine ⟨m, hm, hspecifier, ?_⟩
  cases hresolve : resolve (module.request m) with
  | external path =>
    rw [hresolve] at htarget
    exact htarget
  | resolved path origin =>
    rw [hresolve] at htarget
    cases origin with
    | file => exact htarget
    | http =>
      obtain ⟨rfl, hkey⟩ := htarget
      exact ⟨rfl, hseen path hkey, (hplaces _ path hresolve).leadsTo hplain⟩

/-- The modules of a run are the entry and copies of what was asked for. -/
theorem out_of_mem_modules {entry module : Pending} {t : Trace}
    (hgiven : t.given.map (·.1) = t.loaded) (h : module ∈ t.modules entry) :
    module = entry ∨ ∃ path ∈ t.loaded, module.out = copyOf path := by
  rcases List.mem_cons.1 h with h | h
  · exact Or.inl h
  · right
    obtain ⟨⟨path, loaded⟩, hmem, rfl⟩ := List.mem_map.1 h
    refine ⟨path, ?_, rfl⟩
    rw [← hgiven]
    exact List.mem_map_of_mem hmem

theorem out_of_rewritten {resolve : Request → Resolution} {seen : List String}
    {modules : List Pending} {files : List (String × String)}
    (h : List.Forall₂ (Rewritten resolve seen) modules files) :
    files.map (·.1) = modules.map (·.out) := by
  induction h with
  | nil => rfl
  | cons hfile _ ih =>
    obtain ⟨plan, rfl, -⟩ := hfile
    rw [List.map_cons, List.map_cons, ih]

/-- Whatever has been asked for is written when a run has ended. -/
theorem mem_written {resolve : Request → Resolution} {fetches : String → List String}
    {entry : Pending} {bound : Nat} {t : Trace} (h : Ended resolve fetches entry bound true t)
    {path : String} (hkey : vendorKey path ∈ t.loaded.map vendorKey) :
    copyOf path ∈ t.written.map (·.1) := by
  obtain ⟨path', hloaded, hsame⟩ := List.mem_map.1 hkey
  rw [← h.given] at hloaded
  obtain ⟨⟨path', loaded⟩, hgiven, rfl⟩ := List.mem_map.1 hloaded
  have hcopy : copyOf path' = copyOf path := congrArg vendorPath hsame
  rw [out_of_rewritten (h.written rfl), ← hcopy]
  refine List.mem_map.2 ⟨⟨copyOf path', loaded.contents, some path', .http⟩, ?_, rfl⟩
  exact List.mem_cons_of_mem _ (List.mem_map.2 ⟨(path', loaded), hgiven, rfl⟩)

/-- Every import that a bundling run replaces by a path to a copy leads to a file of the run,
whatever imports it: where all that is copied is on the web, at hosts that are no dots. -/
theorem bundle_lands (plugin : Plugin (ExceptT ε (StateM σ))) (task : Task ε σ)
    (hplaces : ∀ r path, plugin.resolve r = .resolved path .http → IsPlace path)
    (hentry : '/' ∉ task.entryName.toList) {fuel : Nat} {s s' : σ}
    (hrun : task.run plugin fuel s = (.ok true, s')) :
    ∃ t : Trace, task.watched plugin.lifted fuel s = (.ok true, s', t) ∧
      List.Forall₂ (Landed plugin.resolve (t.written.map (·.1))) (t.modules task.entry) t.written := by
  have hwatched := task.watched_eq (pluginErases_lifted plugin) fuel s
  rw [hrun] at hwatched
  have hended := task.ended_watched (notesLoads_lifted plugin) (congrArg Prod.fst hwatched)
  generalize (task.watched plugin.lifted fuel s).2.2 = t at hwatched hended
  refine ⟨t, hwatched, ?_⟩
  have hplain : ∀ module ∈ t.modules task.entry, IsPlain module.out := by
    intro module hmodule
    rcases out_of_mem_modules hended.given hmodule with rfl | ⟨path, hpath, hout⟩
    · exact ⟨[], task.entryName.toList, rfl, nofun, hentry⟩
    · obtain ⟨r, hr⟩ := hended.sound.resolved path hpath
      rw [hout]
      exact (hplaces r path hr).isPlain_copyOf
  have hboth := (List.forall₂_and_left _ _).2 ⟨hplain, hended.written rfl⟩
  apply hboth.imp
  intro module file h
  exact h.2.landed hplaces (fun path hkey => mem_written hended hkey) h.1

/-! ## Bundles of a few modules -/

/-- A plugin that puts the modules of a table into the bundle, by their URLs. -/
def tablePlugin (texts : List (String × String)) :
    Plugin (ExceptT Unit (StateM (List (String × String)))) where
  resolve r := if (texts.lookup r.path).isSome then .resolved r.path .http else .external r.path
  load path _ := return (texts.lookup path).map (⟨·, .ts⟩)

theorem mem_of_resolve_table {texts : List (String × String)} {r : Request} {path : String}
    (h : (tablePlugin texts).resolve r = .resolved path .http) : path ∈ texts.map (·.1) := by
  have h : (if (texts.lookup r.path).isSome then Resolution.resolved r.path .http
    else .external r.path) = .resolved path .http := h
  split at h
  · rename_i hsome
    obtain ⟨rfl, -⟩ := Resolution.resolved.inj h
    obtain ⟨text, htext⟩ := Option.isSome_iff_exists.1 hsome
    obtain ⟨before, after, rfl, -⟩ := List.lookup_eq_some_iff.1 htext
    simp
  · nomatch h

/-- The task of bundling a program into a list of files. -/
def listTask (contents : String) : Task Unit (List (String × String)) where
  unloaded _ := ()
  write out text := modify (· ++ [(out, text)])
  entryName := "server.js"
  injected := []
  contents

/-- Two modules in different directories that import one another. -/
def mutualTexts : List (String × String) :=
  [("http://h/deep/a.ts", "import \"http://h/b.ts\";"),
    ("http://h/b.ts", "import \"http://h/deep/a.ts\";")]

theorem isPlace_of_parse {path : String} {u : Url} (h : (Url.parse path).toOption = some u)
    (hweb : u.scheme = "http".toList) (hhost : u.host = some ['h']) : IsPlace path := by
  refine ⟨u, eq_ok_of_toOption h, Or.inl hweb, ?_, ?_⟩
  · rw [hhost]
    decide
  · rw [hhost]
    decide

/-- Modules that import one another lead to each other. -/
theorem bundle_lands_mutual :
    ∃ t : Trace, (listTask "import \"http://h/deep/a.ts\";").watched
        (tablePlugin mutualTexts).lifted 3 [] =
      (.ok true, [("server.js", "import \"./_vendor/h/deep/a.ts.js\";"),
        ("_vendor/h/deep/a.ts.js", "import \"../../../_vendor/h/b.ts.js\";"),
        ("_vendor/h/b.ts.js", "import \"../../_vendor/h/deep/a.ts.js\";")], t) ∧
      List.Forall₂ (Landed (tablePlugin mutualTexts).resolve (t.written.map (·.1)))
        (t.modules (listTask "import \"http://h/deep/a.ts\";").entry) t.written := by
  have hplaces : ∀ path ∈ mutualTexts.map (·.1), IsPlace path := by
    intro path hpath
    have hcases : path = "http://h/deep/a.ts" ∨ path = "http://h/b.ts" := by
      simpa [mutualTexts] using hpath
    rcases hcases with rfl | rfl
    · apply isPlace_of_parse (u := ⟨"http".toList, [], [], some ['h'], none,
        .rooted ["deep".toList, "a.ts".toList], none, none⟩)
      · decide +kernel
      · rfl
      · rfl
    · apply isPlace_of_parse (u := ⟨"http".toList, [], [], some ['h'], none,
        .rooted ["b.ts".toList], none, none⟩)
      · decide +kernel
      · rfl
      · rfl
  exact bundle_lands (tablePlugin mutualTexts) (listTask "import \"http://h/deep/a.ts\";")
    (fun r path hr => hplaces path (mem_of_resolve_table hr)) (by decide) (by decide +kernel)

/-- Two modules at a host that is a dot. -/
def dottedTexts : List (String × String) :=
  [("http://./a.ts", "import \"http://./b.ts\";"), ("http://./b.ts", "")]

/-- The URL that a text is, seen from another. -/
def seenFrom (base text : String) : Option String :=
  ((Url.parse base).bind (·.join text)).toOption.map toString

/-- At a host of dots, an import that is copied leads out of the output directory, past all files
of the run. -/
theorem bundle_strays :
    (∀ r path, (tablePlugin dottedTexts).resolve r = .resolved path .http →
      ∃ u, Url.parse path = .ok u ∧ IsWeb u.scheme) ∧
    (listTask "import \"http://./a.ts\";").run (tablePlugin dottedTexts) 3 [] =
      (.ok true, [("server.js", "import \"./_vendor/./a.ts.js\";"),
        ("_vendor/./a.ts.js", "import \"../../_vendor/./b.ts.js\";"),
        ("_vendor/./b.ts.js", "")]) ∧
    seenFrom "file:///out/_vendor/./a.ts.js" "../../_vendor/./b.ts.js" =
      some "file:///_vendor/b.ts.js" ∧
    ∀ file ∈ ["server.js", "_vendor/./a.ts.js", "_vendor/./b.ts.js"],
      seenFrom "file:///out/" file ≠ some "file:///_vendor/b.ts.js" := by
  refine ⟨?_, by decide +kernel, by decide +kernel, by decide +kernel⟩
  intro r path hr
  have hcases : path = "http://./a.ts" ∨ path = "http://./b.ts" := by
    simpa [dottedTexts] using mem_of_resolve_table hr
  have hparse : ∀ path ∈ ["http://./a.ts", "http://./b.ts"],
      ((Url.parse path).toOption.map (·.scheme)) = some "http".toList := by
    decide +kernel
  have hscheme := hparse path (by simpa using hcases)
  obtain ⟨u, hu, hhttp⟩ := Option.map_eq_some_iff.1 hscheme
  exact ⟨u, eq_ok_of_toOption hu, Or.inl hhttp⟩

end Waymark.Bundle
