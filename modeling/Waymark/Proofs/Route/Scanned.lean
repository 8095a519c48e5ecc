import Waymark.App
import Waymark.Proofs.App.Runs
import Waymark.Proofs.Disk.Listing
import Waymark.Proofs.Route.Base
import Waymark.Proofs.Route.Filled
import Waymark.Proofs.Route.Globs
/-!
# Route files that are found

The table of an app holds the route files that are found below the base of its
configuration.  For a directory the base is that directory.  For a glob it is the path in
front of the first star, wherever this falls, while the names of files are matched with
the whole glob.  So a file is in the table exactly if it is accepted by itself, has a
pattern, and lies below the base: a file that `./routes/a*.tsx` accepts is missing, since
there is no directory `routes/a`.

Where the base is a directory that the configuration names, whatever is accepted lies
below it and has a pattern, so the two ways to tell a route file agree.  This holds of
every configuration by directory, and of globs whose first star follows a slash and
whose directory is written out.

## Main results

* `isBelow_of_accepts` — what a configuration accepts that names its directory lies there.
* `containsFile_scan` — what the table holds that is found on a disk.
* `scan_eq_iff` — it is determined by the files that it holds.
* `load_contains_iff` — the table and the test of single names agree, up to the base.
* `load_misses_accepted` — a route file by its name that is not found.
-/

namespace Waymark

namespace Text

/-- What does not depend on copies of a text in front is found without them. -/
theorem apply_dropCopies {α : Type} (f : List Char → α) {t : List Char}
    (hf : ∀ s, f (t ++ s) = f s) (s : List Char) : f (dropCopies t s) = f s := by
  induction hlength : s.length using Nat.strongRecOn generalizing s with
  | ind n ih =>
    rw [dropCopies]
    cases hfound : List.isPrefixOf? t s with
    | none => rfl
    | some rest =>
      have hs := eq_append_of_isPrefixOf? hfound
      dsimp only
      by_cases hshorter : rest.length < s.length
      · rw [if_pos hshorter, ih rest.length (hlength ▸ hshorter) rest rfl, hs, hf]
      · rw [if_neg hshorter]

/-- What does not depend on characters in front is found without them. -/
theorem apply_dropWhile {α : Type} (f : List Char → α) {c : Char}
    (hf : ∀ s, f (c :: s) = f s) (s : List Char) : f (s.dropWhile (· = c)) = f s := by
  induction s with
  | nil => rfl
  | cons d s ih =>
    rw [List.dropWhile_cons]
    by_cases hd : d = c
    · rw [if_pos (decide_eq_true hd), ih, hd, hf]
    · rw [if_neg (by simpa using hd)]

end Text

namespace RouteFiles

/-! ## Globs that name a directory -/

/-- The path of a directory, with a slash behind each of its names. -/
def directoryText (names : List String) : List Char :=
  '.' :: (names.map String.toList).flatMap ('/' :: ·) ++ ['/']

/-- A configuration that names the directory of the route files: by itself, or up to the first star
of a glob that, as it is read, begins with the directory as it is. -/
inductive NamesDirectory : RoutesConfig → Prop where
  | dir (dir : String) (exts : List String) (host : Bool) : NamesDirectory (.dir dir exts host)
  | glob {glob : String} {names : List String} {more : List Char}
      (hnames : ∀ name ∈ names, Disk.IsPlain name ∧ ∀ c ∈ name.toList, Glob.IsLiteral c)
      (hglob : (rootedGlob glob).toList = directoryText names ++ '*' :: more) :
      NamesDirectory (.glob glob)

section
variable {names : List String}
  (hnames : ∀ name ∈ names, Disk.IsPlain name ∧ ∀ c ∈ name.toList, Glob.IsLiteral c)
include hnames

theorem isLiteral_directory :
    ∀ c ∈ '.' :: (names.map String.toList).flatMap ('/' :: ·), Glob.IsLiteral c := by
  have hdot : Glob.IsLiteral '.' := by decide
  have hslash : Glob.IsLiteral '/' := by decide
  intro c hc
  rcases List.mem_cons.1 hc with rfl | hc
  · exact hdot
  · obtain ⟨a, ha, hc⟩ := List.mem_flatMap.1 hc
    obtain ⟨name, hname, rfl⟩ := List.mem_map.1 ha
    rcases List.mem_cons.1 hc with rfl | hc
    · exact hslash
    · exact (hnames name hname).2 c hc

/-- The directory is what stands before the first star. -/
theorem before_star (more : List Char) :
    Text.before '*' (directoryText names ++ '*' :: more) = directoryText names := by
  have hall : ∀ c ∈ directoryText names, decide (c ≠ '*') = true := by
    intro c hc
    apply decide_eq_true
    rcases List.mem_append.1 hc with hc | hc
    · rintro rfl
      exact isLiteral_directory hnames _ hc (by decide)
    · rw [List.mem_singleton.1 hc]
      decide
  rw [Text.before, List.takeWhile_append_of_pos hall]
  exact List.append_nil _

/-- The names of the directory are left when it is cleaned. -/
theorem cleanSegments_directoryText :
    Specifier.cleanSegments (directoryText names) = names.map String.toList := by
  have hclean : ∀ a ∈ names.map String.toList, Specifier.IsCleanSegment a := by
    intro a ha
    obtain ⟨name, hname, rfl⟩ := List.mem_map.1 ha
    obtain ⟨hplain, hliteral⟩ := hnames name hname
    refine ⟨fun hnil => hplain.ne_empty (String.toList_eq_nil_iff.1 hnil),
      fun hdot => hplain.ne_dot (String.toList_inj.1 hdot),
      fun hdots => hplain.ne_dots (String.toList_inj.1 hdots), ?_⟩
    intro c hc
    rw [Specifier.isSlash, Bool.or_eq_false_iff]
    constructor
    · apply decide_eq_false
      rintro rfl
      exact hplain.noSlash hc
    · apply decide_eq_false
      rintro rfl
      exact hliteral _ hc (by decide)
  have hslash : Specifier.isSlash '/' = true := rfl
  have hpieces : Text.piecesWhere Specifier.isSlash (directoryText names) =
      ['.'] :: (names.map String.toList ++ [[]]) := by
    have hdots : ∀ a ∈ names.map String.toList, ∀ c ∈ a, Specifier.isSlash c = false :=
      fun a ha => (hclean a ha).noSlash
    have hflat := Text.piecesWhere_flatMap hslash hdots []
    have hdot : Specifier.isSlash '.' = false := rfl
    rw [directoryText, List.cons_append, Text.piecesWhere, if_neg (by rw [hdot]; decide), hflat]
    rfl
  show ((Text.piecesWhere Specifier.isSlash (directoryText names)).foldl Specifier.pushSegment
    []).reverse = names.map String.toList
  have hfirst : Specifier.pushSegment [] ['.'] = [] := if_pos (Or.inr rfl)
  have hlast (kept : List (List Char)) : Specifier.pushSegment kept [] = kept := if_pos (Or.inl rfl)
  rw [hpieces, List.foldl_cons, hfirst, List.foldl_append, Specifier.foldl_pushSegment_clean hclean,
    List.append_nil, List.foldl_cons, hlast, List.foldl_nil, List.reverse_reverse]

end

/-- Nothing in front of a glob that is left out when it is read has a part in its base. -/
theorem cleanSegments_rootedGlob (glob : String) :
    Specifier.cleanSegments (Text.before '*' (rootedGlob glob).toList) =
      Specifier.cleanSegments (Text.before '*' glob.toList) := by
  have hslash (s : List Char) : Specifier.cleanSegments (Text.before '*' ('/' :: s)) =
      Specifier.cleanSegments (Text.before '*' s) := rfl
  have hdotSlash (s : List Char) : Specifier.cleanSegments (Text.before '*' (['.', '/'] ++ s)) =
      Specifier.cleanSegments (Text.before '*' s) := rfl
  have hglob : (rootedGlob glob).toList =
      ['.', '/'] ++ Text.dropCopies ['.', '/'] (glob.toList.dropWhile (· = '/')) := by
    rw [rootedGlob, String.toList_append]
    exact congrArg (['.', '/'] ++ ·) String.toList_ofList
  let kept (s : List Char) := Specifier.cleanSegments (Text.before '*' s)
  have hcopies := Text.apply_dropCopies kept hdotSlash (glob.toList.dropWhile (· = '/'))
  have hslashes := Text.apply_dropWhile kept hslash glob.toList
  rw [hglob, hdotSlash]
  exact hcopies.trans hslashes

/-- What begins with a directory lies below the base that is this directory. -/
theorem isBelow_of_directory {files : RouteFiles} {names : List String}
    (hbase : files.base = RouteTable.fileSpecifier names) {file : String} {rest : List Char}
    (hfile : file.toList = directoryText names ++ rest) : files.isBelow file = true := by
  have hlist : files.base.toList =
      ['.', '/'] ++ Text.joinPieces '/' (names.map String.toList) := by
    rw [hbase, toList_fileSpecifier]
  cases names with
  | nil =>
    have hroot : files.base.toList = ['.', '/'] := hlist
    have hafter : files.afterBase? file = some rest := by
      rw [afterBase?, hroot, hfile]
      exact Text.isPrefixOf?_append ['.', '/'] rest
    rw [isBelow, hafter, hroot]
    rfl
  | cons name names =>
    -- The base ends in its last name, and the slash behind it is left.
    have hfront : files.base.toList =
        '.' :: ((name :: names).map String.toList).flatMap ('/' :: ·) := by
      rw [hlist, List.map_cons, ← Text.cons_joinPieces]
      rfl
    have hafter : files.afterBase? file = some ('/' :: rest) := by
      rw [afterBase?, hfront, hfile, directoryText, List.append_assoc]
      exact Text.isPrefixOf?_append _ _
    rw [isBelow, hafter]
    exact Bool.or_true _

/-- What a configuration accepts that names its directory lies there. -/
theorem isBelow_of_accepts {config : RoutesConfig} {files : RouteFiles}
    (hconfig : NamesDirectory config) (hfiles : compile config = .ok files) {file : String}
    (h : files.accepts file = true) : files.isBelow file = true := by
  cases hconfig with
  | dir dir exts host =>
    obtain rfl := Except.ok.inj hfiles
    unfold accepts at h
    dsimp only at h
    exact (Bool.and_eq_true_iff.1 h).1
  | @glob glob names more hnames hglob =>
    unfold compile at hfiles
    dsimp only at hfiles
    cases hparse : Glob.parse (rootedGlob glob).toList with
    | error cause =>
      rw [hparse] at hfiles
      cases hfiles
    | ok tokens =>
      rw [hparse] at hfiles
      obtain rfl := Except.ok.inj hfiles
      have hsegments : Specifier.cleanSegments (Text.before '*' glob.toList) =
          names.map String.toList := by
        rw [← cleanSegments_rootedGlob, hglob, before_star hnames,
          cleanSegments_directoryText hnames]
      obtain ⟨hbase, hbaseNames⟩ := hasBase_of_clean (r := ⟨"." ++ Specifier.clean
        (String.ofList (Text.before '*' glob.toList)), .glob tokens, false⟩) rfl
      rw [String.toList_ofList, hsegments, map_ofList_map_toList] at hbaseNames
      rw [hglob, directoryText, List.append_assoc] at hparse
      obtain ⟨rest, hfile⟩ := Glob.exists_of_isMatch (isLiteral_directory hnames) hparse h
      have hbelow : file.toList = directoryText names ++ rest := by
        rw [hfile, directoryText, List.append_assoc]
        rfl
      exact isBelow_of_directory (hbaseNames ▸ hbase.base) hbelow

end RouteFiles

namespace RouteTable

/-! ## The table of a disk -/

theorem containsFile_iff {table : RouteTable} {file : String} :
    table.containsFile file = true ↔ ∃ r ∈ table.routes, r.filename = file := by
  simp only [containsFile, List.any_eq_true, decide_eq_true_eq]

/-- What is found on a disk has a pattern. -/
theorem isSome_pattern?_of_containsFile {files : RouteFiles} {d : Disk} {file : String}
    (h : (scan files d).containsFile file = true) : (files.pattern? file).isSome = true := by
  obtain ⟨r, hr, hfile⟩ := containsFile_iff.1 h
  unfold scan at hr
  split at hr
  · exact (mem_routes_ofFiles.1 ⟨r, hr, hfile⟩).2
  · exact absurd hr List.not_mem_nil

/-- The table of a disk holds the files with a pattern that lie below the base. -/
theorem containsFile_scan_iff {files : RouteFiles} {d : Disk} (hbase : files.HasBase)
    (hd : d.IsTree) {names : List String} (hnames : ∀ name ∈ names, Disk.IsName name) :
    (scan files d).containsFile (fileSpecifier names) = true ↔
      names ∈ d.filesBelow files.baseNames ∧
        (files.pattern? (fileSpecifier names)).isSome = true := by
  rw [scan_eq_ofFiles hbase hd, containsFile_iff, mem_routes_ofFiles, List.mem_map]
  refine and_congr_left fun _ => ?_
  constructor
  · rintro ⟨found, hfound, hspecifier⟩
    obtain ⟨key, content, -, rfl, -⟩ := Disk.mem_filesBelow.1 hfound
    rw [← Disk.namesOf_keyOf hnames] at hspecifier ⊢
    exact fileSpecifier_inj hspecifier ▸ hfound
  · exact fun hfound => ⟨names, hfound, rfl⟩

/-- The files of a disk that are in its table are those with a pattern that lie below the base. -/
theorem containsFile_scan {files : RouteFiles} {d : Disk} (hbase : files.HasBase) (hd : d.IsTree)
    {key : String} {content : ByteArray} (hentry : d.entries.get? key = some (.file content)) :
    (scan files d).containsFile (fileSpecifier (Disk.namesOf key)) = true ↔
      (files.pattern? (fileSpecifier (Disk.namesOf key))).isSome = true ∧
        Disk.isBelow (Disk.namesOf key) files.baseNames = true := by
  rw [containsFile_scan_iff hbase hd fun name hname => Disk.isName_of_mem_namesOf hname,
    Disk.mem_filesBelow, and_comm]
  refine and_congr_right fun _ => ?_
  constructor
  · rintro ⟨key', content', -, hnames, hbelow⟩
    exact hnames ▸ hbelow
  · exact fun hbelow => ⟨key, content, hentry, rfl, hbelow⟩

/-- Two disks have the same table exactly if the same files are in their tables. -/
theorem scan_eq_iff {files : RouteFiles} {d d' : Disk} (hbase : files.HasBase) (hd : d.IsTree)
    (hd' : d'.IsTree) :
    scan files d = scan files d' ↔ ∀ names, (∀ name ∈ names, Disk.IsName name) →
      ((scan files d).containsFile (fileSpecifier names) = true ↔
        (scan files d').containsFile (fileSpecifier names) = true) := by
  refine ⟨fun h names _ => h ▸ Iff.rfl, fun h => ?_⟩
  -- whether a file has a pattern is asked of its specifier alone
  have hlisted : (d.filesBelow files.baseNames).filter
        (fun names => (files.pattern? (fileSpecifier names)).isSome) =
      (d'.filesBelow files.baseNames).filter
        (fun names => (files.pattern? (fileSpecifier names)).isSome) := by
    refine Disk.filter_filesBelow_congr hd hd' fun names hpattern => ?_
    have hsame (hnames : ∀ name ∈ names, Disk.IsName name) :
        names ∈ d.filesBelow files.baseNames ↔ names ∈ d'.filesBelow files.baseNames := by
      have hfile := h names hnames
      rw [containsFile_scan_iff hbase hd hnames, containsFile_scan_iff hbase hd' hnames] at hfile
      simpa only [hpattern, and_true] using hfile
    constructor
    · intro hmem
      obtain ⟨key, content, -, rfl, -⟩ := Disk.mem_filesBelow.1 hmem
      exact (hsame fun name hname => Disk.isName_of_mem_namesOf hname).1 hmem
    · intro hmem
      obtain ⟨key, content, -, rfl, -⟩ := Disk.mem_filesBelow.1 hmem
      exact (hsame fun name hname => Disk.isName_of_mem_namesOf hname).2 hmem
  have htable (disk : Disk) : ofFiles files ((disk.filesBelow files.baseNames).map fileSpecifier) =
      ofFiles files (((disk.filesBelow files.baseNames).filter
        fun names => (files.pattern? (fileSpecifier names)).isSome).map fileSpecifier) := by
    rw [← ofFiles_filter files (p := fun name => (files.pattern? name).isSome) fun _ => id,
      List.filter_map]
    rfl
  rw [scan_eq_ofFiles hbase hd, scan_eq_ofFiles hbase hd', htable d, htable d', hlisted]

/-- Where a configuration names its directory, the files of a disk that it accepts are in its
table. -/
theorem containsFile_scan_of_names {config : RoutesConfig} {files : RouteFiles} {d : Disk}
    (hfiles : RouteFiles.compile config = .ok files) (hconfig : RouteFiles.NamesDirectory config)
    (hd : d.IsTree) {key : String} {content : ByteArray}
    (hentry : d.entries.get? key = some (.file content))
    (haccepts : files.accepts (fileSpecifier (Disk.namesOf key)) = true) :
    (scan files d).containsFile (fileSpecifier (Disk.namesOf key)) = true := by
  have hbase := RouteFiles.hasBase_of_compile hfiles
  have hplain : ∀ name ∈ Disk.namesOf key, Disk.IsPlain name :=
    fun name hname => (hd.name hentry name hname).1
  have hne : Disk.namesOf key ≠ [] := by
    obtain ⟨hkey, hkeyOf⟩ := hd.key hentry
    intro hnil
    rw [hnil] at hkeyOf
    exact hkey hkeyOf
  have hbelow := RouteFiles.isBelow_of_accepts hconfig hfiles haccepts
  exact (containsFile_scan hbase hd hentry).2
    (RouteFiles.isBelow_of_isBelow hbase hplain hne haccepts hbelow)

/-- The table that is loaded under a configuration that can be compiled holds those files of the
disk that are accepted by themselves, have a pattern and lie below the base.  Where the
configuration names its directory, the last of these need not be asked: whatever file of the disk
is taken for a route file, by a table that was loaded before or by its name, is in the table when
it has been loaded again. -/
theorem load_contains_iff {config : RoutesConfig} {files : RouteFiles}
    (hfiles : RouteFiles.compile config = .ok files) {d : Disk} (hd : d.IsTree) :
    ∃ table, load (some config) d = .ok table ∧
      ∀ key content, d.entries.get? key = some (.file content) →
        let file := fileSpecifier (Disk.namesOf key)
        (table.containsFile file = true ↔
          files.accepts file = true ∧ (files.pattern? file).isSome = true ∧
            Disk.isBelow (Disk.namesOf key) files.baseNames = true) ∧
        (RouteFiles.NamesDirectory config →
          (table.containsFile file = true ↔
            files.accepts file = true ∧ (files.pattern? file).isSome = true) ∧
          ∀ (app : App) (before : Disk), app.disk = d → app.config.routes = some config →
            load (some config) before = .ok app.routes → app.isRouteFile file = true →
            ∃ refreshed, app.refreshRoutes = .ok refreshed ∧
              refreshed.routes.containsFile file = true) := by
  have hload (disk : Disk) : load (some config) disk = .ok (scan files disk) := by
    rw [load, hfiles]
    rfl
  refine ⟨scan files d, hload d, ?_⟩
  intro key content hentry file
  have haccepted (hpattern : (files.pattern? file).isSome = true) : files.accepts file = true := by
    obtain ⟨pattern, hpattern⟩ := Option.isSome_iff_exists.1 hpattern
    exact RouteFiles.accepts_of_pattern? hpattern
  have hfound := containsFile_scan (RouteFiles.hasBase_of_compile hfiles) hd hentry
  constructor
  · rw [hfound]
    exact ⟨fun ⟨hpattern, hbelow⟩ => ⟨haccepted hpattern, hpattern, hbelow⟩, fun h => h.2⟩
  · intro hconfig
    have hholds (haccepts : files.accepts file = true) :=
      containsFile_scan_of_names hfiles hconfig hd hentry haccepts
    constructor
    · constructor
      · intro h
        have hpattern := isSome_pattern?_of_containsFile h
        exact ⟨haccepted hpattern, hpattern⟩
      · exact fun h => hholds h.1
    · intro app before hdisk hroutes hbefore hroute
      have haccepts : files.accepts file = true := by
        rw [App.isRouteFile, hroutes, Option.map_some, hfiles, Bool.or_eq_true] at hroute
        cases hroute with
        | inl hknown =>
          rw [hload, Except.ok.injEq] at hbefore
          rw [← hbefore] at hknown
          exact haccepted (isSome_pattern?_of_containsFile hknown)
        | inr haccepts => exact haccepts
      have hrefresh : app.refreshRoutes = .ok { app with routes := scan files d } := by
        rw [App.refreshRoutes, hroutes, hdisk, hload]
        rfl
      exact ⟨_, hrefresh, hholds haccepts⟩

/-- A disk with one route file. -/
def routesDisk : Disk :=
  ⟨"/app", Dict.ofList [("routes", .directory), ("routes/ab.tsx", .file ByteArray.empty)]⟩

theorem isTree_routesDisk : routesDisk.IsTree := by
  have hkeys {key : String} {entry : DiskEntry} (h : routesDisk.entries.get? key = some entry) :
      key = "routes" ∨ key = "routes/ab.tsx" := by
    have hmem := Dict.mem_of_get?_ofList h
    rw [List.mem_cons, List.mem_singleton] at hmem
    exact hmem.imp (fun heq => congrArg Prod.fst heq) (fun heq => congrArg Prod.fst heq)
  constructor
  · intro key entry h
    rcases hkeys h with rfl | rfl
    · decide +kernel
    · decide +kernel
  · intro key entry h
    rcases hkeys h with rfl | rfl
    · decide +kernel
    · decide +kernel
  · intro key entry h
    rcases hkeys h with rfl | rfl
    · rfl
    · rfl
  · intro key entry h
    rcases hkeys h with rfl | rfl
    · decide +kernel
    · decide +kernel

/-- An app on it that knows of no routes, with a glob for its route files. -/
def routesApp (glob : String) : App :=
  { surroundings := ⟨fun url => .error (.request url), fun _ => none,
      fun _ s _ => .error (.request s)⟩
    pipeline := Pipeline.standard false ImportMap.empty
    disk := routesDisk
    config := { routes := some (.glob glob) }
    graph? := none, routes := empty, homePort := 3000, port := 3000
    registered := Dict.empty, now := 7, requests := [], fetched := [] }

/-- A glob for all files of a directory: one that is new is in the table when it has been loaded
again. -/
theorem load_contains_iff_glob :
    (routesApp "./routes/*.tsx").isRouteFile "./routes/ab.tsx" = true ∧
      ∃ refreshed, (routesApp "./routes/*.tsx").refreshRoutes = .ok refreshed ∧
        refreshed.routes.containsFile "./routes/ab.tsx" = true := by
  obtain ⟨files, hcompiled, haccepts⟩ : ∃ files,
      (RouteFiles.compile (.glob "./routes/*.tsx")).toOption = some files ∧
        files.accepts "./routes/ab.tsx" = true :=
    Option.map_eq_some_iff.1 (show _ = some true by decide +kernel)
  have hroute : (routesApp "./routes/*.tsx").isRouteFile "./routes/ab.tsx" = true := by
    decide +kernel
  have hnames : ∀ name ∈ ["routes"], Disk.IsPlain name ∧ ∀ c ∈ name.toList, Glob.IsLiteral c := by
    intro name hname
    obtain rfl := List.mem_singleton.1 hname
    exact ⟨by decide, Text.forall_mem_of_all (by decide)⟩
  have hglob : (RouteFiles.rootedGlob "./routes/*.tsx").toList =
      RouteFiles.directoryText ["routes"] ++ '*' :: ".tsx".toList := by decide +kernel
  have hconfig : RouteFiles.NamesDirectory (.glob "./routes/*.tsx") := .glob hnames hglob
  have hbefore : load (some (.glob "./routes/*.tsx")) ⟨"/app", Dict.empty⟩ = .ok empty :=
    eq_ok_of_toOption (by decide +kernel)
  obtain ⟨table, htable, hholds⟩ :=
    load_contains_iff (eq_ok_of_toOption hcompiled) isTree_routesDisk
  obtain ⟨content, hentry⟩ : ∃ content,
      routesDisk.entries.get? "routes/ab.tsx" = some (.file content) := ⟨ByteArray.empty, rfl⟩
  have hfile : fileSpecifier (Disk.namesOf "routes/ab.tsx") = "./routes/ab.tsx" := by decide +kernel
  have hrefreshed := ((hholds _ content hentry).2 hconfig).2
    (routesApp "./routes/*.tsx") ⟨"/app", Dict.empty⟩ rfl rfl hbefore
  rw [hfile] at hrefreshed
  exact ⟨hroute, hrefreshed hroute⟩

/-- A glob that has a star within a name: a file that it accepts, with a pattern, is not found, so
that what is taken for a route file is not in the table when it has been loaded again. -/
theorem load_misses_accepted :
    routesDisk.IsTree ∧ (routesDisk.entries.get? "routes/ab.tsx").isSome = true ∧
      (∃ files, RouteFiles.compile (.glob "./routes/a*.tsx") = .ok files ∧
        files.accepts "./routes/ab.tsx" = true ∧
        files.pattern? "./routes/ab.tsx" = some ⟨none, "/b"⟩) ∧
      (routesApp "./routes/a*.tsx").isRouteFile "./routes/ab.tsx" = true ∧
      ∃ refreshed, (routesApp "./routes/a*.tsx").refreshRoutes = .ok refreshed ∧
        refreshed.routes.containsFile "./routes/ab.tsx" = false := by
  refine ⟨isTree_routesDisk, by decide +kernel, ?_, by decide +kernel, ?_⟩
  · obtain ⟨files, hcompiled, hfile⟩ := Option.map_eq_some_iff.1
      (show (RouteFiles.compile (.glob "./routes/a*.tsx")).toOption.map
          (fun files => (files.accepts "./routes/ab.tsx", files.pattern? "./routes/ab.tsx")) =
        some (true, some ⟨none, "/b"⟩) by decide +kernel)
    obtain ⟨haccepts, hpattern⟩ := Prod.mk.inj hfile
    exact ⟨files, eq_ok_of_toOption hcompiled, haccepts, hpattern⟩
  · obtain ⟨refreshed, hrefreshed, hfile⟩ := Option.map_eq_some_iff.1
      (show (routesApp "./routes/a*.tsx").refreshRoutes.toOption.map
          (fun refreshed => refreshed.routes.containsFile "./routes/ab.tsx") = some false by
        decide +kernel)
    exact ⟨refreshed, eq_ok_of_toOption hrefreshed, hfile⟩

end RouteTable

end Waymark
