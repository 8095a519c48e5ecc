import Waymark.Proofs.Disk.Trees
import Waymark.Proofs.Specifier.Clean
import Waymark.Route.Scan
/-!
# The base of route files

The base of a routes configuration is a clean path behind a dot, so it is the specifier
of plain names, and those are the names that it is looked up by on a disk.  A file whose
name begins with the base, as a text, up to a slash, therefore lies below it.

What lies below the base and is accepted has a pattern: something is left when the base
is taken off its name, and none of the names that are left is a dot.

## Main results

* `hasBase_of_compile` — a base is the specifier of the names that it is looked up by.
* `isBelow_of_isBelow` — a file that begins with the base lies below it and has a pattern.
* `scan_eq_ofFiles` — the table of a disk is that of the files below the base.
* `exists_file_of_mem_routes` — a route of the table is a file on the disk.
-/

namespace Waymark

namespace RouteFiles

/-! ## The base -/

/-- The names of the base below the root. -/
def baseNames (r : RouteFiles) : List String := Disk.namesOf (Specifier.relativePath r.base)

/-- A base is a clean path below the root. -/
theorem exists_base_of_compile {config : RoutesConfig} {files : RouteFiles}
    (h : compile config = .ok files) : ∃ path, files.base = "." ++ Specifier.clean path := by
  unfold compile at h
  split at h
  · obtain rfl := Except.ok.inj h
    exact ⟨_, rfl⟩
  · dsimp only at h
    split at h
    · obtain rfl := Except.ok.inj h
      exact ⟨_, rfl⟩
    · cases h

/-- A base is the specifier of plain names, by which it is looked up. -/
structure HasBase (r : RouteFiles) : Prop where
  base : r.base = RouteTable.fileSpecifier r.baseNames
  relative : Specifier.relativePath r.base = Disk.keyOf r.baseNames
  plain : ∀ name ∈ r.baseNames, Disk.IsPlain name

theorem isPlain_of_isCleanSegment {a : List Char} (h : Specifier.IsCleanSegment a) :
    Disk.IsPlain (String.ofList a) :=
  Disk.isPlain_ofList h.ne_nil h.slash_notMem h.ne_dot h.ne_dots

theorem toList_fileSpecifier (names : List String) :
    (RouteTable.fileSpecifier names).toList =
      ['.', '/'] ++ Text.joinPieces '/' (names.map String.toList) := by
  rw [RouteTable.fileSpecifier, String.toList_append, Disk.toList_keyOf, String.toList_ofList]

theorem map_toList_map_ofList (as : List (List Char)) :
    (as.map String.ofList).map String.toList = as := by
  rw [List.map_map]
  exact (List.map_congr_left fun a _ => String.toList_ofList).trans (List.map_id as)

theorem map_ofList_map_toList (names : List String) :
    (names.map String.toList).map String.ofList = names := by
  rw [List.map_map]
  exact (List.map_congr_left fun name _ => String.ofList_toList).trans (List.map_id names)

/-- A clean path behind a dot is the specifier of its segments, by which it is looked up. -/
theorem fileSpecifier_of_clean (path : String) :
    "." ++ Specifier.clean path =
        RouteTable.fileSpecifier ((Specifier.cleanSegments path.toList).map String.ofList) ∧
      Specifier.relativePath ("." ++ Specifier.clean path) =
        Disk.keyOf ((Specifier.cleanSegments path.toList).map String.ofList) ∧
      ∀ name ∈ (Specifier.cleanSegments path.toList).map String.ofList, Disk.IsPlain name := by
  have hclean : ∀ a ∈ Specifier.cleanSegments path.toList, Specifier.IsCleanSegment a :=
    fun a ha => Specifier.isCleanSegment_of_mem ha
  have hlist : ("." ++ Specifier.clean path).toList =
      ['.', '/'] ++ Text.joinPieces '/' (Specifier.cleanSegments path.toList) := by
    rw [String.toList_append, Specifier.toList_clean, String.toList_ofList]
    rfl
  generalize Specifier.cleanSegments path.toList = as at hclean hlist
  refine ⟨?_, ?_, ?_⟩
  · apply String.toList_inj.1
    rw [hlist, toList_fileSpecifier, map_toList_map_ofList]
  · apply String.toList_inj.1
    rw [Specifier.relativePath, String.toList_ofList, hlist, Disk.toList_keyOf,
      map_toList_map_ofList]
    exact Text.dropCopies_append (List.cons_ne_nil _ _)
      (Specifier.not_prefix_joinPieces hclean)
  · intro name hname
    obtain ⟨a, ha, rfl⟩ := List.mem_map.1 hname
    exact isPlain_of_isCleanSegment (hclean a ha)

theorem hasBase_of_clean {r : RouteFiles} {path : String}
    (h : r.base = "." ++ Specifier.clean path) :
    r.HasBase ∧ r.baseNames = (Specifier.cleanSegments path.toList).map String.ofList := by
  obtain ⟨hbase, hrelative, hplain⟩ := fileSpecifier_of_clean path
  rw [← h] at hbase hrelative
  have hnames : r.baseNames = (Specifier.cleanSegments path.toList).map String.ofList := by
    rw [baseNames, hrelative, Disk.namesOf_keyOf fun name hname => (hplain name hname).toIsName]
  exact ⟨⟨hnames ▸ hbase, hnames ▸ hrelative, hnames ▸ hplain⟩, hnames⟩

theorem hasBase_of_compile {config : RoutesConfig} {files : RouteFiles}
    (h : compile config = .ok files) : files.HasBase := by
  obtain ⟨path, hbase⟩ := exists_base_of_compile h
  exact (hasBase_of_clean hbase).1

/-! ## Files that match by themselves -/

section
variable {files : RouteFiles} {names : List String}

theorem segments_names (h : ∀ name ∈ names, Disk.IsPlain name) :
    Text.segments '/' (Text.joinPieces '/' (names.map String.toList)) =
      names.map String.toList := by
  apply Text.segments_joinPieces
  · intro a ha
    obtain ⟨name, hname, rfl⟩ := List.mem_map.1 ha
    exact (h name hname).noSlash
  · intro a ha hnil
    obtain ⟨name, hname, rfl⟩ := List.mem_map.1 ha
    exact (h name hname).ne_empty (String.toList_eq_nil_iff.1 hnil)

/-- A file that begins with the base has the names of the base, and those of what follows it. -/
theorem exists_afterBase?_of_isBelow (hbase : files.HasBase)
    (hnames : ∀ name ∈ names, Disk.IsPlain name) (hne : names ≠ [])
    (h : files.isBelow (RouteTable.fileSpecifier names) = true) :
    ∃ rest, files.afterBase? (RouteTable.fileSpecifier names) = some rest ∧
      Text.segments '/' rest ≠ [] ∧
      names.map String.toList =
        files.baseNames.map String.toList ++ Text.segments '/' rest := by
  unfold isBelow at h
  split at h
  · rename_i rest hafter
    have hlist := Text.eq_append_of_isPrefixOf? hafter
    rw [hbase.base, toList_fileSpecifier, toList_fileSpecifier, List.append_assoc,
      List.append_cancel_left_eq] at hlist
    refine ⟨rest, hafter, ?_⟩
    by_cases hroot : files.baseNames = []
    · rw [hroot, List.map_nil, Text.joinPieces, List.nil_append] at hlist
      rw [← hlist, segments_names hnames, hroot]
      exact ⟨fun hnil => hne (List.map_eq_nil_iff.1 hnil), rfl⟩
    · -- The base ends in a name, so a slash follows it.
      have hopen : ['/'].isSuffixOf files.base.toList = false := by
        rw [Bool.eq_false_iff, Ne, List.isSuffixOf_iff_suffix, hbase.base, toList_fileSpecifier,
          ← Disk.toList_keyOf]
        intro hsuffix
        have hends := Disk.isSuffixOf_keyOf fun name hname => (hbase.plain name hname).toIsName
        rw [Bool.eq_false_iff, Ne, List.isSuffixOf_iff_suffix] at hends
        apply hends
        apply List.suffix_of_suffix_length_le hsuffix (List.suffix_append _ _)
        apply List.length_pos_iff.2
        intro hnil
        have hkey := Disk.namesOf_keyOf fun name hname => (hbase.plain name hname).toIsName
        rw [String.toList_eq_nil_iff.1 hnil] at hkey
        exact hroot hkey.symm
      rw [hopen, Bool.false_or] at h
      obtain ⟨more, rfl⟩ := List.isPrefixOf_iff_prefix.1 h
      have hsegments : names.map String.toList =
          files.baseNames.map String.toList ++ Text.segments '/' more := by
        rw [← segments_names hnames, hlist, List.singleton_append, Text.segments_append_cons,
          segments_names hbase.plain]
      rw [List.singleton_append, Text.segments_cons]
      refine ⟨?_, hsegments⟩
      intro hnil
      rw [hnil, List.append_nil] at hsegments
      rw [hsegments] at hlist
      have hlength := congrArg List.length hlist
      rw [List.length_append, List.length_append, List.length_singleton] at hlength
      omega
  · cases h

theorem isSome_closeSegments {segments : List (List Char)} (h : segments ≠ []) :
    (closeSegments segments).isSome = true := by
  rw [closeSegments]
  cases hlast : segments.getLast? with
  | none => exact absurd (List.getLast?_eq_none_iff.1 hlast) h
  | some name => rfl

/-- A file that is accepted has a pattern if there is something behind the base. -/
theorem isSome_pattern? {file : String} {rest : List Char} (haccepts : files.accepts file = true)
    (hrest : files.afterBase? file = some rest)
    (hne : (Text.segments '/' rest).filter (· ≠ ['.']) ≠ []) :
    (files.pattern? file).isSome = true := by
  have hmap : ((Text.segments '/' rest).filter (· ≠ ['.'])).map segmentPattern ≠ [] :=
    fun hnil => hne (List.map_eq_nil_iff.1 hnil)
  unfold pattern?
  rw [if_pos haccepts, hrest, Option.getD_some]
  dsimp only
  split
  · split
    · exact (Option.isSome_map ..).trans (isSome_closeSegments (List.cons_ne_nil _ _))
    · exact (Option.isSome_map ..).trans (isSome_closeSegments hmap)
  · exact (Option.isSome_map ..).trans (isSome_closeSegments hmap)

/-- A file below the base that is accepted has a pattern, and names that are below those of the
base. -/
theorem isBelow_of_isBelow (hbase : files.HasBase) (hnames : ∀ name ∈ names, Disk.IsPlain name)
    (hne : names ≠ []) (haccepts : files.accepts (RouteTable.fileSpecifier names) = true)
    (h : files.isBelow (RouteTable.fileSpecifier names) = true) :
    (files.pattern? (RouteTable.fileSpecifier names)).isSome = true ∧
      Disk.isBelow names files.baseNames = true := by
  obtain ⟨rest, hrest, hsome, hmap⟩ := exists_afterBase?_of_isBelow hbase hnames hne h
  constructor
  · apply isSome_pattern? haccepts hrest
    have hkept : (Text.segments '/' rest).filter (· ≠ ['.']) = Text.segments '/' rest := by
      apply List.filter_eq_self.2
      intro a ha
      have hmem : a ∈ names.map String.toList := by
        rw [hmap]
        exact List.mem_append_right _ ha
      obtain ⟨name, hname, rfl⟩ := List.mem_map.1 hmem
      apply decide_eq_true
      exact fun hdot => (hnames name hname).ne_dot (String.toList_inj.1 hdot)
    rwa [hkept]
  · rw [Disk.isBelow_iff]
    constructor
    · rintro rfl
      exact hsome (List.self_eq_append_right.1 hmap)
    · have hprefix : files.baseNames.map String.toList <+: names.map String.toList :=
        ⟨_, hmap.symm⟩
      have htake := hprefix.map String.ofList
      rwa [map_ofList_map_toList, map_ofList_map_toList] at htake

end

end RouteFiles

namespace RouteTable

/-! ## Routes on a disk -/

/-- Files with the same specifier have the same names. -/
theorem fileSpecifier_inj {key key' : String}
    (h : fileSpecifier (Disk.namesOf key) = fileSpecifier (Disk.namesOf key')) :
    Disk.namesOf key = Disk.namesOf key' := by
  have hlist := congrArg String.toList h
  unfold fileSpecifier at hlist
  rw [String.toList_append, String.toList_append] at hlist
  exact Disk.namesOf_inj (String.toList_injective (List.append_cancel_left hlist))

/-- Files without a pattern leave no trace in a table. -/
theorem ofFiles_filter (files : RouteFiles) {p : String → Bool}
    (hp : ∀ name, (files.pattern? name).isSome = true → p name = true) (names : List String) :
    ofFiles files (names.filter p) = ofFiles files names := by
  have hroutes : compileAll files (names.filter p) = compileAll files names := by
    unfold compileAll
    rw [List.filterMap_filter]
    congr 1
    funext name
    split
    · rfl
    · rename_i hout
      cases hpattern : files.pattern? name with
      | none => rfl
      | some pattern => exact absurd (hp name (hpattern ▸ rfl)) hout
  rw [ofFiles, hroutes, ofFiles]

/-- Nor do files that are not accepted. -/
theorem ofFiles_filter_accepts (files : RouteFiles) (names : List String) :
    ofFiles files (names.filter files.accepts) = ofFiles files names := by
  refine ofFiles_filter files (fun name hpattern => ?_) names
  obtain ⟨pattern, hpattern⟩ := Option.isSome_iff_exists.1 hpattern
  exact RouteFiles.accepts_of_pattern? hpattern

/-- The table of a tree is that of the files below the base. -/
theorem scan_eq_ofFiles {files : RouteFiles} {d : Disk} (hbase : files.HasBase) (hd : d.IsTree) :
    scan files d = ofFiles files ((d.filesBelow files.baseNames).map fileSpecifier) := by
  unfold scan
  split
  · rename_i names hlookup
    have hdirectory : d.directoryAt? (d.pathOf (Disk.keyOf files.baseNames)) =
        some (some names) := by
      rw [Disk.directoryAt?, ← hbase.relative, hlookup]
    rw [Option.some.inj (Disk.eq_of_directoryAt?_pathOf hbase.plain hdirectory)]
  · rename_i hnowhere
    have hnone : d.filesBelow files.baseNames = [] := by
      rw [List.eq_nil_iff_forall_not_mem]
      intro names hnames
      obtain ⟨key, content, hentry, -, hbelow⟩ := Disk.mem_filesBelow.1 hnames
      have hlookup := hd.lookup_directory hentry hbelow
      rw [← hbase.relative] at hlookup
      exact hnowhere _ hlookup
    rw [hnone, List.map_nil]
    simp [ofFiles, compileAll, inOrder, markNesting, empty]

/-- A route of the table that is found on a disk is a file there. -/
theorem exists_file_of_mem_routes {config : Option RoutesConfig} {d : Disk}
    {table : RouteTable} (htable : load config d = .ok table) {r : Route}
    (hr : r ∈ table.routes) :
    ∃ key content, d.entries.get? key = some (.file content) ∧
      r.filename = fileSpecifier (Disk.namesOf key) := by
  rcases load_eq_ok_iff.1 htable with ⟨-, rfl⟩ | ⟨c, files, -, -, rfl⟩
  · nomatch hr
  · unfold scan at hr
    split at hr
    · obtain ⟨hname, -⟩ := mem_routes_ofFiles.1 ⟨r, hr, rfl⟩
      obtain ⟨names, hnames, hfile⟩ := List.mem_map.1 hname
      obtain ⟨key, content, hentry, rfl, -⟩ := Disk.mem_filesBelow.1 hnames
      exact ⟨key, content, hentry, hfile.symm⟩
    · nomatch hr

end RouteTable

end Waymark
