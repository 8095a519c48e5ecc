import Waymark.Proofs.Disk.Writing
import Waymark.Proofs.Specifier.Mounted
/-!
# The files of modules

A module is written to a file below the output directory.  Its names are those of the path
that the module is served under, without the query; a sheet that is wanted as a script and
a remote module have `.js` written behind the last one, the latter unless it ends in `.js`
already.

What is left out is what two modules with one file differ in: the query of a remote module,
empty segments of its path, and whether the extension was there before.  Local modules
without a query are told apart by their files.

## Main results

* `namesOf_savePath` — the names of the file of a module.
* `IsSite.isPlain` — they are plain names.
* `Site.file_eq_iff` — which modules have one file.
* `eq_of_file_eq` — local modules without a query do not.
-/

namespace Waymark.Specifier

/-! ## Sites -/

/-- What a file of script ends in. -/
def scriptEnding : List Char := ".js".toList

/-- Where a module is put: the names that it is served under, and whether the last one is
continued by the ending of script files. -/
structure Site where
  names : List (List Char)
  renamed : Bool
  deriving DecidableEq

/-- The names of the file, from the output directory. -/
def Site.file (p : Site) : List String :=
  (if p.renamed then Text.extendLast scriptEnding p.names else p.names).map String.ofList

/-- The site of a remote module. -/
def remoteSite (u : Url) : Site :=
  let names := ['-'] :: mountHost u :: Text.segments '/' u.path.toText
  ⟨names, !scriptEnding.isSuffixOf (names.getLast?.getD [])⟩

/-- The site of a local module with a query. -/
def localSite (path : String) (query : List Char) : Site :=
  ⟨cleanSegments path.toList, isStyle (clean path) && asksForModule query⟩

/-- The site of a module: of a remote one whose host is no dots, or of a local one with a clean
path. -/
inductive IsSite : Specifier → Site → Prop
  | remote {s : Specifier} {u : Url} (hs : isRemote s = true) (hu : Url.parse s = .ok u)
      (hdot : u.host ≠ some ['.']) (hdots : u.host ≠ some ['.', '.']) : IsSite s (remoteSite u)
  | home {path : String} {query : Option (List Char)} (hmark : '?' ∉ (clean path).toList) :
      IsSite ("." ++ clean path ++ String.ofList (Url.queryText query))
        (localSite path (query.getD []))

/-! ## Save paths -/

/-- Whether the file of a module gets another ending. -/
def isRenamed (s : Specifier) (path query : List Char) : Bool :=
  isRemote s && !scriptEnding.isSuffixOf (path.dropWhile (· = '/')) ||
    isStyle (String.ofList path) && asksForModule query

theorem savePath_eq {s : Specifier} {path : List Char} {query : Option (List Char)}
    (hmark : '?' ∉ path) (h : serverPath s = String.ofList (path ++ Url.queryText query)) :
    savePath s = String.ofList (path.dropWhile (· = '/') ++
      if isRenamed s path (query.getD []) then scriptEnding else []) := by
  have hcut : (Text.cut '?' (serverPath s).toList).getD ((serverPath s).toList, []) =
      (path, query.getD []) := by
    rw [h, String.toList_ofList, Url.cut_queryText hmark]
    cases query with
    | none =>
      show (path ++ [], []) = (path, [])
      rw [List.append_nil]
    | some query => rfl
  unfold savePath
  rw [hcut]
  unfold isRenamed isStyle scriptEnding
  dsimp only
  by_cases hremote : (isRemote s && !".js".toList.isSuffixOf (path.dropWhile (· = '/'))) = true
  · rw [if_pos hremote, hremote]
    rfl
  · rw [if_neg hremote, Bool.eq_false_iff.2 hremote, Bool.false_or]
    split
    · rfl
    · rw [List.append_nil]

/-- What a module is served under, and what its site has to do with it. -/
structure Serves (s : Specifier) (path : List Char) (query : Option (List Char)) (p : Site) :
    Prop where
  mark : '?' ∉ path
  served : serverPath s = String.ofList (path ++ Url.queryText query)
  names : Text.segments '/' path = p.names
  renamed : isRenamed s path (query.getD []) = p.renamed
  ends : p.renamed = true → path ≠ [] ∧ ∀ c ∈ path.getLast?, c ≠ '/'

section
variable {s : Specifier} {p : Site}

theorem Serves.namesOf_savePath {path : List Char} {query : Option (List Char)}
    (h : Serves s path query p) : Disk.namesOf (savePath s) = p.file := by
  rw [savePath_eq h.mark h.served, h.renamed, Disk.namesOf, String.toList_ofList, Site.file]
  cases hrenamed : p.renamed with
  | false =>
    rw [if_neg Bool.false_ne_true, if_neg Bool.false_ne_true, List.append_nil,
      Text.segments_dropWhile, h.names]
  | true =>
    obtain ⟨hne, hlast⟩ := h.ends hrenamed
    obtain ⟨hne', hlast'⟩ := Text.getLast?_dropWhile hne hlast
    rw [if_pos rfl, if_pos rfl, Text.segments_append hne' hlast' (by decide),
      Text.segments_dropWhile, h.names]

theorem Serves.isPrefixOf_savePath {path : List Char} {query : Option (List Char)}
    (h : Serves s path query p) : ['/'].isPrefixOf (savePath s).toList = false := by
  rw [savePath_eq h.mark h.served, String.toList_ofList]
  have hhead := List.head?_dropWhile_not (· = '/') path
  cases hrest : path.dropWhile (· = '/') with
  | nil =>
    split
    · rfl
    · rfl
  | cons c rest =>
    rw [hrest] at hhead
    have hc : ('/' == c) = false := by
      rw [Bool.eq_false_iff, Ne, beq_iff_eq]
      exact fun heq => of_decide_eq_false hhead heq.symm
    rw [List.cons_append, List.isPrefixOf, hc, Bool.false_and]

/-! ## Remote modules -/

theorem isWritten_of_isRemote {u : Url} (hs : isRemote s = true) (hu : Url.parse s = .ok u) :
    Url.IsWritten u := by
  obtain ⟨scheme, rest, hweb, hlist⟩ := exists_of_isRemote hs
  have hself : s = String.ofList (scheme ++ ':' :: rest) := by
    rw [← hlist, String.ofList_toList]
  have hscheme : u.scheme = scheme := Url.scheme_of_parse_web hweb (hself ▸ hu)
  exact Url.isWritten_of_parse hu (hscheme ▸ hweb)

/-- A path that is written begins with a slash, if it holds anything. -/
theorem head?_dropEndWhile_path {u : Url} (hu : Url.IsWritten u) :
    ∀ c ∈ (Text.dropEndWhile (· = '/') u.path.toText).head?, c = '/' := by
  obtain ⟨segments, hpath, hne, -⟩ := hu.path
  intro c hc
  have hprefix : Text.dropEndWhile (· = '/') u.path.toText <+: u.path.toText := by
    rw [← List.reverse_suffix, Text.dropEndWhile, List.reverse_reverse]
    exact List.dropWhile_suffix _
  obtain ⟨more, hmore⟩ := hprefix
  have hhead : u.path.toText.head? = some c := by
    rw [← hmore, List.head?_append, hc]
    rfl
  cases segments with
  | nil => exact absurd rfl hne
  | cons segment segments =>
    rw [hpath] at hhead
    exact (Option.some.inj hhead).symm

/-- The segments of a mount. -/
theorem segments_mountPath {u : Url} (hu : Url.IsWritten u) :
    Text.segments '/' (mountPath u) =
      ['-'] :: mountHost u :: Text.segments '/' u.path.toText := by
  have hpath : mountPath u = '/' :: (['-'] ++ '/' ::
      (mountHost u ++ Text.dropEndWhile (· = '/') u.path.toText)) := by
    rw [mountPath, List.append_assoc]
    rfl
  have hmark : Text.segments '/' ['-'] = [['-']] := by decide
  rw [hpath, Text.segments_cons, Text.segments_append_cons, hmark,
    Text.segments_append_of_notMem (mountHost_ne_nil hu) (notMem_mountHost hu)
      (head?_dropEndWhile_path hu),
    Text.segments_dropEndWhile]
  rfl

theorem getLast?_mountPath {u : Url} (hu : Url.IsWritten u) :
    ∀ c ∈ (mountPath u).getLast?, c ≠ '/' := by
  intro c hc
  have hend := Text.getLast?_dropEndWhile '/' u.path.toText
  rw [mountPath, List.getLast?_append] at hc
  cases hlast : (Text.dropEndWhile (· = '/') u.path.toText).getLast? with
  | some d =>
    rw [hlast] at hc hend
    obtain rfl := Option.some.inj hc
    exact hend d rfl
  | none =>
    rw [hlast, Option.none_or, List.getLast?_append] at hc
    cases hhost : (mountHost u).getLast? with
    | none => exact absurd (List.getLast?_eq_none_iff.1 hhost) (mountHost_ne_nil hu)
    | some d =>
      rw [hhost] at hc
      obtain rfl := Option.some.inj hc
      rintro rfl
      exact notMem_mountHost hu (List.mem_of_getLast? hhost)

/-- What ends in the ending of script files is no sheet. -/
theorem isStyle_eq_false {path : List Char} (hmark : '?' ∉ path) (hhash : '#' ∉ path)
    (h : scriptEnding <:+ path) : isStyle (String.ofList path) = false := by
  rw [Bool.eq_false_iff]
  intro hstyle
  have hsheet : ".css".toList <:+ path := by
    have hsuffix := suffix_of_isStyle hstyle
    rw [String.toList_ofList] at hsuffix
    exact hsuffix hmark hhash
  rcases List.suffix_or_suffix_of_suffix h hsheet with hin | hin
  · exact absurd hin (by decide)
  · exact absurd hin (by decide)

theorem exists_serves_remote {u : Url} (hs : isRemote s = true) (hu : Url.parse s = .ok u) :
    ∃ path query, Serves s path query (remoteSite u) := by
  have hwritten := isWritten_of_isRemote hs hu
  have hmark : '?' ∉ mountPath u := notMem_mountPath hwritten (by decide)
  have hhash : '#' ∉ mountPath u := notMem_mountPath hwritten (by decide)
  have hne : mountPath u ≠ [] := List.append_ne_nil_of_left_ne_nil (List.cons_ne_nil _ _) _
  have hlast := getLast?_mountPath hwritten
  refine ⟨mountPath u, u.query, hmark, ?_, segments_mountPath hwritten, ?_, fun _ => ⟨hne, hlast⟩⟩
  · rw [serverPath, hs, if_pos rfl, hu]
    exact congrArg String.ofList (mountOf_eq u)
  · obtain ⟨hne', hlast'⟩ := Text.getLast?_dropWhile hne hlast
    have hiff := Text.isSuffix_iff_segments (e := scriptEnding) hne' hlast' (by decide)
    rw [Text.segments_dropWhile, segments_mountPath hwritten] at hiff
    rw [isRenamed, remoteSite, hs, Bool.true_and]
    dsimp only
    by_cases hends : scriptEnding <:+ (mountPath u).dropWhile (· = '/')
    · have hstyle := isStyle_eq_false hmark hhash (hends.trans (List.dropWhile_suffix _))
      rw [hstyle, Bool.false_and, Bool.or_false, List.isSuffixOf_iff_suffix.2 hends,
        List.isSuffixOf_iff_suffix.2 (hiff.1 hends)]
    · have hnot {t : List Char} (h : ¬scriptEnding <:+ t) : scriptEnding.isSuffixOf t = false := by
        rw [Bool.eq_false_iff, Ne, List.isSuffixOf_iff_suffix]
        exact h
      rw [hnot hends, hnot fun h => hends (hiff.2 h)]
      rfl

/-! ## Local modules -/

theorem getLast?_clean {path : String} (hne : cleanSegments path.toList ≠ []) :
    ∀ c ∈ (clean path).toList.getLast?, c ≠ '/' := by
  intro c hc
  have hsplit := List.dropLast_concat_getLast hne
  have hlast := isCleanSegment_of_mem (List.getLast_mem hne)
  generalize (cleanSegments path.toList).getLast hne = last at hsplit hlast
  rw [toList_clean, ← hsplit, Text.joinPieces_append '/' _ (List.cons_ne_nil _ _),
    ← List.cons_append, List.getLast?_append] at hc
  have hc : c ∈ last.getLast?.or _ := hc
  cases hend : last.getLast? with
  | none => exact absurd (List.getLast?_eq_none_iff.1 hend) hlast.ne_nil
  | some d =>
    rw [hend] at hc
    obtain rfl := Option.some.inj hc
    rintro rfl
    exact absurd (hlast.noSlash _ (List.mem_of_getLast? hend)) (by decide)

theorem segments_clean (path : String) :
    Text.segments '/' (clean path).toList = cleanSegments path.toList := by
  rw [toList_clean, Text.segments_cons]
  apply Text.segments_joinPieces
  · intro a ha hmem
    exact absurd ((isCleanSegment_of_mem ha).noSlash _ hmem) (by decide)
  · exact fun a ha => (isCleanSegment_of_mem ha).ne_nil

theorem serves_home {path : String} {query : Option (List Char)}
    (hmark : '?' ∉ (clean path).toList) :
    Serves ("." ++ clean path ++ String.ofList (Url.queryText query)) (clean path).toList query
      (localSite path (query.getD [])) := by
  have hlist : ("." ++ clean path ++ String.ofList (Url.queryText query)).toList =
      '.' :: '/' :: (Text.joinPieces '/' (cleanSegments path.toList) ++ Url.queryText query) := by
    simp
  have hremote : isRemote ("." ++ clean path ++ String.ofList (Url.queryText query)) = false := by
    rw [isRemote, hlist]
    rfl
  refine ⟨hmark, ?_, segments_clean path, ?_, ?_⟩
  · rw [serverPath_of_not_isRemote hremote, urlPath, hlist, toList_clean]
    rfl
  · rw [isRenamed, hremote, Bool.false_and, Bool.false_or, String.ofList_toList, localSite]
  · intro hrenamed
    have hne : cleanSegments path.toList ≠ [] := by
      intro hnil
      have hroot : clean path = "/" := by
        rw [clean, hnil]
        rfl
      have hstyle : isStyle "/" = false := by decide
      rw [localSite, hroot, hstyle, Bool.false_and] at hrenamed
      exact Bool.false_ne_true hrenamed
    refine ⟨?_, getLast?_clean hne⟩
    rw [toList_clean]
    exact List.cons_ne_nil _ _

theorem IsSite.exists_serves (h : IsSite s p) : ∃ path query, Serves s path query p := by
  cases h with
  | remote hs hu _ _ => exact exists_serves_remote hs hu
  | home hmark => exact ⟨_, _, serves_home hmark⟩

/-! ## Files -/

/-- The names of the file of a module. -/
theorem IsSite.namesOf_savePath (h : IsSite s p) : Disk.namesOf (savePath s) = p.file := by
  obtain ⟨path, query, hserves⟩ := h.exists_serves
  exact hserves.namesOf_savePath

theorem IsSite.isPrefixOf_savePath (h : IsSite s p) :
    ['/'].isPrefixOf (savePath s).toList = false := by
  obtain ⟨path, query, hserves⟩ := h.exists_serves
  exact hserves.isPrefixOf_savePath

/-- A longer name is plain as well. -/
theorem isPlain_append {name : List Char} (hslash : '/' ∉ name) :
    Disk.IsPlain (String.ofList (name ++ scriptEnding)) := by
  have hmem : 's' ∈ name ++ scriptEnding := List.mem_append_right name (by decide)
  apply Disk.isPlain_ofList
  · exact List.append_ne_nil_of_right_ne_nil name (by decide)
  · rw [List.mem_append, not_or]
    exact ⟨hslash, by decide⟩
  · intro hdot
    rw [hdot] at hmem
    exact absurd hmem (by decide)
  · intro hdots
    rw [hdots] at hmem
    exact absurd hmem (by decide)

theorem isPlain_mountHost {u : Url} (hu : Url.IsWritten u) (hdot : u.host ≠ some ['.'])
    (hdots : u.host ≠ some ['.', '.']) : Disk.IsPlain (String.ofList (mountHost u)) := by
  -- a mark is in front of the host or behind it, or it stands alone
  have hmarked : '_' ∈ mountHost u ∨ u.host = some (mountHost u) := by
    obtain ⟨host, hhost, -⟩ := hu.host
    unfold mountHost
    cases hport : u.port with
    | some port => exact Or.inl (List.mem_append_right _ (List.mem_cons_self ..))
    | none =>
      split
      · left
        exact List.mem_append_left _ (List.mem_append_left _ (by decide))
      · right
        rw [hhost, List.append_nil, List.nil_append, Option.getD_some]
  apply Disk.isPlain_ofList (mountHost_ne_nil hu) (notMem_mountHost hu)
  · intro hdot'
    rw [hdot'] at hmarked
    exact hmarked.elim (fun hmem => absurd hmem (by decide)) hdot
  · intro hdots'
    rw [hdots'] at hmarked
    exact hmarked.elim (fun hmem => absurd hmem (by decide)) hdots

/-- The segments of a path that is written are no dots. -/
theorem isPlain_segments {u : Url} (hu : Url.IsWritten u) {name : List Char}
    (hname : name ∈ Text.segments '/' u.path.toText) : Disk.IsPlain (String.ofList name) := by
  obtain ⟨segments, hpath, hne, hsegments⟩ := hu.path
  obtain ⟨hpiece, hnonempty⟩ := List.mem_filter.1 hname
  have hsegment : Url.IsSegment name := by
    have htext : u.path.toText = '/' :: Text.joinPieces '/' segments := by
      rw [hpath]
      cases segments with
      | nil => exact absurd rfl hne
      | cons segment segments => exact (Text.cons_joinPieces '/' segment segments).symm
    have hpieces := Text.pieces_joinPieces (fun a ha => (hsegments a ha).notMem) hne
    rw [Text.pieces] at hpieces
    rw [htext, Text.pieces, Text.piecesWhere, if_pos (decide_eq_true rfl), hpieces] at hpiece
    rcases List.mem_cons.1 hpiece with rfl | hpiece
    · exact absurd hnonempty (by decide)
    · exact hsegments name hpiece
  apply Disk.isPlain_ofList (of_decide_eq_true hnonempty) hsegment.notMem
  · rintro rfl
    exact absurd hsegment.notSingle (by decide)
  · rintro rfl
    exact absurd hsegment.notDouble (by decide)

theorem IsSite.isPlain_names (h : IsSite s p) :
    ∀ name ∈ p.names, Disk.IsPlain (String.ofList name) := by
  cases h with
  | @remote s u hs hu hdot hdots =>
    have hwritten := isWritten_of_isRemote hs hu
    intro name hname
    rcases List.mem_cons.1 hname with rfl | hname
    · exact Disk.isPlain_ofList (by decide) (by decide) (by decide) (by decide)
    · rcases List.mem_cons.1 hname with rfl | hname
      · exact isPlain_mountHost hwritten hdot hdots
      · exact isPlain_segments hwritten hname
  | home hmark =>
    intro name hname
    have hclean := isCleanSegment_of_mem hname
    apply Disk.isPlain_ofList hclean.ne_nil ?_ hclean.ne_dot hclean.ne_dots
    intro hmem
    exact absurd (hclean.noSlash _ hmem) (by decide)

/-- The names of the file of a module are plain. -/
theorem IsSite.isPlain (h : IsSite s p) : ∀ name ∈ p.file, Disk.IsPlain name := by
  intro name hname
  obtain ⟨text, htext, rfl⟩ := List.mem_map.1 hname
  have hplain := h.isPlain_names
  cases hrenamed : p.renamed with
  | false =>
    rw [hrenamed, if_neg Bool.false_ne_true] at htext
    exact hplain text htext
  | true =>
    rw [hrenamed, if_pos rfl] at htext
    cases hlast : p.names.getLast? with
    | none =>
      rw [List.getLast?_eq_none_iff.1 hlast] at htext
      nomatch htext
    | some last =>
      obtain ⟨above, hnames⟩ := List.getLast?_eq_some_iff.1 hlast
      rw [hnames, Text.extendLast_concat] at htext
      rcases List.mem_append.1 htext with htext | htext
      · exact hplain text (by rw [hnames]; exact List.mem_append_left _ htext)
      · obtain rfl := List.mem_singleton.1 htext
        have hslash := (hplain last (by simp [hnames])).noSlash
        rw [String.toList_ofList] at hslash
        exact isPlain_append hslash

/-! ## Modules with one file -/

/-- The file of the one module is where the other one is, which gets no other ending. -/
def Site.Becomes (p q : Site) : Prop :=
  p.renamed = true ∧ q.renamed = false ∧ q.names = Text.extendLast scriptEnding p.names

/-- Two modules have one file if they have one site, or if the one gets an ending with which it is
called like the other one. -/
theorem Site.file_eq_iff {p q : Site} :
    p.file = q.file ↔ p = q ∨ p.Becomes q ∨ q.Becomes p := by
  obtain ⟨names, renamed⟩ := p
  obtain ⟨names', renamed'⟩ := q
  have hinj : ∀ x y : List Char, String.ofList x = String.ofList y → x = y :=
    fun _ _ => String.ofList_injective
  unfold Site.file Site.Becomes
  rw [List.map_inj_right hinj]
  cases renamed with
  | false =>
    cases renamed' with
    | false => simp
    | true => simp [eq_comm]
  | true =>
    cases renamed' with
    | false => simp [eq_comm]
    | true =>
      have hiff : Text.extendLast scriptEnding names = Text.extendLast scriptEnding names' ↔
          names = names' := ⟨Text.extendLast_inj, congrArg _⟩
      simp [hiff]

theorem asksForModule_nil : asksForModule [] = false := by decide

/-- Local modules without a query are told apart by their files. -/
theorem eq_of_file_eq {s t : Specifier} {p q : Site} (hs : isRemote s = false)
    (ht : isRemote t = false) (hsmark : '?' ∉ s.toList) (htmark : '?' ∉ t.toList)
    (hp : IsSite s p) (hq : IsSite t q) (hfile : p.file = q.file) : s = t := by
  have hhome {s : Specifier} {p : Site} (hs : isRemote s = false) (hmark : '?' ∉ s.toList)
      (hp : IsSite s p) : ∃ path, s = "." ++ clean path ∧
        p.file = (cleanSegments path.toList).map String.ofList := by
    cases hp with
    | remote hremote =>
      rw [hs] at hremote
      nomatch hremote
    | @home path query hclean =>
      cases query with
      | none =>
        refine ⟨path, String.append_empty, ?_⟩
        unfold Site.file localSite
        rw [Option.getD_none, asksForModule_nil, Bool.and_false, if_neg Bool.false_ne_true]
      | some query => exact absurd (by simp [Url.queryText]) hmark
  obtain ⟨path, rfl, hpfile⟩ := hhome hs hsmark hp
  obtain ⟨path', rfl, hqfile⟩ := hhome ht htmark hq
  have hsegments : cleanSegments path.toList = cleanSegments path'.toList := by
    rw [hpfile, hqfile] at hfile
    exact (List.map_inj_right fun _ _ => String.ofList_injective).1 hfile
  rw [clean, clean, hsegments]

end

end Waymark.Specifier
