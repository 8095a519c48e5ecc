import Waymark.Proofs.App.Verdict
import Waymark.Proofs.Build.Followed
import Waymark.Proofs.Script.ServedUrl
import Waymark.Proofs.Specifier.Mounted
/-!
# What is imported is what is asked for

A static import of a module is rewritten to a URL.  The walk asks for the same module
under a URL that it puts together by itself, from the dependency that was recorded.  The
built app is whole if the server reads one request from both: the file that is written
for the one is then the file that is fetched for the other.

The two agree on all remote modules but style sheets, whatever their query, and on all
local modules without a query.  A local sheet is marked as wanted as a script in both
URLs.  A remote one is marked only by the walk: what is imported is then the sheet
itself, and what is asked for is the script made of it.  The query of a local module is
escaped with its path in the one URL and cut off in the other.

## Main results

* `App.ofUrl_requestPath` — what the walk asks for is what is read from its URL.
* `ofUrl_servedUrl`, `ofUrl_requestPath_local` — what is read from the URLs of local modules.
* `ofUrl_remoteSheet` — what is read from those of a remote sheet.
* `imports_are_asked` — where the request for an import is the request of the walk.
* `remoteSheet_is_not_asked` — a remote sheet is imported as another module than is asked for.
-/

namespace Waymark

/-! ## Requests as they are read -/

/-- What the module server reads from a URL below its root.  A fragment is not sent. -/
def ModuleRequest.ofUrl (url : String) : ModuleRequest :=
  let text := Text.before '#' url.toList
  match Text.cut '?' text with
  | some (path, query) => ModuleRequest.parse (String.ofList path) (some (String.ofList query))
  | none => ModuleRequest.parse (String.ofList text) none

namespace ModuleRequest

theorem before_eq_self {c : Char} {s : List Char} (h : c ∉ s) : Text.before c s = s := by
  apply List.takeWhile_eq_self_iff.2
  intro d hd
  exact decide_eq_true fun heq => h (heq ▸ hd)

theorem before_append {c : Char} {s : List Char} (h : c ∉ s) (t : List Char) :
    Text.before c (s ++ t) = s ++ Text.before c t := by
  apply List.takeWhile_append_of_pos
  intro d hd
  exact decide_eq_true fun heq => h (heq ▸ hd)

theorem ofUrl_path {path : List Char} (hmark : '?' ∉ path) (hhash : '#' ∉ path) :
    ofUrl (String.ofList path) = parse (String.ofList path) none := by
  rw [ofUrl, String.toList_ofList, before_eq_self hhash, Text.cut_eq_none_iff.2 hmark]

theorem ofUrl_query {path : List Char} (hmark : '?' ∉ path) (hhash : '#' ∉ path)
    (query : List Char) : ofUrl (String.ofList (path ++ '?' :: query)) =
      parse (String.ofList path) (some (String.ofList (Text.before '#' query))) := by
  have hbefore : Text.before '#' (path ++ '?' :: query) = path ++ '?' :: Text.before '#' query := by
    rw [before_append hhash]
    rfl
  rw [ofUrl, String.toList_ofList, hbefore, Text.cut_append _ hmark]

theorem parse_none (path : String) : parse path none = ⟨Specifier.ofRequestPath path, false⟩ := by
  have hpairs : queryPairs ((none.map String.toList : Option (List Char)).getD []) = [] := by decide
  unfold parse
  rw [hpairs]
  simp

/-- A request with no other parameters than those the server reads itself. -/
theorem parse_of_consumed {path : String} {query : List Char}
    (h : ∀ pair ∈ queryPairs query, isConsumed pair = true) :
    parse path (some (String.ofList query)) = ⟨Specifier.ofRequestPath path,
      (queryPairs query).any fun pair => pairKey pair = "module".toList⟩ := by
  have hpassed : (queryPairs query).filter (!isConsumed ·) = [] := by
    apply List.filter_eq_nil_iff.2
    intro pair hpair
    rw [h pair hpair]
    decide
  unfold parse
  simp [hpassed]

/-- The query that asks for a sheet as a script. -/
def moduleQuery : List Char := "module".toList

theorem ofUrl_module {path : List Char} (hmark : '?' ∉ path) (hhash : '#' ∉ path) :
    ofUrl (String.ofList (path ++ '?' :: moduleQuery)) =
      ⟨Specifier.ofRequestPath (String.ofList path), true⟩ := by
  have hbefore : Text.before '#' moduleQuery = moduleQuery := before_eq_self (by decide)
  rw [ofUrl_query hmark hhash, hbefore, parse_of_consumed (by decide)]
  rfl

theorem ofUrl_of_readPath {url : String} {rest : List Char} {uri : Uri}
    (hurl : url.toList = '/' :: rest) (h : Uri.readPath "" "" "/" ('/' :: rest) = .ok uri) :
    ofUrl url = parse uri.path uri.query := by
  have hbefore : Text.before '#' ('/' :: rest) = '/' :: Text.before '#' rest := rfl
  unfold Uri.readPath at h
  rw [ofUrl, hurl]
  rw [hbefore] at h ⊢
  dsimp only at h
  cases hcut : Text.cut '?' ('/' :: Text.before '#' rest) with
  | none =>
    rw [hcut] at h
    dsimp only at h
    split at h
    · obtain rfl := Except.ok.inj h
      rfl
    · nomatch h
  | some halves =>
    obtain ⟨path, query⟩ := halves
    rw [hcut] at h
    dsimp only at h
    have hne : path ≠ [] := by
      rintro rfl
      obtain ⟨hmark, -⟩ := List.cons.inj (Text.eq_of_cut hcut)
      exact absurd hmark (by decide)
    split at h
    · obtain rfl := Except.ok.inj h
      rfl
    · nomatch h

end ModuleRequest

/-- What the walk asks for is what its URL is read as. -/
theorem App.ofUrl_requestPath {s : Specifier} {r : ModuleRequest} (h : App.requestOf? s = some r) :
    ModuleRequest.ofUrl (Specifier.requestPath s) = r := by
  obtain ⟨rest, hrest⟩ := Specifier.exists_requestPath s
  unfold App.requestOf? at h
  split at h
  · rename_i uri huri
    split at h
    · nomatch h
    · obtain rfl := Option.some.inj h
      unfold Uri.parse at huri
      split at huri
      · nomatch huri
      · rw [hrest] at huri
        exact ModuleRequest.ofUrl_of_readPath hrest huri
  · nomatch h

namespace Build

open ModuleRequest Script

/-! ## Local modules -/

theorem notMem_encodePath_hash (path : String) : '#' ∉ (Specifier.encodePath path).toList := by
  rw [Specifier.encodePath, String.toList_ofList]
  exact Percent.notMem_encodeWith (by decide) (by decide) (by decide) path.toList

theorem notMem_servedQuery (d : Specifier) (v : Version) : '#' ∉ servedQuery d v := by
  intro hmem
  rcases Text.mem_of_mem_joinPieces hmem with heq | ⟨pair, hpair, hmem⟩
  · exact absurd heq (by decide)
  · rcases mem_servedPairs hpair with rfl | rfl
    · exact absurd hmem (by decide)
    · rcases List.mem_append.1 hmem with hmem | hmem
      · exact absurd hmem (by decide)
      · rcases List.mem_cons.1 hmem with hmem | hmem
        · exact absurd hmem (by decide)
        · exact Version.notMem_token (by decide) v hmem

theorem isConsumed_of_mem_servedPairs {d : Specifier} {v : Version} {pair : List Char}
    (h : pair ∈ servedPairs d v) : isConsumed pair = true := by
  rcases mem_servedPairs h with rfl | rfl
  · decide
  · rw [isConsumed, pairKey_versionPair]
    decide

/-- What is read from the URL that a local module is imported from. -/
theorem ofUrl_servedUrl {options : Options} {d : Specifier} {v : Version}
    (hd : Specifier.isRemote d = false)
    (hv : (options.versions.get? d).getD options.baseline.token = v.token) :
    ofUrl (servedUrl options d) =
      ⟨Specifier.ofRequestPath (Specifier.encodePath (Specifier.urlPath d)),
        Specifier.isStyle d⟩ := by
  have hurl : servedUrl options d = String.ofList
      ((Specifier.encodePath (Specifier.urlPath d)).toList ++ '?' :: servedQuery d v) := by
    rw [← toList_servedUrl hd hv, String.ofList_toList]
  have hpairs : ∀ pair ∈ queryPairs (servedQuery d v), isConsumed pair = true := by
    rw [queryPairs_servedQuery]
    exact fun pair hpair => isConsumed_of_mem_servedPairs hpair
  rw [hurl, ofUrl_query (Specifier.notMem_encodePath _) (notMem_encodePath_hash _),
    before_eq_self (notMem_servedQuery d v), parse_of_consumed hpairs, queryPairs_servedQuery,
    any_servedPairs, String.ofList_toList]

theorem toList_urlPath_append {d : Specifier} (hne : d ≠ "") (hdot : d ≠ ".") (t : List Char) :
    (Specifier.urlPath (d ++ String.ofList t)).toList = (Specifier.urlPath d).toList ++ t := by
  have hlist {s : List Char} (h : d ≠ String.ofList s) : d.toList ≠ s := by
    rintro rfl
    exact h String.ofList_toList.symm
  have hnil : d.toList ≠ [] := hlist hne
  have hsingle : d.toList ≠ ['.'] := hlist hdot
  rw [Specifier.urlPath, Specifier.urlPath, String.toList_append, String.toList_ofList]
  cases hd : d.toList with
  | nil => exact absurd hd hnil
  | cons c rest =>
    by_cases hc : c = '.'
    · subst hc
      cases rest with
      | nil => exact absurd hd hsingle
      | cons e rest =>
        by_cases he : e = '/'
        · subst he
          simp
        · simp [he]
    · by_cases hslash : c = '/'
      · subst hslash
        simp
      · simp [hc, hslash]

theorem isRemote_followed (d : Specifier) :
    Specifier.isRemote (followed d) = Specifier.isRemote d := by
  unfold followed
  split
  · exact Specifier.isRemote_append d moduleQuery
  · rfl

/-- What is read from the request of the walk for a local module without a query. -/
theorem ofUrl_requestPath_local {d : Specifier} (hd : Specifier.isRemote d = false)
    (hmark : '?' ∉ (Specifier.urlPath d).toList) :
    ofUrl (Specifier.requestPath (followed d)) =
      ⟨Specifier.ofRequestPath (Specifier.encodePath (Specifier.urlPath d)),
        Specifier.isStyle d⟩ := by
  have hremote := isRemote_followed d
  rw [hd] at hremote
  unfold Specifier.requestPath
  rw [hremote, if_neg Bool.false_ne_true]
  unfold followed
  cases hstyle : Specifier.isStyle d with
  | false =>
    rw [if_neg Bool.false_ne_true, Text.cut_eq_none_iff.2 hmark]
    dsimp only
    rw [← String.ofList_toList (s := Specifier.encodePath (Specifier.urlPath d)),
      ofUrl_path (Specifier.notMem_encodePath _) (notMem_encodePath_hash _), parse_none]
  | true =>
    have hne : d ≠ "" := by
      rintro rfl
      exact absurd hstyle (by decide)
    have hdot : d ≠ "." := by
      rintro rfl
      exact absurd hstyle (by decide)
    have hpath : (Specifier.urlPath (d ++ "?module")).toList =
        (Specifier.urlPath d).toList ++ '?' :: moduleQuery :=
      toList_urlPath_append hne hdot ('?' :: moduleQuery)
    rw [if_pos rfl, hpath, Text.cut_append _ hmark]
    dsimp only
    have hurl : Specifier.encodePath (String.ofList (Specifier.urlPath d).toList) ++
        String.ofList ('?' :: moduleQuery) =
          String.ofList ((Specifier.encodePath (Specifier.urlPath d)).toList ++
            '?' :: moduleQuery) := by
      rw [String.ofList_append, String.ofList_toList, String.ofList_toList]
    rw [hurl, ofUrl_module (Specifier.notMem_encodePath _) (notMem_encodePath_hash _),
      String.ofList_toList]

/-- The request of the walk has the path of the module, up to its query. -/
theorem cut_urlPath_followed {d : Specifier} (hmark : '?' ∈ d.toList) {path query : List Char}
    (hcut : Text.cut '?' (Specifier.urlPath d).toList = some (path, query)) :
    ∃ more, Text.cut '?' (Specifier.urlPath (followed d)).toList = some (path, more) := by
  unfold followed
  split
  · have hne : d ≠ "" := by
      rintro rfl
      nomatch hmark
    have hdot : d ≠ "." := by
      rintro rfl
      exact absurd hmark (by decide)
    refine ⟨query ++ '?' :: moduleQuery, ?_⟩
    rw [show d ++ "?module" = d ++ String.ofList ('?' :: moduleQuery) from rfl,
      toList_urlPath_append hne hdot, Text.eq_of_cut hcut, List.append_assoc]
    exact Text.cut_append _ (Text.notMem_of_cut hcut)
  · exact ⟨query, hcut⟩

/-- What stands before the query of a local module is not in the mount of remote modules either. -/
theorem ofRequestPath_before_query {d : Specifier} (hd : Specifier.IsCanonical d)
    (hmount : ¬Specifier.mountPrefix <+: d.toList) {path query : List Char}
    (hwhole : (Specifier.urlPath d).toList = path ++ '?' :: query) :
    Specifier.ofRequestPath (Specifier.encodePath (String.ofList path)) =
      "." ++ Specifier.clean (String.ofList path) := by
  have houtside : ¬Specifier.mountPoint <+: (String.ofList path).toList := by
    rw [String.toList_ofList]
    rintro ⟨t, rfl⟩
    apply hmount
    rw [hd.toList_urlPath, hwhole]
    exact ⟨t ++ '?' :: query, by simp [Specifier.mountPrefix]⟩
  rw [Specifier.ofRequestPath, Specifier.isPrefixOf?_mountPoint_encodePath houtside,
    Specifier.decodePath_encodePath]

/-- The query of a local module is cut off in the request of the walk. -/
theorem notMem_specifier_requestPath {d : Specifier} (hd : Specifier.IsCanonical d)
    (hmark : '?' ∈ d.toList) (hmount : ¬Specifier.mountPrefix <+: d.toList) :
    '?' ∉ (ofUrl (Specifier.requestPath (followed d))).specifier.toList := by
  have hremote := isRemote_followed d
  rw [hd.isRemote] at hremote
  have hpath : '?' ∈ (Specifier.urlPath d).toList := by
    rw [hd.toList_urlPath] at hmark
    rcases List.mem_cons.1 hmark with heq | hmem
    · exact absurd heq (by decide)
    · exact hmem
  cases hcut : Text.cut '?' (Specifier.urlPath d).toList with
  | none => exact absurd hpath (Text.cut_eq_none_iff.1 hcut)
  | some halves =>
    obtain ⟨path, query⟩ := halves
    obtain ⟨more, hmore⟩ := cut_urlPath_followed hmark hcut
    have hspecifier := ofRequestPath_before_query hd hmount (Text.eq_of_cut hcut)
    have hlocal : Specifier.isRemote
        (Specifier.ofRequestPath (Specifier.encodePath (String.ofList path))) = false := by
      rw [hspecifier]
      exact Specifier.IsCanonical.isRemote ⟨_, rfl⟩
    unfold Specifier.requestPath
    rw [hremote, if_neg Bool.false_ne_true, hmore]
    dsimp only
    have hurl : Specifier.encodePath (String.ofList path) ++ String.ofList ('?' :: more) =
        String.ofList ((Specifier.encodePath (String.ofList path)).toList ++ '?' :: more) := by
      rw [String.ofList_append, String.ofList_toList]
    rw [hurl, ofUrl_query (Specifier.notMem_encodePath _) (notMem_encodePath_hash _),
      String.ofList_toList, parse_of_local hlocal]
    dsimp only
    rw [hspecifier, String.toList_append, List.mem_append, not_or]
    refine ⟨by decide, Specifier.notMem_clean (by decide) ?_⟩
    rw [String.toList_ofList]
    exact Text.notMem_of_cut hcut

/-! ## Remote sheets -/

/-- What is read from the URL that a remote sheet is imported from, and from the request of the
walk for it. -/
theorem ofUrl_remoteSheet (options : Options) {d : Specifier} (hd : Specifier.isRemote d = true)
    (hstyle : Specifier.isStyle d = true) (hmark : '?' ∉ d.toList) (hhash : '#' ∉ d.toList) :
    ∃ t, ofUrl (servedUrl options d) = ⟨t, false⟩ ∧
      ofUrl (Specifier.requestPath (followed d)) = ⟨t, true⟩ := by
  have hencoded : Percent.IsEncoded (Url.keepsInQuery true) moduleQuery := by
    unfold Percent.IsEncoded
    exact Text.forall_mem_of_all (by decide)
  have hne : moduleQuery ≠ [] := by decide
  obtain ⟨path, hpathMark, hpathHash, hpath, hquery⟩ :=
    Specifier.exists_serverPath_sheet hd hstyle hmark hhash hne hencoded
  refine ⟨Specifier.ofRequestPath (String.ofList path), ?_, ?_⟩
  · rw [servedUrl, hd, if_pos rfl, hpath, ofUrl_path hpathMark hpathHash, parse_none]
  · have hremote := isRemote_followed d
    rw [hd] at hremote
    have hfollowed : followed d = d ++ String.ofList ('?' :: moduleQuery) := by
      rw [followed, hstyle, if_pos rfl]
      rfl
    rw [Specifier.requestPath_of_isRemote hremote, hfollowed, hquery,
      ofUrl_module hpathMark hpathHash]

/-! ## Imports and requests -/

/-- Whatever the importing module is, the version that an import carries is a version. -/
theorem exists_token (g : Graph) (importer d : Specifier) :
    ∃ v : Version, ((g.versionsExcept importer).get? d).getD g.initial.token = v.token := by
  unfold Graph.versionsExcept
  split
  · exact ⟨g.initial, rfl⟩
  · rw [Dict.get?_map]
    cases (g.records.filter fun k _ => k ≠ importer && !Specifier.isRemote k).get? d with
    | none => exact ⟨g.initial, rfl⟩
    | some r => exact ⟨r.version, rfl⟩

/-- Every static import of a module that is no sheet becomes a URL, and the walk goes on to a
request for the same dependency.  The server reads one request from both, except for a remote
sheet, which is imported as it is and asked for as a script, and for a local module with a query,
of which the walk asks for what stands before the query. -/
theorem imports_are_asked (g g' : Graph) {options : Options} {s : Specifier}
    (hbaseline : options.baseline = g.initial)
    (hversions : options.versions = g.versionsExcept (Specifier.graphKey s))
    (hscript : Specifier.isStyle s = false) {source : String} {before after : List Piece}
    {m : Mention} {d : Specifier} {record : ModuleRecord}
    (hscan : scan (dropTypeImports source.toList) = before ++ .mention m :: after)
    (hstatic : m.isDynamic = false)
    (hmeans : resolveMention options (Specifier.graphKey s) m = some d)
    (hrecord : g'.get? (Specifier.graphKey s) = some record)
    (hdeps : record.deps = (compile options (Specifier.graphKey s) source).deps) :
    ∃ url,
      (compile options (Specifier.graphKey s) source).code.toList =
        before.flatMap (rewritePiece options (Specifier.graphKey s)) ++
          m.withSpecifier url.toList ++
            after.flatMap (rewritePiece options (Specifier.graphKey s)) ∧
      followed d ∈ nextSpecifiers g' s ∧
      (Specifier.isRemote d = true → Specifier.isStyle d = false →
        ofUrl url = ofUrl (Specifier.requestPath (followed d))) ∧
      (Specifier.isRemote d = false → '?' ∉ d.toList →
        ofUrl url = ofUrl (Specifier.requestPath (followed d))) ∧
      (Specifier.isRemote d = true → Specifier.isStyle d = true → '?' ∉ d.toList →
        '#' ∉ d.toList → ∃ t, ofUrl url = ⟨t, false⟩ ∧
          ofUrl (Specifier.requestPath (followed d)) = ⟨t, true⟩) ∧
      (Specifier.isRemote s = false → Specifier.isRemote d = false → '?' ∈ d.toList →
        ¬Specifier.mountPrefix <+: d.toList →
          (ofUrl url).specifier ≠ (ofUrl (Specifier.requestPath (followed d))).specifier) := by
  obtain ⟨v, hv⟩ := exists_token g (Specifier.graphKey s) d
  rw [← hbaseline, ← hversions] at hv
  refine ⟨servedUrl options d, ?_, ?_, ?_, ?_, ?_, ?_⟩
  · have hpiece : rewritePiece options (Specifier.graphKey s) (.mention m) =
        m.withSpecifier (servedUrl options d).toList := by
      simp only [rewritePiece, rewriteMention, hmeans, hstatic, Bool.false_eq_true, if_false]
    rw [toList_code_compile, hscan, List.flatMap_append, List.flatMap_cons, hpiece,
      List.append_assoc]
  · apply followed_mem_nextSpecifiers hscript hrecord
    rw [hdeps, mem_deps_compile]
    refine ⟨m, ?_, hmeans⟩
    rw [mentions, hscan]
    simp [Piece.mention?]
  · intro hd hstyle
    rw [followed, hstyle, if_neg Bool.false_ne_true, Specifier.requestPath_of_isRemote hd, servedUrl,
      hd, if_pos rfl]
  · intro hd hmark
    have hpath : '?' ∉ (Specifier.urlPath d).toList := Specifier.notMem_urlPath (by decide) hmark
    rw [ofUrl_servedUrl hd hv, ofUrl_requestPath_local hd hpath]
  · intro hd hstyle hmark hhash
    exact ofUrl_remoteSheet options hd hstyle hmark hhash
  · intro hs hd hmark hmount heq
    have hkey : Specifier.isRemote (Specifier.graphKey s) = false := by
      rw [Specifier.isRemote_graphKey, hs]
    have hcanonical : Specifier.IsCanonical d := isCanonical_of_resolveTarget hkey hd hmeans
    have hmark' := notMem_specifier_requestPath hcanonical hmark hmount
    rw [← heq, ofUrl_servedUrl hd hv, Specifier.ofRequestPath_encodePath hcanonical hmount] at hmark'
    exact hmark' hmark

/-- A local sheet is asked for as it is imported. -/
theorem imports_are_asked_sheet :
    let g := (Graph.new 10).mark 12 "./a/bleu é.css" [] none
    let options : Options := ⟨true, ImportMap.empty, g.initial, g.versionsExcept "./a/b.js"⟩
    ∃ url,
      (compile options "./a/b.js" "import './bleu é.css';").code.toList =
        [].flatMap (rewritePiece options "./a/b.js") ++
          Mention.withSpecifier ⟨"import ".toList, '\'', "./bleu é.css".toList, '\''⟩ url.toList ++
          [.char ';'].flatMap (rewritePiece options "./a/b.js") ∧
      followed "./a/bleu é.css" ∈
        nextSpecifiers (g.mark 13 "./a/b.js" ["./a/bleu é.css"] none) "./a/b.js" ∧
      ofUrl url = ofUrl (Specifier.requestPath (followed "./a/bleu é.css")) := by
  intro g options
  have hkey : Specifier.graphKey "./a/b.js" = "./a/b.js" := by decide +kernel
  have hdeps : ["./a/bleu é.css"] = (compile options "./a/b.js" "import './bleu é.css';").deps := by
    decide +kernel
  have hrecord : (g.mark 13 "./a/b.js" ["./a/bleu é.css"] none).get?
      (Specifier.graphKey "./a/b.js") =
        some ⟨"./a/b.js", g.nextVersion 13, ["./a/bleu é.css"], none⟩ := by
    rw [hkey]
    exact Graph.get?_mark_self ..
  have hversions : options.versions = g.versionsExcept (Specifier.graphKey "./a/b.js") := by
    rw [hkey]
  have hscan : scan (dropTypeImports "import './bleu é.css';".toList) =
      [] ++ .mention ⟨"import ".toList, '\'', "./bleu é.css".toList, '\''⟩ :: [.char ';'] := by
    decide +kernel
  have hmeans : resolveMention options (Specifier.graphKey "./a/b.js")
      ⟨"import ".toList, '\'', "./bleu é.css".toList, '\''⟩ = some "./a/bleu é.css" := by
    decide +kernel
  obtain ⟨url, hcode, hnext, -, hlocal, -⟩ :=
    imports_are_asked g (g.mark 13 "./a/b.js" ["./a/bleu é.css"] none) rfl hversions
      (by decide +kernel) hscan (by decide +kernel) hmeans hrecord (hkey.symm ▸ hdeps)
  rw [hkey] at hcode
  exact ⟨url, hcode, hnext, hlocal (by decide +kernel) (by decide +kernel)⟩

/-- A remote sheet is imported as it is, and asked for as the script that is made of it. -/
theorem remoteSheet_is_not_asked :
    compile ⟨true, ImportMap.empty, 10, Dict.empty⟩ "./app.ts" "import \"https://h/a.css\";" =
      ⟨"import \"/-/h/a.css\";", ["https://h/a.css"]⟩ ∧
    nextSpecifiers ((Graph.new 10).mark 11 "./app.ts" ["https://h/a.css"] none) "./app.ts" =
      ["https://h/a.css?module"] ∧
    ofUrl "/-/h/a.css" = ⟨"https://h/a.css", false⟩ ∧
    ofUrl (Specifier.requestPath "https://h/a.css?module") = ⟨"https://h/a.css", true⟩ := by
  refine ⟨?_, ?_, ?_, ?_⟩
  · decide +kernel
  · decide +kernel
  · decide +kernel
  · decide +kernel

end Build
end Waymark
