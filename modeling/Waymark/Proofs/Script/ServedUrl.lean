import Waymark.Graph
import Waymark.Proofs.Specifier.RequestPath
import Waymark.Proofs.Text.Digits
import Waymark.Request
import Waymark.Script.Rewrite
/-!
# Imports are served as they are written

A static import of a local module is rewritten to a URL.  When the browser asks for
that URL, the server must come to the very module that was meant, must know that a
style sheet is wanted as a script, and must have put the version of that module into
the URL.  Four things that are written apart have to fit together for this: the way
imports are resolved, the escaping of paths, the query that is put together, and the
reading of requests.

The version in the URL is the one the graph has for the module.  A module that imports
itself carries the initial version, since its own version is only known once it has been
compiled.

## Main results

* `getD_versionsExcept` — the token that a compiler puts into a URL.
* `parse_servedQuery`, `values_servedQuery` — what is read from the parts of a URL.
* `isCanonical_of_resolveTarget` — what a local module means, unless remote, is canonical.
* `compile_writes_url` — all of it, for the URL that stands in the compiled text.
-/

namespace Waymark

/-! ## Tokens -/

/-- What is not a hexadecimal digit does not stand in a token. -/
theorem Version.notMem_token {c : Char} (h : ∀ d < 16, Nat.digitChar d ≠ c) (v : Version) :
    c ∉ v.token.toList := by
  intro hmem
  rw [Version.token, String.toList_ofList] at hmem
  obtain ⟨d, hd, hc⟩ := exists_of_mem_toDigits (by decide) hmem
  exact h d hd hc.symm

/-! ## Versions handed to a compiler -/

namespace Graph

/-- The version an import of `d` carries in `importer`. -/
def servedVersion (g : Graph) (importer d : Specifier) : Version :=
  if d = importer then g.initial else g.versionOf d

theorem get?_versionsExcept (g : Graph) {importer d : Specifier}
    (hi : Specifier.isRemote importer = false) (hd : Specifier.isRemote d = false) :
    (g.versionsExcept importer).get? d =
      if d = importer then none else (g.get? d).map fun r => r.version.token := by
  rw [versionsExcept, hi, if_neg Bool.false_ne_true, Dict.get?_map, Dict.get?_filter]
  show (((g.get? d).filter fun _ => decide (d ≠ importer) && !Specifier.isRemote d).map
    fun r => r.version.token) = _
  by_cases heq : d = importer
  · simp [heq]
  · cases g.get? d with
    | none => simp
    | some r => simp [heq, hd]

theorem getD_versionsExcept (g : Graph) {importer d : Specifier}
    (hi : Specifier.isRemote importer = false) (hd : Specifier.isRemote d = false) :
    ((g.versionsExcept importer).get? d).getD g.initial.token =
      (g.servedVersion importer d).token := by
  rw [get?_versionsExcept g hi hd, servedVersion]
  split
  · rfl
  · rw [versionOf]
    cases g.get? d with
    | none => rfl
    | some r => rfl

end Graph

/-! ## Queries -/

namespace ModuleRequest

/-- The value of a query pair. -/
def pairValue (pair : List Char) : List Char := ((Text.cut '=' pair).map (·.2)).getD []

/-- The values that a query gives to a parameter. -/
def values (key query : List Char) : List (List Char) :=
  ((queryPairs query).filter (pairKey · = key)).map pairValue

theorem pairKey_append {key : List Char} (h : '=' ∉ key) (value : List Char) :
    pairKey (key ++ '=' :: value) = key := by
  rw [pairKey, Text.before, List.takeWhile_append_of_pos]
  · simp
  · intro c hc
    simpa using ne_of_mem_of_not_mem hc h

theorem pairValue_append {key : List Char} (h : '=' ∉ key) (value : List Char) :
    pairValue (key ++ '=' :: value) = value := by
  rw [pairValue, Text.cut_append value h]
  rfl

/-- Pairs that are not empty are read back from a query. -/
theorem queryPairs_joinPieces {pairs : List (List Char)} (h : ∀ a ∈ pairs, '&' ∉ a)
    (hne : ∀ a ∈ pairs, a ≠ []) : queryPairs (Text.joinPieces '&' pairs) = pairs := by
  rw [queryPairs, Text.segments_joinPieces h hne]

/-- A request for what is not remote keeps no parameter. -/
theorem parse_of_local {path : String}
    (h : Specifier.isRemote (Specifier.ofRequestPath path) = false) (query : String) :
    parse path (some query) = ⟨Specifier.ofRequestPath path,
      (queryPairs query.toList).any fun pair => pairKey pair = "module".toList⟩ := by
  simp [parse, h]

end ModuleRequest

namespace Script

open ModuleRequest

/-! ## Served URLs -/

/-- The query pair that carries a version. -/
def versionPair (v : Version) : List Char := "v".toList ++ '=' :: v.token.toList

theorem pairKey_versionPair (v : Version) : pairKey (versionPair v) = "v".toList :=
  pairKey_append (by decide) _

theorem pairValue_versionPair (v : Version) : pairValue (versionPair v) = v.token.toList :=
  pairValue_append (by decide) _

theorem notMem_versionPair (v : Version) : '&' ∉ versionPair v := by
  intro h
  rcases List.mem_append.1 h with h | h
  · exact absurd h (by decide)
  · rcases List.mem_cons.1 h with h | h
    · exact absurd h (by decide)
    · exact Version.notMem_token (by decide) v h

/-- The query pairs in the URL of a local module: a style sheet is asked for as a script. -/
def servedPairs (d : Specifier) (v : Version) : List (List Char) :=
  (if Specifier.isStyle d then ["module".toList] else []) ++ [versionPair v]

/-- The query in the URL of a local module. -/
def servedQuery (d : Specifier) (v : Version) : List Char :=
  Text.joinPieces '&' (servedPairs d v)

theorem mem_servedPairs {d : Specifier} {v : Version} {a : List Char}
    (h : a ∈ servedPairs d v) : a = "module".toList ∨ a = versionPair v := by
  rcases List.mem_append.1 h with h | h
  · split at h
    · exact Or.inl (List.mem_singleton.1 h)
    · nomatch h
  · exact Or.inr (List.mem_singleton.1 h)

theorem queryPairs_servedQuery (d : Specifier) (v : Version) :
    queryPairs (servedQuery d v) = servedPairs d v := by
  apply queryPairs_joinPieces
  · intro a ha
    rcases mem_servedPairs ha with rfl | rfl
    · decide
    · exact notMem_versionPair v
  · intro a ha
    rcases mem_servedPairs ha with rfl | rfl
    · decide
    · exact List.cons_ne_nil _ _

theorem values_servedQuery (d : Specifier) (v : Version) :
    values "v".toList (servedQuery d v) = [v.token.toList] := by
  have hmodule : ¬decide (pairKey "module".toList = "v".toList) = true := by decide
  have hversion : [versionPair v].filter (pairKey · = "v".toList) = [versionPair v] :=
    List.filter_eq_self.2 fun a ha => by
      rw [List.mem_singleton.1 ha, pairKey_versionPair, decide_eq_true rfl]
  have hpairs : (servedPairs d v).filter (pairKey · = "v".toList) = [versionPair v] := by
    rw [servedPairs, List.filter_append, hversion]
    cases Specifier.isStyle d with
    | true => exact congrArg (· ++ [versionPair v]) (List.filter_cons_of_neg hmodule)
    | false => rfl
  rw [values, queryPairs_servedQuery, hpairs, List.map_cons, pairValue_versionPair, List.map_nil]

theorem any_servedPairs (d : Specifier) (v : Version) :
    ((servedPairs d v).any fun pair => pairKey pair = "module".toList) = Specifier.isStyle d := by
  have hmodule : pairKey "module".toList = "module".toList := by decide
  have hversion : pairKey (versionPair v) ≠ "module".toList := by
    rw [pairKey_versionPair]
    decide
  rw [servedPairs, List.any_append, List.any_cons, List.any_nil, decide_eq_false hversion]
  cases Specifier.isStyle d with
  | true => rfl
  | false => rfl

theorem parse_servedQuery {d : Specifier} (h : Specifier.IsCanonical d)
    (hmount : ¬Specifier.mountPrefix <+: d.toList) (v : Version) :
    parse (Specifier.encodePath (Specifier.urlPath d))
      (some (String.ofList (servedQuery d v))) = ⟨d, Specifier.isStyle d⟩ := by
  have hpath := Specifier.ofRequestPath_encodePath h hmount
  have hlocal : Specifier.isRemote
      (Specifier.ofRequestPath (Specifier.encodePath (Specifier.urlPath d))) = false := by
    rw [hpath]
    exact h.isRemote
  rw [parse_of_local hlocal, hpath, String.toList_ofList, queryPairs_servedQuery, any_servedPairs]

/-- The URL of a local module: its escaped path, and the query that carries its version. -/
theorem toList_servedUrl {options : Options} {d : Specifier} {v : Version}
    (hd : Specifier.isRemote d = false)
    (hv : (options.versions.get? d).getD options.baseline.token = v.token) :
    (servedUrl options d).toList =
      (Specifier.encodePath (Specifier.urlPath d)).toList ++ '?' :: servedQuery d v := by
  rw [servedUrl, hd, if_neg Bool.false_ne_true]
  show (_ ++ _ ++ (options.versions.get? d).getD options.baseline.token).toList = _
  rw [hv, servedQuery, servedPairs, String.toList_append, String.toList_append, List.append_assoc]
  cases Specifier.isStyle d with
  | true => rfl
  | false => rfl

/-! ## What an import means -/

theorem isCanonical_of_resolveTarget {importer d : Specifier} {target : String}
    (hi : Specifier.isRemote importer = false) (hd : Specifier.isRemote d = false)
    (h : resolveTarget importer target = some d) : Specifier.IsCanonical d := by
  unfold resolveTarget at h
  split at h
  · rename_i hremote
    obtain rfl := Option.some.inj h
    rw [hd] at hremote
    nomatch hremote
  · split at h
    · obtain ⟨path, hpath⟩ := resolvePath_local target hi
      exact ⟨path, (Option.some.inj (hpath.symm.trans h)).symm⟩
    · nomatch h

/-! ## Compiled text -/

/-- What is written for a piece of a module. -/
def rewritePiece (options : Options) (importer : Specifier) : Piece → List Char
  | .char c => [c]
  | .mention m => rewriteMention options importer m

theorem toList_code_compile (options : Options) (importer : Specifier) (source : String) :
    (compile options importer source).code.toList =
      (scan (dropTypeImports source.toList)).flatMap (rewritePiece options importer) := by
  rw [compile, String.toList_ofList, replaceMentions]
  congr 1

/-- Every static import in a local module of what is local again, and not in the mount of remote
modules, becomes a URL that is read as a request for what was meant, as a script exactly if that
is a style sheet, with the version of the very record that the request will come to. -/
theorem compile_writes_url (g : Graph) {importer : Specifier} {options : Options}
    (hbaseline : options.baseline = g.initial)
    (hversions : options.versions = g.versionsExcept importer)
    (hi : Specifier.isRemote importer = false) {source : String} {before after : List Piece}
    {m : Mention} {d : Specifier}
    (hscan : scan (dropTypeImports source.toList) = before ++ .mention m :: after)
    (hstatic : m.isDynamic = false) (hmeans : resolveMention options importer m = some d)
    (hd : Specifier.isRemote d = false) (hmount : ¬Specifier.mountPrefix <+: d.toList) :
    ∃ url path query,
      (compile options importer source).code.toList =
        before.flatMap (rewritePiece options importer) ++ m.withSpecifier url ++
          after.flatMap (rewritePiece options importer) ∧
      Text.cut '?' url = some (path, query) ∧
      parse (String.ofList path) (some (String.ofList query)) = ⟨d, Specifier.isStyle d⟩ ∧
      values "v".toList query = [(g.servedVersion importer d).token.toList] := by
  have hcanonical : Specifier.IsCanonical d := isCanonical_of_resolveTarget hi hd hmeans
  have htoken : (options.versions.get? d).getD options.baseline.token =
      (g.servedVersion importer d).token := by
    rw [hbaseline, hversions, Graph.getD_versionsExcept g hi hd]
  have hurl := toList_servedUrl hd htoken
  refine ⟨(servedUrl options d).toList,
    (Specifier.encodePath (Specifier.urlPath d)).toList,
    servedQuery d (g.servedVersion importer d), ?_, ?_, ?_, ?_⟩
  · rw [toList_code_compile, hscan, List.flatMap_append, List.flatMap_cons, List.append_assoc]
    have hpiece : rewritePiece options importer (.mention m) =
        m.withSpecifier (servedUrl options d).toList := by
      simp only [rewritePiece, rewriteMention, hmeans, hstatic, Bool.false_eq_true, if_false]
    rw [hpiece]
  · rw [hurl]
    exact Text.cut_append _ (Specifier.notMem_encodePath _)
  · rw [String.ofList_toList]
    exact parse_servedQuery hcanonical hmount _
  · exact values_servedQuery d _

/-- A sheet with a blank and a letter beyond ASCII in its name. -/
theorem compile_writes_url_style :
    let g := (Graph.new 10).mark 12 "./a/bleu é.css" [] none
    let options : Options := ⟨true, ImportMap.empty, g.initial, g.versionsExcept "./a/b.js"⟩
    ∃ url path query,
      (compile options "./a/b.js" "import './bleu é.css';").code.toList =
        [].flatMap (rewritePiece options "./a/b.js") ++
          Mention.withSpecifier ⟨"import ".toList, '\'', "./bleu é.css".toList, '\''⟩ url ++
          [.char ';'].flatMap (rewritePiece options "./a/b.js") ∧
      Text.cut '?' url = some (path, query) ∧
      parse (String.ofList path) (some (String.ofList query)) =
        ⟨"./a/bleu é.css", Specifier.isStyle "./a/bleu é.css"⟩ ∧
      values "v".toList query =
        [(g.servedVersion "./a/b.js" "./a/bleu é.css").token.toList] := by
  exact compile_writes_url ((Graph.new 10).mark 12 "./a/bleu é.css" [] none) rfl rfl
    (by decide +kernel) (by decide +kernel) (by decide +kernel) (by decide +kernel)
    (by decide +kernel) (by decide +kernel)

end Script
end Waymark
