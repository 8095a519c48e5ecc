import Waymark.App.Serve
import Waymark.Proofs.App.Opened
import Waymark.Proofs.Specifier.SavePath
/-!
# What is written stays inside

A request whose path goes up is refused.  The file that a module is written to is named
after this path, so no module that was asked for has a file outside of the output
directory.  One thing must be excepted: a text that begins like a URL but is none is
asked for as a path, and what the request leaves off of it, from the first `?` or `#` on,
may still go up in the name of the file.

## Main results

* `path_of_parse` — the path of a request is the text up to its query or fragment.
* `dots_notMem_savePath` — the file of a module that is asked for does not go up.
-/

namespace Waymark

namespace Text

/-- Something appended that holds no separator stands at the end of the last piece. -/
theorem exists_pieces_append {c : Char} (s : List Char) {e : List Char} (he : c ∉ e) :
    ∃ front b, pieces c s = front ++ [b] ∧ pieces c (s ++ e) = front ++ [b ++ e] := by
  obtain ⟨front, b, hpieces⟩ := (List.eq_nil_or_concat (pieces c s)).resolve_left
    (piecesWhere_ne_nil _ s)
  have hnone : ∀ a ∈ front ++ [b], c ∉ a := fun a ha =>
    notMem_of_mem_pieces (by rw [hpieces, List.concat_eq_append]; exact ha)
  have hjoined : s ++ e = joinPieces c (front ++ [b ++ e]) := by
    have hs := joinPieces_pieces c s
    rw [hpieces, List.concat_eq_append, joinPieces_append c front (List.cons_ne_nil b [])] at hs
    rw [joinPieces_append c front (List.cons_ne_nil (b ++ e) []), ← hs, List.append_assoc]
    rfl
  refine ⟨front, b, by rw [hpieces, List.concat_eq_append], ?_⟩
  rw [hjoined]
  refine pieces_joinPieces ?_ (by simp)
  intro a ha
  rcases List.mem_append.1 ha with ha | ha
  · exact hnone a (List.mem_append_left _ ha)
  · rw [List.mem_singleton.1 ha, List.mem_append, not_or]
    exact ⟨hnone b (List.mem_append_right _ (List.mem_singleton_self b)), he⟩

end Text

namespace Uri

theorem takeWhile_of_notMem {c : Char} {s : List Char} (h : c ∉ s) : s.takeWhile (· ≠ c) = s := by
  refine List.takeWhile_eq_self_iff.2 fun d hd => decide_eq_true ?_
  rintro rfl
  exact h hd

theorem takeWhile_of_cut {c : Char} {s a b : List Char} (h : Text.cut c s = some (a, b)) :
    s.takeWhile (· ≠ c) = a := by
  have hfront : ∀ d ∈ a, decide (d ≠ c) = true := by
    intro d hd
    refine decide_eq_true ?_
    rintro rfl
    exact Text.notMem_of_cut h hd
  rw [Text.eq_of_cut h]
  refine (Text.span_append hfront ?_).1
  intro d hd
  obtain rfl := Option.some.inj hd
  simp

/-- The path of a rooted text is what stands before its query and fragment. -/
theorem path_of_parse {text : String} {rest : List Char} (hrooted : text.toList = '/' :: rest)
    {uri : Uri} (h : parse text = .ok uri) : uri.path = Specifier.stripQuery text := by
  have hread : readPath "" "" "/" ('/' :: rest) = .ok uri := by
    unfold parse at h
    split at h
    · cases h
    · rw [hrooted] at h
      exact h
  have hstrip : Specifier.stripQuery text =
      String.ofList ((Text.before '#' ('/' :: rest)).takeWhile (· ≠ '?')) := by
    rw [Specifier.stripQuery, hrooted, Text.before, List.takeWhile_takeWhile]
    congr 2
    funext c
    simp
  have hpath {path : List Char} {query : Option (List Char)}
      (hparts : (Text.before '#' ('/' :: rest)).takeWhile (· ≠ '?') = path)
      (hok : (if path.all inPath && (query.getD []).all inQuery then
          .ok { scheme := "", authority := ""
                path := if path = [] then "/" else String.ofList path
                query := query.map String.ofList }
        else .error .invalidCharacter : Except UriError Uri) = .ok uri) :
      uri.path = String.ofList path := by
    have hne : path ≠ [] := by
      rw [← hparts]
      simp [Text.before]
    split at hok
    · rw [← Except.ok.inj hok]
    · cases hok
  unfold readPath at hread
  dsimp only at hread
  rw [hstrip]
  cases hcut : Text.cut '?' (Text.before '#' ('/' :: rest)) with
  | none =>
    rw [hcut] at hread
    have hfront := takeWhile_of_notMem (Text.cut_eq_none_iff.1 hcut)
    rw [hfront]
    exact hpath hfront hread
  | some halves =>
    rw [hcut] at hread
    have hfront := takeWhile_of_cut hcut
    rw [hfront]
    exact hpath hfront hread

end Uri

namespace Specifier

/-- A path on the module server and its query. -/
theorem exists_parts_serverPath (s : Specifier) :
    ∃ path query, '?' ∉ path ∧ (serverPath s).toList = path ++ Url.queryText query := by
  cases hcut : Text.cut '?' (serverPath s).toList with
  | none => exact ⟨_, none, Text.cut_eq_none_iff.1 hcut, (List.append_nil _).symm⟩
  | some halves => exact ⟨_, some halves.2, Text.notMem_of_cut hcut, Text.eq_of_cut hcut⟩

theorem takeWhile_isUnmarked_append {front : List Char} (hmark : '?' ∉ front) (hhash : '#' ∉ front)
    (query : Option (List Char)) :
    (front ++ Url.queryText query).takeWhile isUnmarked = front := by
  refine (Text.span_append ?_ ?_).1
  · intro c hc
    have hc1 : c ≠ '?' := fun h => hmark (h ▸ hc)
    have hc2 : c ≠ '#' := fun h => hhash (h ▸ hc)
    simp [isUnmarked, hc1, hc2]
  · cases query with
    | none => exact nofun
    | some query =>
      intro c hc
      obtain rfl := Option.some.inj hc
      rfl

theorem dots_mem_pieces_of_append {s : List Char}
    (h : ['.', '.'] ∈ Text.pieces '/' (s ++ scriptEnding)) : ['.', '.'] ∈ Text.pieces '/' s := by
  obtain ⟨front, b, hpieces, happended⟩ :=
    Text.exists_pieces_append s (c := '/') (e := scriptEnding) (by decide)
  rw [happended, List.mem_append, List.mem_singleton] at h
  rcases h with h | h
  · rw [hpieces]
    exact List.mem_append_left _ h
  · have hlength := congrArg List.length h
    rw [List.length_append] at hlength
    have hthree : scriptEnding.length = 3 := by decide
    have htwo : ['.', '.'].length = 2 := rfl
    omega

/-- The file of a module goes up only if the path it is served under does. -/
theorem dots_notMem_namesOf_savePath {s : Specifier} {path : List Char}
    {query : Option (List Char)} (hmark : '?' ∉ path)
    (hserver : (serverPath s).toList = path ++ Url.queryText query)
    (hdots : ['.', '.'] ∉ Text.pieces '/' path) :
    ".." ∉ Disk.namesOf (savePath s) ∧ ['/'].isPrefixOf (savePath s).toList = false := by
  have hsegments : ['.', '.'] ∉ Text.segments '/' (path.dropWhile (· = '/')) := by
    rw [Text.segments_dropWhile]
    exact fun h => hdots (List.mem_filter.1 h).1
  have hpieces : ['.', '.'] ∉ Text.pieces '/' (path.dropWhile (· = '/')) :=
    fun h => hsegments (List.mem_filter.2 ⟨h, by decide⟩)
  have hhead : ∀ c ∈ (path.dropWhile (· = '/')).head?, c ≠ '/' := by
    intro c hc
    have hnot := List.head?_dropWhile_not (· = '/') path
    rw [hc] at hnot
    simpa using hnot
  have hserver : serverPath s = String.ofList (path ++ Url.queryText query) := by
    rw [← hserver, String.ofList_toList]
  rw [savePath_eq hmark hserver, Disk.namesOf, String.toList_ofList]
  generalize path.dropWhile (· = '/') = file at hsegments hpieces hhead
  have hname {t : List Char} (ht : ['.', '.'] ∉ Text.pieces '/' t) :
      ".." ∉ (Text.segments '/' t).map String.ofList := by
    intro hmem
    obtain ⟨a, ha, hdots⟩ := List.mem_map.1 hmem
    obtain rfl : a = ['.', '.'] := String.ofList_injective hdots
    exact ht (List.mem_filter.1 ha).1
  constructor
  · split
    · exact hname fun h => hpieces (dots_mem_pieces_of_append h)
    · rw [List.append_nil]
      exact hname hpieces
  · cases file with
    | nil =>
      split
      · rfl
      · rfl
    | cons c file =>
      have hc : c ≠ '/' := hhead c rfl
      show (('/' == c) && _) = false
      rw [beq_eq_false_iff_ne.2 (Ne.symm hc), Bool.false_and]

theorem isRemote_stripQuery {s : Specifier} (h : isRemote s = true) :
    isRemote (stripQuery s) = true := by
  have hkept {start : List Char} (hstart : start.all isUnmarked = true)
      (hs : start.isPrefixOf s.toList = true) :
      start.isPrefixOf (s.toList.takeWhile isUnmarked) = true := by
    rw [List.isPrefixOf_iff_prefix] at hs ⊢
    obtain ⟨more, hmore⟩ := hs
    rw [← hmore, List.takeWhile_append_of_pos (List.all_eq_true.1 hstart)]
    exact List.prefix_append start _
  have hlist : (stripQuery s).toList = s.toList.takeWhile isUnmarked := String.toList_ofList
  unfold isRemote at h ⊢
  rw [hlist]
  rcases Bool.or_eq_true_iff.1 h with h | h
  · rw [hkept (by decide) h, Bool.true_or]
  · rw [hkept (by decide) h, Bool.or_true]

/-- The file of a module that is asked for, and that is no text of a URL which cannot be read, does
not go up. -/
theorem dots_notMem_savePath {s : Specifier} {uri : Uri} (huri : Uri.parse (requestPath s) = .ok uri)
    (hclimbs : App.climbs uri.path = false)
    (hnamed : isRemote (String.ofList (uri.path.toList.drop 1)) = false) :
    ".." ∉ Disk.namesOf (savePath s) ∧ ['/'].isPrefixOf (savePath s).toList = false := by
  obtain ⟨rest, hrest⟩ := exists_requestPath s
  have hpath := Uri.path_of_parse hrest huri
  have hup (front : List Char) (hfront : uri.path = String.ofList front)
      (hmem : ['.', '.'] ∈ Text.pieces '/' front) : False := by
    have hclimbing : App.climbs uri.path = true := by
      rw [hfront, App.climbs, String.toList_ofList, List.any_eq_true]
      exact ⟨_, hmem, by decide⟩
    exact Bool.false_ne_true (hclimbs.symm.trans hclimbing)
  cases hremote : isRemote s with
  | false =>
    obtain ⟨path, query, hmark, hserver⟩ := exists_parts_serverPath s
    refine dots_notMem_namesOf_savePath hmark hserver fun hdots => ?_
    have hserved : serverPath s = urlPath s := serverPath_of_not_isRemote hremote
    have hcut : Text.cut '?' (urlPath s).toList = query.map (path, ·) := by
      rw [← hserved, hserver, Url.cut_queryText hmark]
    have hrequest : (requestPath s).toList =
        (encodePath (String.ofList path)).toList ++ Url.queryText query := by
      unfold requestPath
      rw [hremote, if_neg Bool.false_ne_true, hcut]
      cases query with
      | none =>
        have hwhole : urlPath s = String.ofList path := by
          rw [← String.ofList_toList (s := urlPath s), ← hserved, hserver]
          exact congrArg String.ofList (List.append_nil path)
        rw [Option.map_none, hwhole]
        exact (List.append_nil _).symm
      | some query =>
        rw [Option.map_some, String.toList_append, String.toList_ofList]
        rfl
    have hhash : '#' ∉ (encodePath (String.ofList path)).toList := by
      rw [encodePath, String.toList_ofList]
      exact Percent.notMem_encodeWith (by decide) (by decide) (by decide) _
    have hencoded : uri.path = encodePath (String.ofList path) := by
      rw [hpath, stripQuery, hrequest]
      show String.ofList (List.takeWhile isUnmarked _) = _
      rw [takeWhile_isUnmarked_append (notMem_encodePath _) hhash, String.ofList_toList]
    refine hup (Percent.encodeWith keepsInPath path) ?_ ?_
    · rw [hencoded, encodePath, String.toList_ofList]
    · have hsplit := Percent.encodeWith_joinPieces keepsInPath (d := '/') (by decide)
        (Text.pieces '/' path)
      rw [Text.joinPieces_pieces] at hsplit
      rw [hsplit, Text.pieces_joinPieces]
      · exact List.mem_map.2 ⟨_, hdots, by decide⟩
      · intro a ha hslash
        obtain ⟨piece, hpiece, rfl⟩ := List.mem_map.1 ha
        rcases Percent.mem_encodeWith hslash with ⟨hslash, -⟩ | hslash | ⟨n, hn, hslash⟩
        · exact Text.notMem_of_mem_pieces hpiece hslash
        · cases hslash
        · revert hslash
          have hdigits : ∀ n < 16, '/' ≠ Percent.hexDigit n := by decide
          exact hdigits n hn
      · simp [Text.piecesWhere_ne_nil, Text.pieces]
  | true =>
    have hrequest : requestPath s = serverPath s := requestPath_of_isRemote hremote
    cases hparse : Url.parse s with
    | ok u =>
      have hwritten := isWritten_of_isRemote hremote hparse
      have hmount : (serverPath s).toList = mountPath u ++ Url.queryText u.query := by
        unfold serverPath
        rw [hremote, if_pos rfl, hparse]
        dsimp only
        rw [String.toList_ofList, mountOf_eq]
      have hmountMark : '?' ∉ mountPath u := notMem_mountPath hwritten (by decide)
      refine dots_notMem_namesOf_savePath hmountMark hmount fun hdots => ?_
      refine hup (mountPath u) ?_ hdots
      rw [hpath, stripQuery, hrequest, hmount]
      show String.ofList (List.takeWhile isUnmarked _) = _
      rw [takeWhile_isUnmarked_append hmountMark (notMem_mountPath hwritten (by decide))]
    | error e =>
      -- The text stands in the path of the request itself.
      have hserved : (requestPath s).toList = '/' :: s.toList := by
        rw [hrequest, serverPath, hremote, if_pos rfl, hparse]
        exact toList_urlPath_of_isRemote hremote
      have htext : String.ofList (uri.path.toList.drop 1) = stripQuery s := by
        rw [hpath, stripQuery, hserved, String.toList_ofList]
        rfl
      rw [htext, isRemote_stripQuery hremote] at hnamed
      cases hnamed

end Specifier
end Waymark
