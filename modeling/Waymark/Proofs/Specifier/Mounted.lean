import Waymark.Mount
import Waymark.Proofs.Specifier.RequestPath
import Waymark.Proofs.Url.Query
/-!
# Paths on the module server

The paths that the module server answers for begin with a slash.  That of a remote
module is its mount: it holds neither a question mark nor a number sign before the
query, so that a query put behind the URL of a sheet stands behind the mount, and
nothing else changes.

## Main results

* `exists_requestPath` — the request for a module begins with a slash.
* `suffix_of_isStyle` — the name of a sheet without query ends in its extension.
* `isFrontChar_mountPath` — what a mount is made of.
* `exists_serverPath_sheet` — the mounts of a remote sheet, and of it with a query.
-/

namespace Waymark.Specifier

/-! ## Slashes -/

theorem exists_urlPath (s : Specifier) : ∃ rest, (urlPath s).toList = '/' :: rest := by
  unfold urlPath
  dsimp only
  split
  · rename_i rest hrest
    exact ⟨rest, String.toList_ofList.trans hrest⟩
  · exact ⟨_, String.toList_ofList⟩

/-- A path below the root holds nothing but what stands in the specifier, and slashes. -/
theorem notMem_urlPath {c : Char} (hslash : c ≠ '/') {s : Specifier} (h : c ∉ s.toList) :
    c ∉ (urlPath s).toList := by
  have hrest {rest : List Char} (hsuffix : rest <:+ s.toList) : c ∉ rest := fun hmem =>
    h (hsuffix.subset hmem)
  unfold urlPath
  dsimp only
  split
  · rw [String.toList_ofList]
    apply hrest
    split
    · rename_i hs
      exact ⟨['.'], hs.symm⟩
    · exact List.suffix_refl _
  · rw [String.toList_ofList, List.mem_cons, not_or]
    refine ⟨hslash, hrest ?_⟩
    split
    · rename_i hs
      exact ⟨['.'], hs.symm⟩
    · exact List.suffix_refl _

theorem exists_encodePath {path : String} {rest : List Char} (h : path.toList = '/' :: rest) :
    ∃ rest, (encodePath path).toList = '/' :: rest := by
  refine ⟨Percent.encodeWith keepsInPath rest, ?_⟩
  rw [encodePath, String.toList_ofList, h]
  rfl

theorem exists_serverPath (s : Specifier) : ∃ rest, (serverPath s).toList = '/' :: rest := by
  unfold serverPath
  split
  · split
    · exact ⟨_, String.toList_ofList⟩
    · exact exists_urlPath s
  · exact exists_urlPath s

theorem exists_requestPath (s : Specifier) : ∃ rest, (requestPath s).toList = '/' :: rest := by
  unfold requestPath
  split
  · exact exists_serverPath s
  · obtain ⟨rest, hrest⟩ := exists_urlPath s
    split
    · rename_i path query hcut
      have hwhole : '/' :: rest = path ++ '?' :: query := hrest ▸ Text.eq_of_cut hcut
      cases path with
      | nil =>
        obtain ⟨hmark, -⟩ := List.cons.inj hwhole
        exact absurd hmark (by decide)
      | cons c path =>
        obtain ⟨rfl, -⟩ := List.cons.inj hwhole
        have hpath : (String.ofList ('/' :: path)).toList = '/' :: path := String.toList_ofList
        obtain ⟨more, hmore⟩ := exists_encodePath hpath
        exact ⟨more ++ (String.ofList ('?' :: query)).toList, by rw [String.toList_append, hmore]; rfl⟩
    · exact exists_encodePath hrest

/-! ## Sheets -/

theorem suffix_basename (path : List Char) : basename path <:+ path := by
  unfold basename
  split
  · rename_i above name hcut
    rw [Text.eq_of_cutLast hcut]
    exact ⟨above ++ ['/'], by simp⟩
  · exact List.suffix_refl path

theorem eq_of_cutExtension {name stem ext : List Char}
    (h : cutExtension name = some (stem, ext)) : name = stem ++ '.' :: ext ∧ stem ≠ [] := by
  unfold cutExtension at h
  split at h
  · rename_i stem' ext' hlast
    split at h
    · cases h
    · rename_i hstem
      obtain ⟨rfl, rfl⟩ := Prod.mk.inj (Option.some.inj h)
      exact ⟨Text.eq_of_cutLast hlast, hstem⟩
  · cases h

/-- The name of a sheet ends in its extension, if there is no query. -/
theorem suffix_of_isStyle {s : Specifier} (h : isStyle s = true) (hmark : '?' ∉ s.toList)
    (hhash : '#' ∉ s.toList) : ".css".toList <:+ s.toList := by
  have hstrip : stripQuery s = s := by
    have hkept : s.toList.takeWhile (fun c => c ≠ '?' && c ≠ '#') = s.toList := by
      apply List.takeWhile_eq_self_iff.2
      intro c hc
      have hm : c ≠ '?' := fun heq => hmark (heq ▸ hc)
      have hh : c ≠ '#' := fun heq => hhash (heq ▸ hc)
      rw [decide_eq_true hm, decide_eq_true hh]
      rfl
    rw [stripQuery, hkept, String.ofList_toList]
  have hext : extension s = some "css" := of_decide_eq_true h
  rw [extension, hstrip] at hext
  obtain ⟨⟨stem, ext⟩, hcut, hcss⟩ := Option.map_eq_some_iff.1 hext
  have hcss : ext = "css".toList := by
    rw [← hcss]
    exact String.toList_ofList.symm
  have hname := (eq_of_cutExtension hcut).1
  have hsuffix : ".css".toList <:+ basename s.toList := ⟨stem, by rw [hname, hcss]; rfl⟩
  exact hsuffix.trans (suffix_basename s.toList)

/-- A query makes nothing remote. -/
theorem isRemote_append (s : Specifier) (query : List Char) :
    isRemote (s ++ String.ofList ('?' :: query)) = isRemote s := by
  have hiff (p : List Char) (hp : '?' ∉ p) :
      p.isPrefixOf (s ++ String.ofList ('?' :: query)).toList = p.isPrefixOf s.toList := by
    rw [Bool.eq_iff_iff, List.isPrefixOf_iff_prefix, List.isPrefixOf_iff_prefix,
      String.toList_append, String.toList_ofList]
    exact Text.isPrefix_append_iff hp
  rw [isRemote, isRemote, hiff _ (by decide), hiff _ (by decide)]

theorem exists_of_isRemote {s : Specifier} (h : isRemote s = true) :
    ∃ scheme rest, Url.IsWeb scheme ∧ s.toList = scheme ++ ':' :: rest := by
  rcases Bool.or_eq_true_iff.1 h with h | h
  · obtain ⟨rest, hrest⟩ := List.isPrefixOf_iff_prefix.1 h
    exact ⟨"https".toList, '/' :: '/' :: rest, Or.inr rfl, hrest.symm⟩
  · obtain ⟨rest, hrest⟩ := List.isPrefixOf_iff_prefix.1 h
    exact ⟨"http".toList, '/' :: '/' :: rest, Or.inl rfl, hrest.symm⟩

theorem toList_urlPath_of_isRemote {s : Specifier} (h : isRemote s = true) :
    (urlPath s).toList = '/' :: s.toList := by
  obtain ⟨scheme, rest, hweb, hs⟩ := exists_of_isRemote h
  rw [urlPath, hs]
  rcases hweb with rfl | rfl
  · exact String.toList_ofList
  · exact String.toList_ofList

/-- What stands before the query of a mount. -/
def mountPath (u : Url) : List Char :=
  mountPoint ++ mountHost u ++ Text.dropEndWhile (· = '/') u.path.toText

/-- What holds of all characters of mounted hosts. -/
theorem forall_mountHost {P : Char → Prop} (hmarker : ∀ c ∈ plainMarker, P c)
    (hhost : ∀ n < 128, Url.isHostChar (Char.ofNat n) = true → P (Char.ofNat n))
    (hdigit : ∀ d < 10, P (Nat.digitChar d)) {u : Url} (hu : Url.IsWritten u) :
    ∀ c ∈ mountHost u, P c := by
  obtain ⟨host, hsome, hread⟩ := hu.host
  intro c hc
  rcases List.mem_append.1 hc with hc | hc
  · rcases List.mem_append.1 hc with hc | hc
    · split at hc
      · exact hmarker c hc
      · nomatch hc
    · rw [hsome] at hc
      exact Url.forall_host hhost hread c hc
  · split at hc
    · rcases List.mem_cons.1 hc with rfl | hc
      · exact hmarker '_' (by decide)
      · obtain ⟨d, hd, rfl⟩ := exists_of_mem_toDigits (by decide) hc
        exact hdigit d hd
    · nomatch hc

theorem mountHost_ne_nil {u : Url} (hu : Url.IsWritten u) : mountHost u ≠ [] := by
  obtain ⟨host, hhost, hread⟩ := hu.host
  have hne := Url.ne_nil_of_readHost hread
  intro hnil
  have hfront := (List.append_eq_nil_iff.1 hnil).1
  have hmiddle := (List.append_eq_nil_iff.1 hfront).2
  rw [hhost] at hmiddle
  exact hne hmiddle

theorem notMem_mountHost {u : Url} (hu : Url.IsWritten u) : '/' ∉ mountHost u := by
  intro hmem
  exact forall_mountHost (P := (· ≠ '/')) (Text.forall_mem_of_all (by decide)) (by decide) (by decide)
    hu '/' hmem rfl

theorem isFrontChar_mountPath {u : Url} (hu : Url.IsWritten u) :
    ∀ c ∈ mountPath u, Url.isFrontChar c = true := by
  obtain ⟨segments, hpath, -, hsegments⟩ := hu.path
  intro c hc
  rcases List.mem_append.1 hc with hc | hc
  · rcases List.mem_append.1 hc with hc | hc
    · exact Text.forall_mem_of_all (P := (Url.isFrontChar · = true)) (by decide) c hc
    · exact forall_mountHost (P := (Url.isFrontChar · = true)) (Text.forall_mem_of_all (by decide))
        (by decide) (by decide) hu c hc
  · have hc : c ∈ u.path.toText := by
      have hsub := List.dropWhile_sublist (p := (· = '/')) (l := u.path.toText.reverse)
      exact List.mem_reverse.1 (hsub.subset (List.mem_reverse.1 hc))
    rw [hpath] at hc
    obtain ⟨s, hs, hc⟩ := List.mem_flatMap.1 hc
    rcases List.mem_cons.1 hc with rfl | hc
    · decide
    · exact Url.forall_isEncoded (P := (Url.isFrontChar · = true)) (by decide)
        (hsegments s hs).encoded c hc

theorem notMem_mountPath {u : Url} (hu : Url.IsWritten u) {c : Char}
    (hc : Url.isFrontChar c = false) : c ∉ mountPath u := by
  intro hmem
  rw [isFrontChar_mountPath hu c hmem] at hc
  nomatch hc

theorem mountOf_eq (u : Url) : mountOf u = mountPath u ++ Url.queryText u.query := by
  unfold mountOf mountPath
  cases u.query with
  | none => rfl
  | some query => rfl

theorem getLast?_of_isStyle {s : Specifier} (hstyle : isStyle s = true) (hmark : '?' ∉ s.toList)
    (hhash : '#' ∉ s.toList) : s.toList.getLast? = some 's' := by
  obtain ⟨stem, hstem⟩ := suffix_of_isStyle hstyle hmark hhash
  rw [← hstem, List.getLast?_append]
  rfl

/-- The mount of a remote sheet, and of it with a query. -/
theorem exists_serverPath_sheet {s : Specifier} (h : isRemote s = true) (hstyle : isStyle s = true)
    (hmark : '?' ∉ s.toList) (hhash : '#' ∉ s.toList) {query : List Char} (hne : query ≠ [])
    (hquery : Percent.IsEncoded (Url.keepsInQuery true) query) :
    ∃ path, '?' ∉ path ∧ '#' ∉ path ∧ serverPath s = String.ofList path ∧
      serverPath (s ++ String.ofList ('?' :: query)) = String.ofList (path ++ '?' :: query) := by
  obtain ⟨scheme, rest, hweb, hs⟩ := exists_of_isRemote h
  have hself : s = String.ofList (scheme ++ ':' :: rest) := by
    rw [← hs, String.ofList_toList]
  have hwith : s ++ String.ofList ('?' :: query) =
      String.ofList (scheme ++ ':' :: rest ++ '?' :: query) := by
    rw [hself, ← String.ofList_append]
  have hrest {c : Char} (hc : c ∉ s.toList) : c ∉ rest := by
    intro hmem
    rw [hs] at hc
    exact hc (List.mem_append_right _ (List.mem_cons_of_mem _ hmem))
  have hlast : ∀ c ∈ (':' :: rest).getLast?, 0x20 < c.toNat := by
    intro c hc
    have hend : s.toList.getLast? = some c := by
      rw [hs, List.getLast?_append, hc]
      rfl
    rw [getLast?_of_isStyle hstyle hmark hhash] at hend
    obtain rfl := Option.some.inj hend
    decide
  obtain ⟨hnone, hsome⟩ :=
    Url.parse_append_query hweb (hrest hmark) (hrest hhash) hlast hne hquery
  rw [← hself] at hnone hsome
  rw [← hwith] at hsome
  have hremote : isRemote (s ++ String.ofList ('?' :: query)) = true := by
    rw [isRemote_append, h]
  unfold Url.WithQuery at hsome
  unfold serverPath
  rw [h, hremote, if_pos rfl, if_pos rfl, hsome]
  cases hparse : Url.parse s with
  | error e =>
    have hslash {c : Char} (hc : c ≠ '/') (hs : c ∉ s.toList) : c ∉ '/' :: s.toList := by
      rw [List.mem_cons, not_or]
      exact ⟨hc, hs⟩
    refine ⟨'/' :: s.toList, hslash (by decide) hmark, hslash (by decide) hhash, ?_, ?_⟩
    · rw [← toList_urlPath_of_isRemote h, String.ofList_toList]
    · have hpath := toList_urlPath_of_isRemote hremote
      rw [String.toList_append, String.toList_ofList, ← List.cons_append] at hpath
      rw [← hpath]
      exact String.ofList_toList.symm
  | ok u =>
    obtain ⟨hscheme, hquery⟩ := hnone u hparse
    have hwritten : Url.IsWritten u := Url.isWritten_of_parse hparse (hscheme ▸ hweb)
    refine ⟨mountPath u, notMem_mountPath hwritten (by decide),
      notMem_mountPath hwritten (by decide), ?_, ?_⟩
    · show String.ofList (mountOf u) = _
      rw [mountOf_eq, hquery]
      exact congrArg String.ofList (List.append_nil _)
    · rfl

end Waymark.Specifier
