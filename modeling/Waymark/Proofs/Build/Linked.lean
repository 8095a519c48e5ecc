import Waymark.Build
import Waymark.Proofs.Specifier.Inside
import Waymark.Proofs.Specifier.Marked
import Waymark.Proofs.Url.Plain
/-!
# The modules that a page links to

The build takes a link of the page at the root for the path of a file, while a browser takes it for
a URL and asks for where it leads.  A link that is written as a plain path means the same to both,
but for one into the mount, which a browser asks for a remote module by.  Only links that begin with
`http://` or `https://` are left out as foreign, so that one which leads away from the server without
a scheme is taken for a module of the app.

## Main results

* `IsPlainLink.exists_join` — where a plain link leads.
* `isModulePath_urlText`, `ofRequestPath_urlText`, `isRemote_parse_urlText` — what the server reads of
  the path of that URL.
* `IsPlainLink.stripQuery_clean` — what the build makes of the query of a plain link.
* `pageModules_asked` — the modules that the build takes from a page, and what a browser asks for.
-/

namespace Waymark.Build

open Percent

/-! ## What is asked for -/

/-- The module that the build takes a link for. -/
def linked? (link : String) : Option Specifier :=
  if isModuleLink link then some ("." ++ Specifier.clean link) else none

/-- Whether a path has the extension of a style sheet or a script. -/
def isModulePath (path : String) : Bool := Specifier.isStyle path || Specifier.isScript path

/-- Whether two URLs have one origin. -/
def isSameOrigin (u v : Url) : Bool := u.scheme = v.scheme && u.host = v.host && u.port = v.port

/-- The module that a browser asks the server for when a page of the server has a link. -/
def asked? (page : Url) (link : String) : Option Specifier :=
  match page.join link with
  | .error _ => none
  | .ok u =>
    let path := String.ofList u.path.toText
    if isSameOrigin u page && isModulePath path then
      some (ModuleRequest.parse path (u.query.map String.ofList)).specifier
    else none

/-- Whether a link means the same module to the build and to a browser, up to a query. -/
def Agrees (page : Url) (link : String) : Prop :=
  (linked? link).map Specifier.stripQuery = (asked? page link).map Specifier.stripQuery

/-- A page at the root of a server. -/
structure IsRootPage (page : Url) : Prop where
  scheme : Url.IsWeb page.scheme
  path : page.path = .rooted [[]]

/-- The part of a link before its query and fragment. -/
def pathPart (link : List Char) : List Char := link.takeWhile Specifier.isUnmarked

/-- A link that is written as a plain path: nothing is taken off of its path, it has no scheme, and
what follows its path does not go up. -/
structure IsPlainLink (link : String) : Prop where
  whole : Url.dropBreaks (pathPart (Url.trim link.toList)) = pathPart link.toList
  noScheme : Url.schemeOf? (pathPart link.toList) = none
  path : Url.IsPlainPath (pathPart link.toList)
  staysDown : ['.', '.'] ∉
    Text.piecesWhere Specifier.isSlash (link.toList.dropWhile Specifier.isUnmarked)

/-! ## Where a plain link leads -/

theorem cutSuffixes_fst (s : List Char) : (Url.cutSuffixes s).1 = pathPart s := by
  have hsplit : pathPart s = (s.takeWhile (· ≠ '#')).takeWhile (· ≠ '?') := by
    rw [List.takeWhile_takeWhile]
    refine congrArg (List.takeWhile · s) (funext fun c => ?_)
    simp [Specifier.isUnmarked]
  rw [hsplit]
  unfold Url.cutSuffixes
  cases hhash : Text.cut '#' s with
  | none =>
    rw [Uri.takeWhile_of_notMem (Text.cut_eq_none_iff.1 hhash)]
    dsimp only
    cases hmark : Text.cut '?' s with
    | none => exact (Uri.takeWhile_of_notMem (Text.cut_eq_none_iff.1 hmark)).symm
    | some parts => exact (Uri.takeWhile_of_cut hmark).symm
  | some parts =>
    rw [Uri.takeWhile_of_cut hhash]
    dsimp only
    cases hmark : Text.cut '?' parts.1 with
    | none => exact (Uri.takeWhile_of_notMem (Text.cut_eq_none_iff.1 hmark)).symm
    | some parts' => exact (Uri.takeWhile_of_cut hmark).symm

/-- A plain link stays on the server of the page and leads along its path. -/
theorem IsPlainLink.exists_join {page : Url} (hpage : IsRootPage page) {link : String}
    (h : IsPlainLink link) : ∃ u, page.join link = .ok u ∧ isSameOrigin u page = true ∧
      u.path = .rooted ((Url.passedBy (pathPart link.toList)).map (encodeWith Url.keepsInPath)) := by
  have hfront : Url.dropBreaks (Url.cutSuffixes (Url.trim link.toList)).1 =
      pathPart link.toList := by
    rw [cutSuffixes_fst, h.whole]
  unfold Url.join Url.read
  dsimp only
  rw [hfront, h.noScheme]
  dsimp only
  rw [hpage.path]
  dsimp only
  rw [if_neg hpage.scheme.ne_file]
  obtain ⟨u, hu, hscheme, hhost, hport, hpath⟩ := h.path.exists_readRelative hpage.scheme hpage.path
    ((Url.cutSuffixes (Url.trim link.toList)).2.1.map Url.dropBreaks |>.map
      (Url.encodeQuery page.scheme))
    ((Url.cutSuffixes (Url.trim link.toList)).2.2.map fun f => Url.encodeFragment (Url.dropBreaks f))
  refine ⟨u, hu, ?_, hpath⟩
  simp only [isSameOrigin, hscheme, hhost, hport, decide_true, Bool.and_self]

/-! ## Names of modules -/

/-- The extensions of style sheets and scripts. -/
def moduleExtensions : List String := "css" :: Specifier.scriptExtensions

/-- Whether a name has the extension of a style sheet or a script. -/
def isModuleName (name : List Char) : Bool :=
  (Specifier.cutExtension name).any fun (_, ext) => String.ofList ext ∈ moduleExtensions

theorem isModulePath_eq (path : String) :
    isModulePath path = isModuleName (Specifier.basename (pathPart path.toList)) := by
  have hstrip : (Specifier.stripQuery path).toList = pathPart path.toList := String.toList_ofList
  unfold isModulePath Specifier.isStyle Specifier.isScript Specifier.extension isModuleName
  rw [hstrip]
  cases Specifier.cutExtension (Specifier.basename (pathPart path.toList)) with
  | none => rfl
  | some parts => simp [moduleExtensions]

theorem basename_of_pieces {path b : List Char} {front : List (List Char)}
    (h : Text.pieces '/' path = front ++ [b]) : Specifier.basename path = b := by
  have hb : '/' ∉ b := Text.notMem_of_mem_pieces (by rw [h]; simp)
  have hpath := Text.joinPieces_pieces '/' path
  rw [h] at hpath
  rw [← hpath, Specifier.basename]
  cases front with
  | nil =>
    have hone : Text.joinPieces '/' ([] ++ [b]) = b := rfl
    rw [hone, Text.cutLast_eq_none hb]
  | cons a front => rw [Text.cutLast_joinPieces (List.cons_ne_nil a front) hb]

theorem eq_nil_of_encodeWith {s : List Char} (h : encodeWith Url.keepsInPath s = []) : s = [] := by
  cases Url.Dots.of_encodeWith .nil h
  rfl

/-- Only a text itself is escaped to a text without percent signs. -/
theorem eq_of_encodeWith {s t : List Char} (h : encodeWith Url.keepsInPath s = t) (ht : '%' ∉ t) :
    s = t := by
  induction t generalizing s with
  | nil => exact eq_nil_of_encodeWith h
  | cons c t ih =>
    have hc : c ≠ '%' := fun heq => ht (heq ▸ List.mem_cons_self ..)
    obtain ⟨s', rfl, hrest⟩ := Specifier.eq_cons_of_encodeWith hc h
    rw [ih hrest fun hmem => ht (List.mem_cons_of_mem _ hmem)]

theorem mem_moduleExtensions_encodeWith (ext : List Char) :
    String.ofList (encodeWith Url.keepsInPath ext) ∈ moduleExtensions ↔
      String.ofList ext ∈ moduleExtensions := by
  have hwritten : ∀ e ∈ moduleExtensions, '%' ∉ e.toList ∧
      encodeWith Url.keepsInPath e.toList = e.toList := by decide
  constructor
  · intro hmem
    obtain ⟨hescape, -⟩ := hwritten _ hmem
    rw [String.toList_ofList] at hescape
    have hsame := eq_of_encodeWith rfl hescape
    rwa [← hsame] at hmem
  · intro hmem
    have hsame := (hwritten _ hmem).2
    rw [String.toList_ofList] at hsame
    rwa [hsame]

/-- The extension of a name is written as it is. -/
theorem isModuleName_encodeWith (name : List Char) :
    isModuleName (encodeWith Url.keepsInPath name) = isModuleName name := by
  have hdot {s : List Char} (hs : '.' ∉ s) : '.' ∉ encodeWith Url.keepsInPath s := fun hmem =>
    hs (mem_of_mem_encodeWith (by decide) (by decide) hmem)
  unfold isModuleName Specifier.cutExtension
  cases hcut : Text.cutLast '.' name with
  | none =>
    have hname := hdot (Text.notMem_of_cutLast_eq_none hcut)
    rw [Text.cutLast_eq_none hname]
  | some parts =>
    obtain ⟨stem, ext⟩ := parts
    have hsplit : encodeWith Url.keepsInPath name =
        encodeWith Url.keepsInPath stem ++ '.' :: encodeWith Url.keepsInPath ext := by
      rw [Text.eq_of_cutLast hcut, encodeWith_append]
      rfl
    rw [hsplit, Text.cutLast_append _ (hdot (Text.notMem_of_cutLast hcut))]
    dsimp only
    by_cases hstem : stem = []
    · rw [if_pos hstem, hstem]
      rfl
    · rw [if_neg hstem, if_neg fun hnil => hstem (eq_nil_of_encodeWith hnil), Option.any_some,
        Option.any_some]
      exact decide_eq_decide.2 (mem_moduleExtensions_encodeWith ext)

/-! ## Last segments -/

/-- The last segment that a path is written with is that of the steps along it. -/
theorem exists_last (path : List Char) : ∃ front front' b, Url.steps path = front ++ [b] ∧
    Text.pieces '/' path = front' ++ [b] := by
  obtain ⟨front, b, hsteps⟩ := (List.eq_nil_or_concat (Url.steps path)).resolve_left
    (Text.piecesWhere_ne_nil _ _)
  rw [List.concat_eq_append] at hsteps
  have hcases : Text.pieces '/' path = Url.steps path ∨
      Text.pieces '/' path = [] :: Url.steps path := by
    unfold Url.steps Url.belowRoot
    split
    · exact Or.inr rfl
    · exact Or.inl rfl
  rcases hcases with hpieces | hpieces
  · exact ⟨front, front, b, hsteps, hpieces.trans hsteps⟩
  · exact ⟨front, [] :: front, b, hsteps, by rw [hpieces, hsteps]; rfl⟩

/-- A path leads to the last segment that it is written with, unless that is made of dots. -/
theorem exists_passedBy {path b : List Char} {front : List (List Char)}
    (h : Url.steps path = front ++ [b]) : ∃ above, Url.passedBy path =
      above ++ [if b = ['.'] ∨ b = ['.', '.'] then [] else b] := by
  obtain ⟨passed, hpassed⟩ := Url.passAll_concat [] front b
  have hhead := Url.head?_pass passed b
  rw [Url.passedBy, h, hpassed]
  cases hwalk : Url.pass true passed b with
  | nil =>
    rw [hwalk] at hhead
    cases hhead
  | cons name above =>
    rw [hwalk] at hhead
    rw [← Option.some.inj hhead, List.reverse_cons]
    exact ⟨above.reverse, rfl⟩

theorem isModuleName_last (b : List Char) :
    isModuleName (if b = ['.'] ∨ b = ['.', '.'] then [] else b) = isModuleName b := by
  split
  · rename_i hdots
    rcases hdots with rfl | rfl
    · decide
    · decide
  · rfl

/-! ## What is read of a plain path -/

section

variable {path : List Char} (h : Url.IsPlainPath path)

/-- The path of a URL that is led to by a plain path, without escapes. -/
def plainText (path : List Char) : List Char := (Url.passedBy path).flatMap ('/' :: ·)

/-- The path of a URL that is led to by a plain path. -/
def urlText (path : List Char) : List Char :=
  (UrlPath.rooted ((Url.passedBy path).map (encodeWith Url.keepsInPath))).toText

theorem urlText_eq (path : List Char) :
    urlText path = encodeWith Url.keepsInPath (plainText path) := by
  have hcons (s : List Char) :
      encodeWith Url.keepsInPath ('/' :: s) = '/' :: encodeWith Url.keepsInPath s := rfl
  show ((Url.passedBy path).map (encodeWith Url.keepsInPath)).flatMap ('/' :: ·) = _
  unfold plainText
  induction Url.passedBy path with
  | nil => rfl
  | cons s segments ih =>
    rw [List.map_cons, List.flatMap_cons, ih, List.flatMap_cons, encodeWith_append, hcons]

theorem passedBy_ne_nil (path : List Char) : Url.passedBy path ≠ [] := by
  obtain ⟨front, -, b, hsteps, -⟩ := exists_last path
  obtain ⟨above, habove⟩ := exists_passedBy hsteps
  rw [habove]
  simp

theorem plainText_eq (path : List Char) :
    plainText path = '/' :: Text.joinPieces '/' (Url.passedBy path) := by
  unfold plainText
  cases hpassed : Url.passedBy path with
  | nil => exact absurd hpassed (passedBy_ne_nil path)
  | cons s segments => exact (Text.cons_joinPieces '/' s segments).symm

include h

/-- The URL names a style sheet or a script exactly if the path does. -/
theorem isModulePath_urlText : isModulePath (String.ofList (urlText path)) =
    isModuleName (Specifier.basename path) := by
  obtain ⟨front, front', b, hsteps, hpieces⟩ := exists_last path
  obtain ⟨above, habove⟩ := exists_passedBy hsteps
  have hslash : ∀ s ∈ (Url.passedBy path).map (encodeWith Url.keepsInPath), '/' ∉ s := by
    intro s hs hmem
    obtain ⟨t, ht, rfl⟩ := List.mem_map.1 hs
    have hmem := mem_of_mem_encodeWith (by decide) (by decide) hmem
    exact absurd ((h.isPlainSegment_passedBy t ht).noSlash _ hmem) (by decide)
  have htext : urlText path =
      '/' :: Text.joinPieces '/' ((Url.passedBy path).map (encodeWith Url.keepsInPath)) := by
    rw [urlText_eq, plainText_eq, ← encodeWith_joinPieces Url.keepsInPath (by decide)]
    rfl
  have hall : Text.pieces '/' (urlText path) =
      [] :: (Url.passedBy path).map (encodeWith Url.keepsInPath) := by
    have hread := Text.pieces_joinPieces hslash (by simpa using passedBy_ne_nil path)
    rw [htext]
    exact congrArg ([] :: ·) hread
  have hmark {c : Char} (hkeep : Url.keepsInPath c = false) (hdigit : ∀ n < 16, hexDigit n ≠ c)
      (hc : c ≠ '%') : c ∉ urlText path := by
    rw [urlText_eq]
    exact notMem_encodeWith hkeep hdigit hc _
  have hwhole : pathPart (urlText path) = urlText path := by
    refine List.takeWhile_eq_self_iff.2 fun c hc => ?_
    have hquery : c ≠ '?' := fun heq => hmark (by decide) (by decide) (by decide) (heq ▸ hc)
    have hfragment : c ≠ '#' := fun heq => hmark (by decide) (by decide) (by decide) (heq ▸ hc)
    exact Bool.and_eq_true_iff.2 ⟨decide_eq_true hquery, decide_eq_true hfragment⟩
  -- the last segment is the escaped one of the path, and extensions are not changed by escapes
  rw [habove, List.map_append, List.map_singleton, ← List.cons_append] at hall
  rw [isModulePath_eq, String.toList_ofList, hwhole, basename_of_pieces hall,
    isModuleName_encodeWith, isModuleName_last, basename_of_pieces hpieces]

/-- Escapes are undone when the path is decoded. -/
theorem decodePath_urlText :
    Specifier.decodePath (String.ofList (urlText path)) = String.ofList (plainText path) := by
  have hescape : '%' ∉ plainText path := by
    intro hmem
    obtain ⟨s, hs, hmem⟩ := List.mem_flatMap.1 hmem
    rcases List.mem_cons.1 hmem with heq | hmem
    · cases heq
    · exact (h.isPlainSegment_passedBy s hs).noEscape hmem
  rw [Specifier.decodePath, String.toList_ofList, urlText_eq,
    decodeLossy_encodeWith fun hmem => absurd hmem hescape]

/-- Cleaning resolves nothing but empty segments in the path of the URL. -/
theorem cleanSegments_plainText :
    Specifier.cleanSegments (plainText path) = Specifier.cleanSegments path := by
  have hclean : ∀ s ∈ Url.passedBy path, s ≠ [] → Specifier.IsCleanSegment s := by
    intro s hs hne
    have hmem : s ∈ Specifier.cleanSegments path := by
      rw [h.cleanSegments_eq]
      exact List.mem_filter.2 ⟨hs, by simpa using hne⟩
    exact Specifier.isCleanSegment_of_mem hmem
  have hpieces : Text.piecesWhere Specifier.isSlash (plainText path) = [] :: Url.passedBy path := by
    have hread := Text.piecesWhere_joinPieces (p := Specifier.isSlash) (d := '/') rfl
      (fun s hs => (h.isPlainSegment_passedBy s hs).noSlash) (passedBy_ne_nil path)
    rw [plainText_eq]
    exact congrArg ([] :: ·) hread
  show ((Text.piecesWhere Specifier.isSlash (plainText path)).foldl Specifier.pushSegment
    []).reverse = _
  rw [hpieces, h.cleanSegments_eq]
  show ((Url.passedBy path).foldl Specifier.pushSegment []).reverse = _
  rw [Url.foldl_pushSegment_nonempty hclean, List.append_nil, List.reverse_reverse]

/-- The module that is asked for by a plain path outside of the mount. -/
theorem ofRequestPath_urlText (hmount : ¬Specifier.mountPoint <+: plainText path) :
    Specifier.ofRequestPath (String.ofList (urlText path)) =
      "." ++ Specifier.clean (String.ofList path) := by
  have hlocal : ¬Specifier.mountPoint <+: (String.ofList (urlText path)).toList := by
    rw [String.toList_ofList, urlText_eq]
    exact fun hprefix => hmount (Specifier.prefix_of_encodeWith (by decide) hprefix)
  have hclean : Specifier.clean (String.ofList (plainText path)) =
      Specifier.clean (String.ofList path) := by
    rw [Specifier.clean, Specifier.clean, String.toList_ofList, String.toList_ofList,
      cleanSegments_plainText h]
  rw [Specifier.ofRequestPath, Text.isPrefixOf?_eq_none hlocal, decodePath_urlText h, hclean]

end

/-- What is asked for by a path in the mount is a remote module. -/
theorem isRemote_parse_urlText {path : List Char} (hmount : Specifier.mountPoint <+: plainText path)
    (query : Option String) : Specifier.isRemote
      (ModuleRequest.parse (String.ofList (urlText path)) query).specifier = true := by
  have hremote : Specifier.isRemote (Specifier.ofRequestPath (String.ofList (urlText path))) =
      true := by
    obtain ⟨rest, hrest⟩ := hmount
    apply Specifier.isRemote_ofRequestPath
    rw [String.toList_ofList, urlText_eq, ← hrest, encodeWith_append]
    exact ⟨_, rfl⟩
  unfold ModuleRequest.parse
  dsimp only
  split
  · rw [Specifier.isRemote_append, hremote]
  · exact hremote

/-! ## What the build takes a link for -/

/-- More segments, none of which goes up, are put on top of those that are kept. -/
theorem foldl_pushSegment_stays {segments : List (List Char)} (h : ['.', '.'] ∉ segments)
    (kept : List (List Char)) :
    ∃ more, segments.foldl Specifier.pushSegment kept = more ++ kept := by
  induction segments generalizing kept with
  | nil => exact ⟨[], rfl⟩
  | cons s segments ih =>
    obtain ⟨more, hmore⟩ := ih (fun hmem => h (List.mem_cons_of_mem _ hmem))
      (Specifier.pushSegment kept s)
    rw [List.foldl_cons, hmore, Specifier.pushSegment]
    split
    · exact ⟨more, rfl⟩
    · rw [if_neg fun heq : s = ['.', '.'] => h (heq ▸ List.mem_cons_self ..)]
      exact ⟨more ++ [s], by simp⟩

/-- What follows a text without separators belongs to the first piece behind it. -/
theorem piecesWhere_append_of_none {p : Char → Bool} {b s e : List Char} {more : List (List Char)}
    (hb : ∀ c ∈ b, p c = false) (hs : Text.piecesWhere p s = e :: more) :
    Text.piecesWhere p (b ++ s) = (b ++ e) :: more := by
  induction b with
  | nil => exact hs
  | cons c b ih =>
    obtain ⟨hc, hb⟩ := List.forall_mem_cons.1 hb
    rw [List.cons_append, Text.piecesWhere, ih hb, hc]
    rfl

/-- What follows a path belongs to its last segment. -/
theorem exists_piecesWhere_append {path : List Char} (h : Url.IsPlainPath path) :
    ∃ front, Text.piecesWhere Specifier.isSlash path = front ++ [Specifier.basename path] ∧
      ∀ {s e : List Char} {more : List (List Char)},
        Text.piecesWhere Specifier.isSlash s = e :: more →
        Text.piecesWhere Specifier.isSlash (path ++ s) =
          front ++ (Specifier.basename path ++ e) :: more := by
  have hnone {b : List Char} (hb : '/' ∉ b) (hpath : ∀ c ∈ b, c ∈ path) :
      ∀ c ∈ b, Specifier.isSlash c = false := by
    intro c hc
    exact Url.isSlash_of_isPlain
      ((h.plain c (hpath c hc)).resolve_left fun heq => hb (heq ▸ hc))
  unfold Specifier.basename
  cases hcut : Text.cutLast '/' path with
  | none =>
    have hall := hnone (Text.notMem_of_cutLast_eq_none hcut) fun _ hc => hc
    exact ⟨[], Text.piecesWhere_of_none hall, piecesWhere_append_of_none hall⟩
  | some parts =>
    obtain ⟨above, b⟩ := parts
    have hpath := Text.eq_of_cutLast hcut
    have hall := hnone (Text.notMem_of_cutLast hcut) fun c hc => by
      rw [hpath]
      simp [hc]
    refine ⟨Text.piecesWhere Specifier.isSlash above, ?_, fun hs => ?_⟩
    · rw [hpath, Text.piecesWhere_append_cons above rfl, Text.piecesWhere_of_none hall]
    · rw [hpath, List.append_assoc, List.cons_append, Text.piecesWhere_append_cons above rfl,
        piecesWhere_append_of_none hall hs]

theorem length_of_isModuleName {name : List Char} (h : isModuleName name = true) :
    2 < name.length := by
  unfold isModuleName at h
  cases hcut : Specifier.cutExtension name with
  | none =>
    rw [hcut] at h
    cases h
  | some parts =>
    obtain ⟨stem, ext⟩ := parts
    rw [hcut] at h
    have hmem : String.ofList ext ∈ moduleExtensions := of_decide_eq_true h
    have hlong : ∀ e ∈ moduleExtensions, 1 < e.toList.length := by decide
    have hext := hlong _ hmem
    rw [String.toList_ofList] at hext
    rw [(Specifier.eq_of_cutExtension hcut).1, List.length_append, List.length_cons]
    omega

/-- A name with the extension of a module is kept, whatever follows it. -/
theorem pushSegment_module {name : List Char} (h : isModuleName name = true) (e : List Char)
    (kept : List (List Char)) : Specifier.pushSegment kept (name ++ e) = (name ++ e) :: kept := by
  -- a dot and an extension alone are longer than the segments that are resolved
  have hlength := length_of_isModuleName h
  have hne {short : List Char} (hshort : short.length ≤ 2) : name ++ e ≠ short := by
    rintro rfl
    rw [List.length_append] at hshort
    omega
  rw [Specifier.pushSegment, if_neg (not_or.2 ⟨hne (by decide), hne (by decide)⟩),
    if_neg (hne (by decide))]

/-- What follows the path of a module belongs to the name of the module when it is cleaned. -/
theorem exists_cleanSegments_append {path mark : List Char} {c : Char}
    (hpath : Url.IsPlainPath path) (hname : isModuleName (Specifier.basename path) = true)
    (hc : Specifier.isSlash c = false)
    (hdown : ['.', '.'] ∉ Text.piecesWhere Specifier.isSlash (c :: mark)) :
    ∃ above e below, Specifier.cleanSegments path = above ++ [Specifier.basename path] ∧
      Specifier.cleanSegments (path ++ c :: mark) =
        above ++ (Specifier.basename path ++ c :: e) :: below := by
  obtain ⟨e, more, hpieces⟩ := List.exists_cons_of_ne_nil
    (Text.piecesWhere_ne_nil Specifier.isSlash mark)
  have hslash : ∀ d ∈ [c], Specifier.isSlash d = false := fun d hd => by
    rwa [List.mem_singleton.1 hd]
  have hpieces : Text.piecesWhere Specifier.isSlash (c :: mark) = (c :: e) :: more :=
    piecesWhere_append_of_none hslash hpieces
  rw [hpieces] at hdown
  obtain ⟨front, hfront, happend⟩ := exists_piecesWhere_append hpath
  -- the pieces behind the mark only add to what is kept, since none of them goes up
  obtain ⟨top, htop⟩ := foldl_pushSegment_stays (fun hmem => hdown (List.mem_cons_of_mem _ hmem))
    ((Specifier.basename path ++ c :: e) :: front.foldl Specifier.pushSegment [])
  have hkept := pushSegment_module hname [] (front.foldl Specifier.pushSegment [])
  rw [List.append_nil] at hkept
  refine ⟨(front.foldl Specifier.pushSegment []).reverse, e, top.reverse, ?_, ?_⟩
  · show ((Text.piecesWhere Specifier.isSlash path).foldl Specifier.pushSegment []).reverse = _
    rw [hfront, List.foldl_append, List.foldl_cons, List.foldl_nil, hkept, List.reverse_cons]
  · show ((Text.piecesWhere Specifier.isSlash (path ++ c :: mark)).foldl
      Specifier.pushSegment []).reverse = _
    rw [happend hpieces, List.foldl_append, List.foldl_cons, pushSegment_module hname, htop,
      List.reverse_append, List.reverse_cons, List.append_assoc]
    rfl

/-- It is cut off of the clean path again. -/
theorem beforeMark_cleanSegments {path mark : List Char} (hpath : Url.IsPlainPath path)
    (hunmarked : ∀ c ∈ path, Specifier.isUnmarked c = true)
    (hname : isModuleName (Specifier.basename path) = true)
    (hmark : ∀ c ∈ mark.head?, Specifier.isUnmarked c = false)
    (hdown : ['.', '.'] ∉ Text.piecesWhere Specifier.isSlash mark) :
    Specifier.beforeMark (Specifier.cleanSegments (path ++ mark)) =
      Specifier.cleanSegments path := by
  have hclean : ∀ s ∈ Specifier.cleanSegments path, s.all Specifier.isUnmarked = true := by
    intro s hs
    rw [List.all_eq_true]
    intro c hc
    rcases Specifier.mem_of_mem_foldl_pushSegment (List.mem_reverse.1 hs) with hs | hs
    · exact hunmarked c (Text.mem_of_mem_piecesWhere hs hc)
    · nomatch hs
  cases mark with
  | nil => rw [List.append_nil, Specifier.beforeMark_of_all hclean]
  | cons c mark =>
    have hc := hmark c rfl
    have hslash : Specifier.isSlash c = false := by
      rw [Bool.eq_false_iff]
      intro hslash
      rcases Bool.or_eq_true_iff.1 hslash with hslash | hslash
      · rw [of_decide_eq_true hslash] at hc
        cases hc
      · rw [of_decide_eq_true hslash] at hc
        cases hc
    obtain ⟨above, e, below, hshort, hlong⟩ := exists_cleanSegments_append hpath hname hslash hdown
    rw [hshort] at hclean ⊢
    obtain ⟨habove, hbase⟩ := List.forall_mem_append.1 hclean
    have hbase := List.all_eq_true.1 (hbase _ (List.mem_singleton_self _))
    have hmarked : (Specifier.basename path ++ c :: e).all Specifier.isUnmarked = false := by
      rw [List.all_append, List.all_cons, hc, Bool.false_and, Bool.and_false]
    have hcut : (Specifier.basename path ++ c :: e).takeWhile Specifier.isUnmarked =
        Specifier.basename path :=
      (Text.span_append hbase fun d hd => by rwa [← Option.some.inj hd]).1
    rw [hlong, Specifier.beforeMark_append habove hmarked, hcut]

/-- The query of a link to a module is cut off of its specifier again. -/
theorem IsPlainLink.stripQuery_clean {link : String} (h : IsPlainLink link)
    (hname : isModuleName (Specifier.basename (pathPart link.toList)) = true) :
    Specifier.stripQuery ("." ++ Specifier.clean link) =
      "." ++ Specifier.clean (Specifier.stripQuery link) := by
  have hstrip : (Specifier.stripQuery link).toList = pathPart link.toList := String.toList_ofList
  have hsplit := List.takeWhile_append_dropWhile (p := Specifier.isUnmarked) (l := link.toList)
  have hmark : ∀ c ∈ (link.toList.dropWhile Specifier.isUnmarked).head?,
      Specifier.isUnmarked c = false := by
    have hhead := List.head?_dropWhile_not Specifier.isUnmarked link.toList
    intro c hc
    rw [hc] at hhead
    exact hhead
  have hbefore := beforeMark_cleanSegments h.path (fun _ hc => List.mem_takeWhile_imp hc) hname hmark
    h.staysDown
  rw [pathPart, hsplit] at hbefore
  rw [← String.toList_inj, Specifier.toList_stripQuery_clean, hbefore, String.toList_append,
    Specifier.toList_clean, hstrip]
  rfl

theorem IsPlainLink.isRemote {link : String} (h : IsPlainLink link) :
    Specifier.isRemote link = false := by
  rw [Bool.eq_false_iff]
  intro hremote
  obtain ⟨scheme, rest, hweb, hlink⟩ := Specifier.exists_of_isRemote hremote
  have hall : ∀ c ∈ scheme ++ [':'], Specifier.isUnmarked c = true := by
    rcases hweb with rfl | rfl
    · exact Text.forall_mem_of_all (by decide)
    · exact Text.forall_mem_of_all (by decide)
  have hpath : pathPart link.toList = scheme ++ ':' :: pathPart rest := by
    rw [hlink, List.append_cons, pathPart, List.takeWhile_append_of_pos hall, ← List.append_cons]
    rfl
  have hnone := h.noScheme
  rw [hpath, Url.schemeOf?_web hweb] at hnone
  cases hnone

theorem IsPlainLink.isModuleLink_eq {link : String} (h : IsPlainLink link) :
    isModuleLink link = isModuleName (Specifier.basename (pathPart link.toList)) := by
  rw [isModuleLink, h.isRemote, Bool.not_false, Bool.true_and, ← isModulePath_eq, isModulePath]

/-- Whether a plain link leads to where remote modules are mounted. -/
def leadsToMount (link : String) : Bool :=
  Specifier.mountPoint.isPrefixOf (plainText (pathPart link.toList))

/-- A plain link means the same to the build and to a browser, unless it names a module in the
mount, which the build takes for a file. -/
theorem agrees_iff_of_isPlainLink {page : Url} (hpage : IsRootPage page) {link : String}
    (h : IsPlainLink link) :
    Agrees page link ↔ ¬(isModuleLink link = true ∧ leadsToMount link = true) := by
  obtain ⟨u, hu, horigin, hpath⟩ := h.exists_join hpage
  have htext : u.path.toText = urlText (pathPart link.toList) := by rw [hpath, urlText]
  have hasked : asked? page link = if isModuleLink link then
      some (ModuleRequest.parse (String.ofList (urlText (pathPart link.toList)))
        (u.query.map String.ofList)).specifier else none := by
    rw [asked?, hu]
    dsimp only
    rw [htext, horigin, isModulePath_urlText h.path, Bool.true_and, h.isModuleLink_eq]
  rw [Agrees, linked?, hasked]
  by_cases hmodule : isModuleLink link = true
  · have hname := h.isModuleLink_eq ▸ hmodule
    have hcut := h.stripQuery_clean hname
    have hlocal : Specifier.isRemote ("." ++ Specifier.clean (Specifier.stripQuery link)) = false :=
      Specifier.IsCanonical.isRemote ⟨_, rfl⟩
    rw [if_pos hmodule, if_pos hmodule, Option.map_some, Option.map_some, hcut, leadsToMount,
      List.isPrefixOf_iff_prefix]
    by_cases hmount : Specifier.mountPoint <+: plainText (pathPart link.toList)
    · -- the server reads a remote module of the path, the build a local one
      have hremote := Specifier.isRemote_stripQuery
        (isRemote_parse_urlText hmount (u.query.map String.ofList))
      refine iff_of_false (fun heq => ?_) fun hnot => hnot ⟨hmodule, hmount⟩
      rw [← Option.some.inj heq, hlocal] at hremote
      cases hremote
    · have hspecifier := ofRequestPath_urlText h.path hmount
      have hstrip : String.ofList (pathPart link.toList) = Specifier.stripQuery link := rfl
      refine iff_of_true ?_ fun hboth => hmount hboth.2
      rw [ModuleRequest.parse, hspecifier, hstrip, hlocal]
      show some _ = some (Specifier.stripQuery ("." ++ Specifier.clean (Specifier.stripQuery link)))
      rw [← hcut, Specifier.stripQuery_stripQuery]
  · rw [if_neg hmodule, if_neg hmodule]
    exact iff_of_true rfl fun hboth => hmodule hboth.1

/-! ## The links of a page -/

theorem linked?_eq_none_iff {link : String} : linked? link = none ↔ isModuleLink link = false := by
  unfold linked?
  by_cases h : isModuleLink link = true
  · rw [if_pos h, h]
    simp
  · rw [if_neg h]
    simpa using h

/-- A link that nothing is asked for by is left alone exactly if it is not taken for a module. -/
theorem agrees_iff_of_asked?_eq_none {page : Url} {link : String} (h : asked? page link = none) :
    Agrees page link ↔ isModuleLink link = false := by
  rw [Agrees, h, Option.map_none, Option.map_eq_none_iff, linked?_eq_none_iff]

theorem agrees_iff_of_isRemote {page : Url} {link : String}
    (h : Specifier.isRemote link = true) : Agrees page link ↔ asked? page link = none := by
  have hnone : linked? link = none := by
    rw [linked?_eq_none_iff, isModuleLink, h]
    rfl
  rw [Agrees, hnone, Option.map_none, eq_comm, Option.map_eq_none_iff]

/-- A link that leads away from the server of the page. -/
def LeavesServer (page : Url) (link : String) : Prop :=
  ∀ u, page.join link = .ok u → isSameOrigin u page = false

theorem asked?_of_leavesServer {page : Url} {link : String} (h : LeavesServer page link) :
    asked? page link = none := by
  unfold asked?
  split
  · rfl
  · rename_i u hu
    dsimp only
    rw [h u hu, Bool.false_and]
    rfl

theorem pageModules_eq {d : Disk} {html : String}
    (h : d.readText (d.pathOf "index.html") = .ok html) :
    pageModules d = .ok ((Markup.links html).filterMap linked?) := by
  have hlinks (links : List String) : links.filterMap linked? =
      (links.filter isModuleLink).map fun link => "." ++ Specifier.clean link := by
    induction links with
    | nil => rfl
    | cons link links ih =>
      by_cases hlink : isModuleLink link = true
      · rw [List.filter_cons_of_pos hlink, List.map_cons, ← ih]
        exact List.filterMap_cons_some (if_pos hlink)
      · rw [List.filter_cons_of_neg hlink, ← ih]
        exact List.filterMap_cons_none (if_neg hlink)
  unfold pageModules
  dsimp only
  rw [h, hlinks]

/-- The modules that the build takes from a page are those that its links are taken for, and of each
link: if it is plain, it means the same to a browser on the page, unless it names a module in the
mount; if it leads away from the server, it does so unless it is taken for a module; and if it begins
with `http://` or `https://`, it does so unless a browser asks the server for a module by it. -/
theorem pageModules_asked {d : Disk} {html : String}
    (h : d.readText (d.pathOf "index.html") = .ok html) {page : Url} (hpage : IsRootPage page) :
    pageModules d = .ok ((Markup.links html).filterMap linked?) ∧
      ∀ link ∈ Markup.links html,
        (IsPlainLink link →
          (Agrees page link ↔ ¬(isModuleLink link = true ∧ leadsToMount link = true))) ∧
        (LeavesServer page link → (Agrees page link ↔ isModuleLink link = false)) ∧
        (Specifier.isRemote link = true → (Agrees page link ↔ asked? page link = none)) :=
  ⟨pageModules_eq h, fun _ _ => ⟨agrees_iff_of_isPlainLink hpage,
    fun haway => agrees_iff_of_asked?_eq_none (asked?_of_leavesServer haway),
    agrees_iff_of_isRemote⟩⟩

/-- The address of the page at the root of a server. -/
def homePage : Url :=
  ⟨"http".toList, [], [], some "localhost".toList, some 3000, .rooted [[]], none, none⟩

/-- An app that has nothing but its page. -/
def pageOnly (html : String) : Disk := ⟨"/app", Dict.ofList [("index.html", .file html.toUTF8)]⟩

theorem leavesServer_cdn : LeavesServer homePage "//cdn.dev/x.js" := by
  have hjoin : homePage.join "//cdn.dev/x.js" = .ok { homePage with
      host := some "cdn.dev".toList, port := none, path := .rooted ["x.js".toList] } := by
    decide +kernel
  intro u hu
  cases hjoin.symm.trans hu
  decide

/-- A page with a link to the app and two to other servers, the first of them without a scheme. -/
def linkingPage : String :=
  "<link href='/style/app.css?v=1'><script src='//cdn.dev/x.js'></script>" ++
    "<script src='https://cdn.dev/y.js'></script>"

/-- The link to the app is taken for its module and means it.  Of the others, which lead away, the
one without a scheme is taken for a module of the app, and the one with a scheme is left out. -/
theorem pageModules_asked_three :
    Url.parse "http://localhost:3000/" = .ok homePage ∧
    pageModules (pageOnly linkingPage) = .ok ["./style/app.css?v=1", "./cdn.dev/x.js"] ∧
    Agrees homePage "/style/app.css?v=1" ∧ ¬Agrees homePage "//cdn.dev/x.js" ∧
    Agrees homePage "https://cdn.dev/y.js" := by
  have hlinks : Markup.links linkingPage =
      ["/style/app.css?v=1", "//cdn.dev/x.js", "https://cdn.dev/y.js"] := by decide +kernel
  have hread : (pageOnly linkingPage).readText ((pageOnly linkingPage).pathOf "index.html") =
      .ok linkingPage := by decide +kernel
  have hroot : IsRootPage homePage := ⟨Or.inl rfl, rfl⟩
  obtain ⟨hmodules, hmeans⟩ := pageModules_asked hread hroot
  rw [hlinks] at hmodules hmeans
  have hplain : IsPlainLink "/style/app.css?v=1" :=
    ⟨by decide +kernel, by decide +kernel,
      ⟨Text.forall_mem_of_all (by decide +kernel), by decide +kernel, by decide +kernel⟩,
      by decide +kernel⟩
  refine ⟨by decide +kernel, hmodules.trans (by decide +kernel), ?_, ?_, ?_⟩
  · exact ((hmeans _ (by simp)).1 hplain).2 (by decide +kernel)
  · exact fun h => absurd (((hmeans _ (by simp)).2.1 leavesServer_cdn).1 h) (by decide +kernel)
  · exact ((hmeans _ (by simp)).2.2 (by decide +kernel)).2 (by decide +kernel)

/-- A link to another server that leaves the scheme out is taken for a module of the app. -/
theorem pageModules_foreign :
    Markup.links "<script src='//cdn.dev/x.js'></script>" = ["//cdn.dev/x.js"] ∧
    IsRootPage homePage ∧ LeavesServer homePage "//cdn.dev/x.js" ∧
    pageModules (pageOnly "<script src='//cdn.dev/x.js'></script>") = .ok ["./cdn.dev/x.js"] ∧
    ¬Agrees homePage "//cdn.dev/x.js" := by
  have hlinked : linked? "//cdn.dev/x.js" = some "./cdn.dev/x.js" := by decide +kernel
  refine ⟨by decide +kernel, ⟨Or.inl rfl, rfl⟩, leavesServer_cdn, by decide +kernel, fun h => ?_⟩
  rw [Agrees, hlinked, asked?_of_leavesServer leavesServer_cdn] at h
  cases h

end Waymark.Build
