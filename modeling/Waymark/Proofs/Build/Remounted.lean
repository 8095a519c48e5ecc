import Waymark.Proofs.Build.Imported
import Waymark.Proofs.Specifier.SavePath
/-!
# Remote modules are found again

The mount of a remote module puts the parts of its URL into one path: plain `http` is a
mark in front of the host, a port follows an underscore behind it, and the path and the
query stand after that as they are.  A URL that has the one written form, and of which the
mount leaves nothing out, is read back from its mount, and from its mount with a version in
the query.

There is one exception.  The mark is told from a host by its letters only, and they are
those of the host `http` with the underscore of a port: at that host and a port, the scheme
`https` is lost and the port is taken for the host.

## Main results

* `ModuleRequest.parse_kept` — what the server passes on of a query.
* `Specifier.originOf_mountHost`, `Specifier.originOf_hidden` — the origin that a mount is read as.
* `Specifier.IsMountable.ofRequestPath_mountPath_iff` — which mounts are read back.
* `Build.ofUrl_mount_iff` — the same of requests, with and without a version.
* `Build.parse_versionedUrl` — a client sends the mount as it is, where the host allows it.
-/

namespace Waymark

/-! ## Queries that are passed on -/

namespace ModuleRequest

/-- A query of which the server reads nothing itself: no pair is empty, and none is the version
or the wish for a script. -/
def IsPassedOn (query : List Char) : Prop :=
  ∀ pair ∈ Text.pieces '&' query,
    pair ≠ [] ∧ pairKey pair ≠ "v".toList ∧ pairKey pair ≠ "module".toList

/-- The query with a version behind it. -/
def withVersion (query : Option (List Char)) (v : Version) : List Char :=
  match query with
  | some query => query ++ '&' :: Script.versionPair v
  | none => Script.versionPair v

/-- The pairs of a query that may be missing. -/
def pairsOf (query : Option (List Char)) : List (List Char) :=
  (query.map (Text.pieces '&')).getD []

section
variable {query : Option (List Char)}

theorem queryPairs_of_isPassedOn {query : List Char} (h : IsPassedOn query) :
    queryPairs query = Text.pieces '&' query :=
  List.filter_eq_self.2 fun pair hpair => decide_eq_true (h pair hpair).1

theorem queryPairs_getD (h : ∀ q ∈ query, IsPassedOn q) :
    queryPairs (query.getD []) = pairsOf query := by
  cases query with
  | none => rfl
  | some q => exact queryPairs_of_isPassedOn (h q rfl)

theorem queryPairs_withVersion (h : ∀ q ∈ query, IsPassedOn q) (v : Version) :
    queryPairs (withVersion query v) = pairsOf query ++ [Script.versionPair v] := by
  have hversion : queryPairs (Script.versionPair v) = [Script.versionPair v] :=
    Text.segments_of_notMem (List.cons_ne_nil _ _) (Script.notMem_versionPair v)
  cases query with
  | none => exact hversion
  | some q =>
    have hsplit : queryPairs (q ++ '&' :: Script.versionPair v) =
        queryPairs q ++ queryPairs (Script.versionPair v) := Text.segments_append_cons '&' q _
    rw [withVersion, hsplit, hversion, queryPairs_of_isPassedOn (h q rfl)]
    rfl

theorem pairKey_ne_of_mem_pairsOf (h : ∀ q ∈ query, IsPassedOn q) {pair : List Char}
    (hpair : pair ∈ pairsOf query) :
    pairKey pair ≠ "v".toList ∧ pairKey pair ≠ "module".toList := by
  cases query with
  | none => nomatch hpair
  | some q => exact (h q rfl pair hpair).2

/-- A remote module keeps what the server does not read: of a query that is passed on, all, whatever
versions follow it. -/
theorem parse_kept {path : String} (hremote : Specifier.isRemote (Specifier.ofRequestPath path) = true)
    (h : ∀ q ∈ query, IsPassedOn q) {sent : Option String} {versions : List (List Char)}
    (hsent : queryPairs ((sent.map String.toList).getD []) = pairsOf query ++ versions)
    (hversions : ∀ pair ∈ versions, pairKey pair = "v".toList) :
    parse path sent =
      ⟨Specifier.ofRequestPath path ++ String.ofList (Url.queryText query), false⟩ := by
  have hkept : (pairsOf query).filter (!isConsumed ·) = pairsOf query := by
    apply List.filter_eq_self.2
    intro pair hpair
    obtain ⟨hv, hmodule⟩ := pairKey_ne_of_mem_pairsOf h hpair
    rw [isConsumed, decide_eq_false hv, decide_eq_false hmodule]
    rfl
  have hread : versions.filter (!isConsumed ·) = [] := by
    apply List.filter_eq_nil_iff.2
    intro pair hpair
    rw [isConsumed, decide_eq_true (hversions pair hpair), Bool.or_true]
    exact Bool.false_ne_true
  have hscript : ((pairsOf query ++ versions).any fun pair => pairKey pair = "module".toList) =
      false := by
    apply List.any_eq_false.2
    intro pair hpair
    rcases List.mem_append.1 hpair with hpair | hpair
    · exact fun hkey => (pairKey_ne_of_mem_pairsOf h hpair).2 (of_decide_eq_true hkey)
    · rw [hversions pair hpair]
      decide
  unfold parse
  rw [hsent]
  dsimp only
  rw [List.filter_append, hkept, hread, List.append_nil, hscript, hremote]
  cases query with
  | none =>
    show (⟨Specifier.ofRequestPath path, false⟩ : ModuleRequest) = ⟨_ ++ String.ofList [], false⟩
    rw [String.ofList_nil, String.append_empty]
  | some q =>
    have hne : (pairsOf (some q)).isEmpty = false := by
      rw [List.isEmpty_eq_false_iff]
      exact Text.piecesWhere_ne_nil _ q
    have hjoin : Text.joinPieces '&' (pairsOf (some q)) = q := Text.joinPieces_pieces '&' q
    rw [hne, hjoin]
    rfl

end

end ModuleRequest

namespace Specifier

/-! ## Origins -/

/-- The origin that the host segment of a mount is read as. -/
def originOf (segment : List Char) : List Char :=
  match List.isPrefixOf? plainMarker segment with
  | some host => "http".toList ++ "://".toList ++ unmountHost host
  | none => "https".toList ++ "://".toList ++ unmountHost segment

theorem ofRequestPath_mounted {segment : List Char} (h : '/' ∉ segment) (tail : List Char) :
    ofRequestPath (String.ofList (mountPoint ++ segment ++ '/' :: tail)) =
      String.ofList (originOf segment ++ '/' :: tail) := by
  have hmount : List.isPrefixOf? mountPoint (mountPoint ++ segment ++ '/' :: tail) =
      some (segment ++ '/' :: tail) := by
    rw [List.append_assoc, Text.isPrefixOf?_append]
  unfold ofRequestPath originOf
  rw [String.toList_ofList, hmount]
  dsimp only
  rw [Text.cut_append tail h, Option.getD_some]
  dsimp only
  cases List.isPrefixOf? plainMarker segment with
  | none => rfl
  | some host => rfl

/-- The port in a mount, with the underscore in front. -/
def portMark (port : Option Nat) : List Char := (port.map ('_' :: Url.decimal ·)).getD []

theorem mountHost_eq {u : Url} {host : List Char} (h : u.host = some host) :
    mountHost u =
      (if u.scheme = "http".toList then plainMarker else []) ++ (host ++ portMark u.port) := by
  unfold mountHost portMark
  rw [h]
  cases u.port with
  | none => exact List.append_assoc ..
  | some port => exact List.append_assoc ..

theorem notMem_decimal (n : Nat) : '_' ∉ Url.decimal n := fun hmem =>
  absurd (Url.isDomainChar_decimal hmem).2.1 (by decide)

theorem unmountHost_of_notMem {host : List Char} (h : '_' ∉ host) : unmountHost host = host := by
  rw [unmountHost, Text.cutLast_eq_none h]

theorem unmountHost_append {host : List Char} (h : '_' ∉ host) (port : Option Nat) :
    unmountHost (host ++ portMark port) = host ++ Url.portText port := by
  cases port with
  | none =>
    show unmountHost (host ++ []) = host ++ []
    rw [List.append_nil, unmountHost_of_notMem h]
  | some port =>
    have hdigits : (Url.decimal port).all Char.isDigit = true :=
      List.all_eq_true.2 fun c hc => (Url.isDomainChar_decimal hc).2.1
    show unmountHost (host ++ '_' :: Url.decimal port) = host ++ ':' :: Url.decimal port
    rw [unmountHost, Text.cutLast_append host (notMem_decimal port)]
    exact if_pos ⟨Url.decimal_ne_nil port, hdigits⟩

/-- A URL whose host and port are read as the mark of plain `http` and a host. -/
def HidesScheme (u : Url) : Prop :=
  u.scheme = "https".toList ∧ u.host = some "http".toList ∧ u.port.isSome = true

instance (u : Url) : Decidable (HidesScheme u) := inferInstanceAs (Decidable (_ ∧ _ ∧ _))

/-- A host without underscores begins with the mark only if it is all of it but the underscore. -/
theorem eq_of_marked {host : List Char} (h : '_' ∉ host) {port : Option Nat}
    (hmark : plainMarker <+: host ++ portMark port) :
    host = "http".toList ∧ port.isSome = true := by
  obtain ⟨rest, hrest⟩ := hmark
  have hmarked : Text.cut '_' (host ++ portMark port) = some ("http".toList, rest) := by
    rw [← hrest]
    exact Text.cut_append (c := '_') (a := "http".toList) rest (by decide)
  cases port with
  | none =>
    have hnone : Text.cut '_' (host ++ []) = none := by
      rw [List.append_nil]
      exact Text.cut_eq_none_iff.2 h
    exact absurd (hmarked.symm.trans hnone) (by simp)
  | some port =>
    have hcut : Text.cut '_' (host ++ portMark (some port)) = some (host, Url.decimal port) :=
      Text.cut_append _ h
    obtain ⟨hhost, -⟩ := Prod.mk.inj (Option.some.inj (hcut.symm.trans hmarked))
    exact ⟨hhost, rfl⟩

/-- The origin of a mount is that of the URL, unless its scheme is hidden. -/
theorem originOf_mountHost {u : Url} {host : List Char} (hweb : Url.IsWeb u.scheme)
    (hhost : u.host = some host) (h : '_' ∉ host) (hshown : ¬HidesScheme u) :
    originOf (mountHost u) = u.scheme ++ "://".toList ++ (host ++ Url.portText u.port) := by
  rw [mountHost_eq hhost, originOf]
  rcases hweb with hscheme | hscheme
  · rw [hscheme, if_pos rfl, Text.isPrefixOf?_append]
    dsimp only
    rw [unmountHost_append h]
  · have hnot : ¬plainMarker <+: host ++ portMark u.port := by
      intro hmark
      obtain ⟨rfl, hport⟩ := eq_of_marked h hmark
      exact hshown ⟨hscheme, hhost, hport⟩
    rw [hscheme, if_neg (by decide), List.nil_append, Text.isPrefixOf?_eq_none hnot]
    dsimp only
    rw [unmountHost_append h]

/-- A hidden scheme is read as `http`, and the port as the host. -/
theorem originOf_hidden {u : Url} (h : HidesScheme u) {port : Nat} (hport : u.port = some port) :
    originOf (mountHost u) = "http".toList ++ "://".toList ++ Url.decimal port := by
  have hmount : mountHost u = plainMarker ++ Url.decimal port := by
    rw [mountHost_eq h.2.1, h.1, hport, if_neg (by decide)]
    rfl
  rw [hmount, originOf, Text.isPrefixOf?_append]
  dsimp only
  rw [unmountHost_of_notMem (notMem_decimal port)]

/-! ## Mounts -/

theorem isRemote_ofRequestPath_mountPath (u : Url) :
    isRemote (ofRequestPath (String.ofList (mountPath u))) = true := by
  apply isRemote_ofRequestPath
  rw [String.toList_ofList, mountPath, List.append_assoc]
  exact List.prefix_append _ _

/-- A remote module whose URL has the one written form, and of which the mount leaves nothing out:
neither credentials nor a fragment, nor slashes at the end of its path, nor a part of its query. -/
structure IsMountable (s : Specifier) (u : Url) : Prop where
  parses : Url.parse s = .ok u
  written : u.toText = s.toList
  web : Url.IsWeb u.scheme
  host : ∀ host, u.host = some host → '_' ∉ host
  anonymous : u.username = [] ∧ u.password = []
  path : u.path.toText.getLast? ≠ some '/'
  query : ∀ q ∈ u.query, ModuleRequest.IsPassedOn q
  fragment : u.fragment = none

namespace IsMountable

variable {s : Specifier} {u : Url}

theorem isWritten (h : IsMountable s u) : Url.IsWritten u := Url.isWritten_of_parse h.parses h.web

theorem isRemote (h : IsMountable s u) : isRemote s = true := by
  obtain ⟨host, hhost, -⟩ := h.isWritten.host
  have hs : s.toList = u.toText := h.written.symm
  rw [Specifier.isRemote, hs, Url.toText, Url.authority_eq hhost]
  rcases h.web with hscheme | hscheme
  · rw [hscheme]
    rfl
  · rw [hscheme]
    rfl

theorem exists_path (h : IsMountable s u) : ∃ tail, u.path.toText = '/' :: tail := by
  obtain ⟨segments, hpath, hne, -⟩ := h.isWritten.path
  rw [hpath]
  cases segments with
  | nil => exact absurd rfl hne
  | cons segment segments => exact ⟨_, rfl⟩

theorem mountPath_eq (h : IsMountable s u) :
    mountPath u = mountPoint ++ mountHost u ++ u.path.toText := by
  rw [mountPath, Text.dropEndWhile_eq_self h.path]

theorem toList_eq (h : IsMountable s u) {host : List Char} (hhost : u.host = some host) :
    s.toList = u.scheme ++ "://".toList ++ (host ++ Url.portText u.port) ++ u.path.toText ++
      Url.queryText u.query := by
  have hcredentials : u.credentials = [] := if_pos h.anonymous
  rw [← h.written, Url.toText_eq, Url.authority_eq hhost, hcredentials, h.fragment]
  simp [Url.queryText]

/-- A mount is read back exactly if the scheme of the URL is not hidden in it. -/
theorem ofRequestPath_mountPath_iff (h : IsMountable s u) :
    ofRequestPath (String.ofList (mountPath u)) ++ String.ofList (Url.queryText u.query) = s ↔
      ¬HidesScheme u := by
  obtain ⟨host, hhost, -⟩ := h.isWritten.host
  obtain ⟨tail, htail⟩ := h.exists_path
  have hread : ofRequestPath (String.ofList (mountPath u)) =
      String.ofList (originOf (mountHost u) ++ u.path.toText) := by
    rw [h.mountPath_eq, htail, ofRequestPath_mounted (notMem_mountHost h.isWritten)]
  rw [hread, ← String.toList_inj, String.toList_append, String.toList_ofList, String.toList_ofList]
  constructor
  · intro heq hhidden
    obtain ⟨port, hport⟩ := Option.isSome_iff_exists.1 hhidden.2.2
    rw [originOf_hidden hhidden hport, h.toList_eq hhost, hhidden.1] at heq
    -- where one text has the colon, the other has the letter of the scheme that was lost
    have hfifth : some ':' = some 's' := congrArg (·[4]?) heq
    exact absurd hfifth (by decide)
  · intro hshown
    rw [originOf_mountHost h.web hhost (h.host host hhost) hshown, h.toList_eq hhost]

theorem serverPath_eq (h : IsMountable s u) :
    serverPath s = String.ofList (mountPath u ++ Url.queryText u.query) := by
  rw [serverPath, h.isRemote, if_pos rfl, h.parses, ← mountOf_eq]

end IsMountable
end Specifier

namespace Build

open ModuleRequest Specifier

theorem ofUrl_queryText {path : List Char} (hmark : '?' ∉ path) (hpath : '#' ∉ path)
    {query : Option (List Char)} (hquery : '#' ∉ Url.queryText query) :
    ofUrl (String.ofList (path ++ Url.queryText query)) =
      parse (String.ofList path) (query.map String.ofList) := by
  cases query with
  | none =>
    show ofUrl (String.ofList (path ++ [])) = _
    rw [List.append_nil, ofUrl_path hmark hpath]
    rfl
  | some query =>
    show ofUrl (String.ofList (path ++ '?' :: query)) = _
    rw [ofUrl_query hmark hpath, before_eq_self fun hmem => hquery (List.mem_cons_of_mem _ hmem)]
    rfl

section
variable {s : Specifier} {u : Url}

/-- What is read from a mount with its query, or with one that has versions behind it. -/
theorem ofUrl_mountPath_iff (h : IsMountable s u) {sent : Option (List Char)}
    {versions : List (List Char)} (hhash : '#' ∉ Url.queryText sent)
    (hsent : queryPairs (sent.getD []) = pairsOf u.query ++ versions)
    (hversions : ∀ pair ∈ versions, pairKey pair = "v".toList) :
    ofUrl (String.ofList (mountPath u ++ Url.queryText sent)) = ⟨s, false⟩ ↔ ¬HidesScheme u := by
  have hpairs : queryPairs (((sent.map String.ofList).map String.toList).getD []) =
      pairsOf u.query ++ versions := by
    rw [← hsent]
    cases sent with
    | none => rfl
    | some query => exact congrArg queryPairs String.toList_ofList
  rw [ofUrl_queryText (notMem_mountPath h.isWritten (by decide))
      (notMem_mountPath h.isWritten (by decide)) hhash,
    parse_kept (isRemote_ofRequestPath_mountPath u) h.query hpairs hversions,
    ← h.ofRequestPath_mountPath_iff]
  exact ⟨fun heq => congrArg ModuleRequest.specifier heq, fun heq => by rw [heq]⟩

theorem isEncoded_withVersion (h : IsMountable s u) (v : Version) :
    Percent.IsEncoded (Url.keepsInQuery true) (withVersion u.query v) := by
  have hversion : Percent.IsEncoded (Url.keepsInQuery true) ('&' :: Script.versionPair v) := by
    intro c hc
    rcases List.mem_append.1 (show c ∈ "&v=".toList ++ v.token.toList from hc) with hc | hc
    · exact Text.forall_mem_of_all
        (P := fun c => (decide (c.toNat < 128) && Url.keepsInQuery true c) = true) (by decide) c hc
    · rw [Version.token, String.toList_ofList] at hc
      obtain ⟨d, hd, rfl⟩ := exists_of_mem_toDigits (by decide) hc
      exact (by decide : ∀ d < 16, (decide ((Nat.digitChar d).toNat < 128) &&
        Url.keepsInQuery true (Nat.digitChar d)) = true) d hd
  have hquery := h.isWritten.query
  unfold withVersion
  cases hq : u.query with
  | none => exact fun c hc => hversion c (List.mem_cons_of_mem _ hc)
  | some query =>
    intro c hc
    rcases List.mem_append.1 hc with hc | hc
    · exact hquery query hq c hc
    · exact hversion c hc

theorem notMem_withVersion (h : IsMountable s u) (v : Version) :
    '#' ∉ Url.queryText (some (withVersion u.query v)) := by
  apply Url.notMem_queryText
  intro query hquery
  obtain rfl := Option.some.inj hquery
  exact isEncoded_withVersion h v

/-- The URL of a remote module on a server of this machine. -/
theorem versionedUrl_eq (h : IsMountable s u) (port : Nat) (v : Version) :
    versionedUrl port s v = "http://127.0.0.1:" ++ toString port ++
      String.ofList (mountPath u ++ Url.queryText (some (withVersion u.query v))) := by
  have hmark : '?' ∉ mountPath u := notMem_mountPath h.isWritten (by decide)
  unfold versionedUrl
  rw [h.isRemote, if_pos rfl, h.serverPath_eq]
  dsimp only
  generalize "http://127.0.0.1:" ++ toString port = origin
  rw [String.toList_ofList, ← String.toList_inj]
  unfold withVersion Script.versionPair
  cases u.query with
  | none =>
    rw [if_neg (by simpa [Url.queryText] using hmark)]
    simp [Url.queryText]
  | some query =>
    rw [if_pos (by simp [Url.queryText])]
    simp [Url.queryText]

/-- The request for a remote module of whose URL the mount leaves nothing out is read back as that
module, no script being wanted, exactly if its scheme is not hidden in the mount; and so is its URL
on a server of this machine, whatever the version. -/
theorem ofUrl_mount_iff (h : IsMountable s u) :
    ('#' ∉ (requestPath s).toList ∧ (ofUrl (requestPath s) = ⟨s, false⟩ ↔ ¬HidesScheme u)) ∧
      ∀ port v, ∃ target,
        versionedUrl port s v = "http://127.0.0.1:" ++ toString port ++ target ∧
        target.toList.head? = some '/' ∧ '#' ∉ target.toList ∧
        (ofUrl target = ⟨s, false⟩ ↔ ¬HidesScheme u) := by
  have hhash : '#' ∉ mountPath u := notMem_mountPath h.isWritten (by decide)
  have hquery : '#' ∉ Url.queryText u.query := Url.notMem_queryText h.isWritten.query
  have hrequest : requestPath s = String.ofList (mountPath u ++ Url.queryText u.query) := by
    rw [requestPath_of_isRemote h.isRemote, h.serverPath_eq]
  have hpairs : queryPairs (u.query.getD []) = pairsOf u.query ++ [] := by
    rw [queryPairs_getD h.query, List.append_nil]
  refine ⟨⟨?_, ?_⟩, fun port v => ⟨_, versionedUrl_eq h port v, ?_, ?_, ?_⟩⟩
  · rw [hrequest, String.toList_ofList, List.mem_append, not_or]
    exact ⟨hhash, hquery⟩
  · rw [hrequest]
    exact ofUrl_mountPath_iff h hquery hpairs fun pair hpair => nomatch hpair
  · rw [String.toList_ofList]
    rfl
  · rw [String.toList_ofList, List.mem_append, not_or]
    exact ⟨hhash, notMem_withVersion h v⟩
  · apply ofUrl_mountPath_iff h (notMem_withVersion h v) (queryPairs_withVersion h.query v)
    intro pair hpair
    rw [List.mem_singleton.1 hpair, Script.pairKey_versionPair]

/-- A module at a plain origin with a port, and with a query, is read back. -/
theorem ofUrl_mount_iff_port :
    let s : Specifier := "http://localhost:2020/mod.ts?dev&x=1"
    ofUrl (requestPath s) = ⟨s, false⟩ ∧
      ∃ target, versionedUrl 6060 s 255 = "http://127.0.0.1:" ++ toString 6060 ++ target ∧
        ofUrl target = ⟨s, false⟩ := by
  intro s
  have h : IsMountable s ⟨"http".toList, [], [], some "localhost".toList, some 2020,
      .rooted ["mod.ts".toList], some "dev&x=1".toList, none⟩ :=
    { parses := by decide +kernel
      written := by decide +kernel
      web := Or.inl rfl
      host := by
        intro host hhost
        obtain rfl := Option.some.inj hhost
        decide
      anonymous := ⟨rfl, rfl⟩
      path := by decide
      query := by
        intro q hq
        obtain rfl := Option.some.inj hq
        unfold IsPassedOn
        decide
      fragment := rfl }
  obtain ⟨⟨-, hrequest⟩, hurls⟩ := ofUrl_mount_iff h
  obtain ⟨target, hurl, -, -, hread⟩ := hurls 6060 255
  exact ⟨hrequest.2 (by decide), target, hurl, hread.2 (by decide)⟩

/-- A module at the host `http` and a port is read as one at a host that is the port. -/
theorem mount_hides_scheme :
    let s : Specifier := "https://http:8080/mod.ts"
    IsMountable s ⟨"https".toList, [], [], some "http".toList, some 8080,
        .rooted ["mod.ts".toList], none, none⟩ ∧
      requestPath s = "/-/http_8080/mod.ts" ∧
      versionedUrl 6060 s 255 = "http://127.0.0.1:6060/-/http_8080/mod.ts?v=ff" ∧
      ofUrl "/-/http_8080/mod.ts" = ⟨"http://8080/mod.ts", false⟩ ∧
      ofUrl "/-/http_8080/mod.ts?v=ff" = ⟨"http://8080/mod.ts", false⟩ := by
  intro s
  refine ⟨?_, by decide +kernel, by decide +kernel, by decide +kernel, by decide +kernel⟩
  exact
    { parses := by decide +kernel
      written := by decide +kernel
      web := Or.inr rfl
      host := by
        intro host hhost
        obtain rfl := Option.some.inj hhost
        decide
      anonymous := ⟨rfl, rfl⟩
      path := by decide
      query := fun q hq => nomatch hq
      fragment := rfl }

/-! ## URLs as they are sent -/

theorem isEncoded_portMark (port : Option Nat) :
    Percent.IsEncoded Url.keepsInPath (portMark port) := by
  intro c hc
  cases port with
  | none => nomatch hc
  | some port =>
    rcases List.mem_cons.1 hc with rfl | hc
    · decide
    · obtain ⟨d, hd, rfl⟩ := exists_of_mem_toDigits (by decide) hc
      exact (by decide : ∀ d < 10, (decide ((Nat.digitChar d).toNat < 128) &&
        Url.keepsInPath (Nat.digitChar d)) = true) d hd

/-- A host that stands for itself in a path does so in a mount. -/
theorem isSegment_mountHost (h : IsMountable s u)
    (hencoded : ∀ host ∈ u.host, Percent.IsEncoded Url.keepsInPath host)
    (hdot : u.host ≠ some ['.']) (hdots : u.host ≠ some ['.', '.']) :
    Url.IsSegment (mountHost u) := by
  have hu := h.isWritten
  have hplain := isPlain_mountHost hu hdot hdots
  have hescape : '%' ∉ mountHost u := fun hmem =>
    forall_mountHost (P := (· ≠ '%')) (Text.forall_mem_of_all (by decide)) (by decide) (by decide)
      hu '%' hmem rfl
  refine ⟨?_, ?_, ?_, ?_⟩
  · obtain ⟨host, hhost, -⟩ := hu.host
    intro c hc
    rw [mountHost_eq hhost] at hc
    rcases List.mem_append.1 hc with hc | hc
    · split at hc
      · exact Text.forall_mem_of_all
          (P := fun c => (decide (c.toNat < 128) && Url.keepsInPath c) = true) (by decide) c hc
      · nomatch hc
    · rcases List.mem_append.1 hc with hc | hc
      · exact hencoded host hhost c hc
      · exact isEncoded_portMark u.port c hc
  · exact forall_mountHost (P := fun c => Url.isSlash true c = false)
      (Text.forall_mem_of_all (by decide)) (by decide) (by decide) hu
  · rw [Bool.eq_false_iff]
    intro hsingle
    have hself := Url.eq_replicate_of_dots (Url.isSingleDot_iff.1 hsingle) hescape
    exact hplain.ne_dot (congrArg String.ofList hself)
  · rw [Bool.eq_false_iff]
    intro hdouble
    have hself := Url.eq_replicate_of_dots (Url.isDoubleDot_iff.1 hdouble) hescape
    exact hplain.ne_dots (congrArg String.ofList hself)

/-- The directory of mounts stands for itself in a path. -/
theorem isSegment_mountPoint : Url.IsSegment ['-'] where
  encoded := List.forall_mem_singleton.2 (by decide)
  noSlash := List.forall_mem_singleton.2 (by decide)
  notSingle := by decide +kernel
  notDouble := by decide +kernel

/-- A client that is given the URL of a remote module sends the mount and the query with the version,
as long as the host stands for itself in a path.  Some hosts do not: they are made of dots, or they
hold a quote or a brace, which is escaped in paths only. -/
theorem parse_versionedUrl (h : IsMountable s u)
    (hencoded : ∀ host ∈ u.host, Percent.IsEncoded Url.keepsInPath host)
    (hdot : u.host ≠ some ['.']) (hdots : u.host ≠ some ['.', '.']) {port : Nat}
    (hport : port ≤ 65535) (hdefault : port ≠ 80) (v : Version) :
    ∃ r, Url.parse (versionedUrl port s v) = .ok r ∧ r.path.toText = mountPath u ∧
      r.query = some (withVersion u.query v) := by
  obtain ⟨segments, hpath, hne, hsegments⟩ := h.isWritten.path
  let r : Url := ⟨"http".toList, [], [], some "127.0.0.1".toList, some port,
    .rooted (['-'] :: mountHost u :: segments), some (withVersion u.query v), none⟩
  have hr : Url.IsWritten r :=
    { scheme := Or.inl rfl
      username := fun c hc => nomatch hc
      password := fun c hc => nomatch hc
      host := ⟨"127.0.0.1".toList, rfl, by decide +kernel⟩
      port := by
        intro p hp
        obtain rfl := Option.some.inj hp
        exact ⟨hport, fun heq => hdefault (Option.some.inj heq).symm⟩
      path := by
        refine ⟨_, rfl, List.cons_ne_nil _ _, ?_⟩
        rw [List.forall_mem_cons, List.forall_mem_cons]
        exact ⟨isSegment_mountPoint, isSegment_mountHost h hencoded hdot hdots, hsegments⟩
      query := by
        intro query hquery
        obtain rfl := Option.some.inj hquery
        exact isEncoded_withVersion h v
      fragment := fun fragment hfragment => nomatch hfragment }
  have htext : r.path.toText = mountPath u := by
    rw [h.mountPath_eq, hpath]
    show '/' :: '-' :: '/' :: (mountHost u ++ _) = _
    rfl
  have hself : toString r = versionedUrl port s v := by
    have hdigits : toString port = String.ofList (Url.decimal port) := rfl
    have horigin : "http://127.0.0.1:" = String.ofList ("http:".toList ++ "//127.0.0.1:".toList) := by
      rw [← String.toList_append, String.ofList_toList]
      rfl
    rw [versionedUrl_eq h, ← htext, hdigits, horigin, ← String.ofList_append, ← String.ofList_append]
    apply congrArg String.ofList
    rw [Url.toText_eq, Url.authority_eq rfl]
    simp [r, Url.credentials, Url.portText, Url.queryText]
  exact ⟨r, hself ▸ Url.parse_toString hr, htext, rfl⟩

end

end Build
end Waymark
