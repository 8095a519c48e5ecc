import Waymark.Proofs.Url.Host
import Waymark.Url
/-!
# The written form of a URL

The parts of a URL with scheme `http` or `https` are in their written form: nothing in
them needs to be escaped, the host is one that is read as itself, and no segment of
the path is left out when the path is walked.  Put together, such parts are read back
as they are.

## Main results

* `parse_toString` — a URL in its written form is read as itself.
-/

namespace Waymark.Url

open Percent

/-! ## Cutting -/

theorem cutHost_of_notMem {a : List Char} (h : ∀ c ∈ a, c ≠ '[' ∧ c ≠ ']') (inBrackets : Bool)
    (hcolon : inBrackets = false → ':' ∉ a) (s : List Char) :
    cutHost inBrackets (a ++ s) = (a ++ (cutHost inBrackets s).1, (cutHost inBrackets s).2) := by
  induction a with
  | nil => rfl
  | cons c a ih =>
    have hc := h c (List.mem_cons_self ..)
    have hpass : ¬(decide (c = ':') && !inBrackets) = true := by
      intro hpass
      simp only [Bool.and_eq_true, decide_eq_true_eq, Bool.not_eq_true'] at hpass
      exact hcolon hpass.2 (hpass.1 ▸ List.mem_cons_self ..)
    have ih := ih (fun d hd => h d (List.mem_cons_of_mem _ hd))
      fun hb hmem => hcolon hb (List.mem_cons_of_mem _ hmem)
    rw [List.cons_append, cutHost, if_neg hpass, if_neg hc.1, if_neg hc.2]
    dsimp only
    rw [ih]
    rfl

/-- The host ends where its port begins. -/
theorem cutHost_append {s host rest : List Char} (h : readHost s = .ok host)
    (hrest : ∀ c ∈ rest.head?, c = ':') : cutHost false (host ++ rest) = (host, rest) := by
  have hend : cutHost false rest = ([], rest) := by
    cases rest with
    | nil => rfl
    | cons c rest =>
      obtain rfl := hrest c rfl
      rfl
  rcases readHost_cases h with ⟨hdomain, -, -⟩ | ⟨pieces, -, -, rfl⟩
  · have hchars : ∀ c ∈ host, c ≠ '[' ∧ c ≠ ']' := fun c hc =>
      ⟨hdomain.ne_of_mem hc (by decide), hdomain.ne_of_mem hc (by decide)⟩
    have hcolon : ':' ∉ host := fun hc => hdomain.ne_of_mem hc (by decide) rfl
    rw [cutHost_of_notMem hchars false (fun _ => hcolon), hend, List.append_nil]
  · obtain ⟨body, hbody, hchars⟩ := exists_showIpv6 pieces
    have hbrackets : ∀ c ∈ body, c ≠ '[' ∧ c ≠ ']' := by
      intro c hc
      rcases hchars c hc with hc | rfl
      · constructor
        · rintro rfl
          exact absurd hc (by decide)
        · rintro rfl
          exact absurd hc (by decide)
      · decide
    have hclose : cutHost true (']' :: rest) = ([']'], rest) := by
      show (']' :: (cutHost false rest).1, (cutHost false rest).2) = _
      rw [hend]
    rw [hbody, List.append_assoc, List.cons_append, List.singleton_append]
    show ('[' :: (cutHost true (body ++ ']' :: rest)).1, (cutHost true (body ++ ']' :: rest)).2) = _
    rw [cutHost_of_notMem hbrackets true (fun h => nomatch h), hclose]
    rfl

/-! ## Written forms -/

/-- A segment of a path as it is written. -/
structure IsSegment (s : List Char) : Prop where
  encoded : IsEncoded keepsInPath s
  noSlash : ∀ c ∈ s, isSlash true c = false
  notSingle : isSingleDot s = false
  notDouble : isDoubleDot s = false

/-- The schemes of the web. -/
def IsWeb (scheme : List Char) : Prop := scheme = "http".toList ∨ scheme = "https".toList

/-- A URL of the web whose parts are as they are written. -/
structure IsWritten (u : Url) : Prop where
  scheme : IsWeb u.scheme
  username : IsEncoded keepsInUserinfo u.username
  password : IsEncoded keepsInUserinfo u.password
  host : ∃ host, u.host = some host ∧ readHost host = .ok host
  port : ∀ port, u.port = some port → port ≤ 65535 ∧ defaultPort u.scheme ≠ some port
  path : ∃ segments, u.path = .rooted segments ∧ segments ≠ [] ∧ ∀ s ∈ segments, IsSegment s
  query : ∀ query, u.query = some query → IsEncoded (keepsInQuery true) query
  fragment : ∀ fragment, u.fragment = some fragment → IsEncoded keepsInFragment fragment

/-! ## Suffixes -/

/-- The written form of a query, with the mark in front. -/
def queryText (query : Option (List Char)) : List Char := (query.map ('?' :: ·)).getD []

/-- The written form of a fragment, with the mark in front. -/
def fragmentText (fragment : Option (List Char)) : List Char := (fragment.map ('#' :: ·)).getD []

theorem cut_queryText {front : List Char} (h : '?' ∉ front) (query : Option (List Char)) :
    Text.cut '?' (front ++ queryText query) = query.map (front, ·) := by
  cases query with
  | none =>
    show Text.cut '?' (front ++ []) = none
    rw [List.append_nil]
    exact Text.cut_eq_none_iff.2 h
  | some q => exact Text.cut_append q h

theorem cut_fragmentText {front : List Char} (h : '#' ∉ front) (fragment : Option (List Char)) :
    Text.cut '#' (front ++ fragmentText fragment) = fragment.map (front, ·) := by
  cases fragment with
  | none =>
    show Text.cut '#' (front ++ []) = none
    rw [List.append_nil]
    exact Text.cut_eq_none_iff.2 h
  | some f => exact Text.cut_append f h

theorem cutSuffixes_append {front : List Char} {query : Option (List Char)}
    (hhash : '#' ∉ front ++ queryText query) (hmark : '?' ∉ front)
    (fragment : Option (List Char)) :
    cutSuffixes (front ++ queryText query ++ fragmentText fragment) = (front, query, fragment) := by
  have hquery := cut_queryText hmark query
  have hfragment := cut_fragmentText hhash fragment
  unfold cutSuffixes
  rw [hfragment]
  cases fragment with
  | none =>
    dsimp only [Option.map_none]
    rw [show fragmentText none = [] from rfl, List.append_nil, hquery]
    cases query with
    | none => exact congrArg (·, none, none) (List.append_nil front)
    | some q => rfl
  | some f =>
    dsimp only [Option.map_some]
    rw [hquery]
    cases query with
    | none => exact congrArg (·, none, some f) (List.append_nil front)
    | some q => rfl

/-! ## Characters -/

/-- A text without blanks and controls. -/
def IsVisible (s : List Char) : Prop := ∀ c ∈ s, 0x20 < c.toNat

theorem IsVisible.append {s t : List Char} (hs : IsVisible s) (ht : IsVisible t) :
    IsVisible (s ++ t) := by
  intro c hc
  rcases List.mem_append.1 hc with hc | hc
  · exact hs c hc
  · exact ht c hc

theorem IsVisible.dropBreaks {s : List Char} (h : IsVisible s) : dropBreaks s = s := by
  apply List.filter_eq_self.2
  intro c hc
  have hvisible := h c hc
  rw [Bool.not_eq_true']
  unfold isBreak
  simp only [Bool.or_eq_false_iff, decide_eq_false_iff_not]
  refine ⟨⟨?_, ?_⟩, ?_⟩
  · rintro rfl
    exact absurd hvisible (by decide)
  · rintro rfl
    exact absurd hvisible (by decide)
  · rintro rfl
    exact absurd hvisible (by decide)

/-- A text that is visible at its ends is not trimmed. -/
theorem trim_eq_self {s : List Char} (hfirst : ∀ c ∈ s.head?, 0x20 < c.toNat)
    (hlast : ∀ c ∈ s.getLast?, 0x20 < c.toNat) : trim s = s := by
  have hdrop {t : List Char} (ht : ∀ c ∈ t.head?, 0x20 < c.toNat) :
      t.dropWhile (·.toNat ≤ 0x20) = t := by
    cases t with
    | nil => rfl
    | cons c t =>
      have hc := ht c rfl
      rw [List.dropWhile_cons, if_neg (by simpa using hc)]
  have hreverse : ∀ c ∈ s.reverse.head?, 0x20 < c.toNat := by
    rw [List.head?_reverse]
    exact hlast
  rw [trim, hdrop hfirst, Text.dropEndWhile, hdrop hreverse, List.reverse_reverse]

theorem IsVisible.trim {s : List Char} (h : IsVisible s) : trim s = s :=
  trim_eq_self (fun c hc => h c (List.mem_of_head? hc)) fun c hc => h c (List.mem_of_getLast? hc)

/-- What holds of all that is kept in some part of a URL. -/
theorem forall_isEncoded {keep : Char → Bool} {P : Char → Prop}
    (h : ∀ n < 128, keep (Char.ofNat n) = true → P (Char.ofNat n)) {s : List Char}
    (hs : IsEncoded keep s) : ∀ c ∈ s, P c := by
  intro c hc
  have hkept := Bool.and_eq_true_iff.1 (hs c hc)
  exact Text.forall_ascii (P := fun c => keep c = true → P c) h (of_decide_eq_true hkept.1) hkept.2

/-- What holds of all characters of hosts. -/
theorem forall_host {P : Char → Prop}
    (h : ∀ n < 128, isHostChar (Char.ofNat n) = true → P (Char.ofNat n)) {s host : List Char}
    (hs : readHost s = .ok host) : ∀ c ∈ host, P c := by
  intro c hc
  have hhost := isHostChar_of_readHost hs c hc
  refine Text.forall_ascii (P := fun c => isHostChar c = true → P c) h ?_ hhost
  unfold isHostChar at hhost
  rcases Bool.or_eq_true_iff.1 hhost with hdomain | hbracket
  · exact (isDomainChar_iff.1 hdomain).1
  · exact Text.forall_mem_of_all (P := (·.toNat < 128)) (by decide) c (of_decide_eq_true hbracket)

/-- Whether a character may stand before the query of a URL. -/
def isFrontChar (c : Char) : Bool := 0x20 < c.toNat && !(c ∈ ['#', '?'])

/-- Whether a character may stand in the authority of a URL. -/
def isAuthorityChar (c : Char) : Bool := isFrontChar c && !isSlash true c

/-! ## Authorities -/

/-- The written form of a port, with the colon in front. -/
def portText (port : Option Nat) : List Char := (port.map (':' :: decimal ·)).getD []

theorem authority_eq {u : Url} {host : List Char} (h : u.host = some host) :
    u.authority = '/' :: '/' :: (u.credentials ++ host ++ portText u.port) := by
  unfold authority
  rw [h]
  cases u.port <;> simp [portText]

theorem isAuthorityChar_portText (port : Option Nat) :
    ∀ c ∈ portText port, isAuthorityChar c = true := by
  intro c hc
  cases port with
  | none => nomatch hc
  | some port =>
    rcases List.mem_cons.1 hc with rfl | hc
    · decide
    · obtain ⟨d, hd, rfl⟩ := exists_of_mem_toDigits (by decide) hc
      exact (by decide : ∀ d < 10, isAuthorityChar (Nat.digitChar d) = true) d hd

theorem isAuthorityChar_credentials {u : Url} (hu : IsWritten u) :
    ∀ c ∈ u.credentials, isAuthorityChar c = true := by
  have husername := forall_isEncoded (P := (isAuthorityChar · = true)) (by decide) hu.username
  have hpassword := forall_isEncoded (P := (isAuthorityChar · = true)) (by decide) hu.password
  intro c hc
  unfold credentials at hc
  split at hc
  · nomatch hc
  · rcases List.mem_append.1 hc with hc | hc
    · rcases List.mem_append.1 hc with hc | hc
      · exact husername c hc
      · split at hc
        · nomatch hc
        · rcases List.mem_cons.1 hc with rfl | hc
          · decide
          · exact hpassword c hc
    · obtain rfl := List.mem_singleton.1 hc
      decide

theorem isAuthorityChar_authority {u : Url} (hu : IsWritten u) {host : List Char}
    (hhost : readHost host = .ok host) :
    ∀ c ∈ u.credentials ++ host ++ portText u.port, isAuthorityChar c = true := by
  intro c hc
  rcases List.mem_append.1 hc with hc | hc
  · rcases List.mem_append.1 hc with hc | hc
    · exact isAuthorityChar_credentials hu c hc
    · exact forall_host (P := (isAuthorityChar · = true)) (by decide) hhost c hc
  · exact isAuthorityChar_portText u.port c hc

/-- An authority is cut into the parts it was put together from. -/
theorem cutAuthority_written {u : Url} (hu : IsWritten u) {host : List Char}
    (hread : readHost host = .ok host) :
    ∃ userinfo, cutAuthority (u.credentials ++ host ++ portText u.port) =
        ⟨userinfo, host, portText u.port⟩ ∧
      readUserinfo (userinfo.getD []) = (u.username, u.password) := by
  have hcolon : ':' ∉ u.username := fun hmem => hu.username.ne_of_mem hmem (by decide) rfl
  have hat : '@' ∉ host ++ portText u.port := by
    intro hmem
    rcases List.mem_append.1 hmem with hmem | hmem
    · exact forall_host (P := (· ≠ '@')) (by decide) hread _ hmem rfl
    · cases hport : u.port with
      | none => rw [hport] at hmem; nomatch hmem
      | some port =>
        rw [hport] at hmem
        rcases List.mem_cons.1 hmem with hmem | hmem
        · exact absurd hmem (by decide)
        · obtain ⟨d, hd, hdigit⟩ := exists_of_mem_toDigits (by decide) hmem
          exact (by decide : ∀ d < 10, '@' ≠ Nat.digitChar d) d hd hdigit
  have hcut : cutHost false (host ++ portText u.port) = (host, portText u.port) := by
    apply cutHost_append hread
    intro c hc
    cases hport : u.port with
    | none => rw [hport] at hc; nomatch hc
    | some port => rw [hport] at hc; exact (Option.some.inj hc).symm
  unfold cutAuthority
  by_cases hempty : u.username = [] ∧ u.password = []
  · have hcredentials : u.credentials = [] := if_pos hempty
    refine ⟨none, ?_, ?_⟩
    · rw [hcredentials, List.nil_append, Text.cutLast_eq_none hat]
      dsimp only
      rw [hcut]
    · rw [hempty.1, hempty.2]
      rfl
  · have hcredentials : u.credentials =
        u.username ++ (if u.password = [] then [] else ':' :: u.password) ++ ['@'] := if_neg hempty
    refine ⟨some (u.username ++ if u.password = [] then [] else ':' :: u.password), ?_, ?_⟩
    · rw [hcredentials, List.append_assoc, List.append_assoc _ ['@'], List.singleton_append,
        Text.cutLast_append _ hat]
      dsimp only
      rw [hcut]
    · have hcut : (Text.cut ':' (u.username ++ if u.password = [] then [] else ':' :: u.password)).getD
          (u.username ++ (if u.password = [] then [] else ':' :: u.password), []) =
            (u.username, u.password) := by
        by_cases hpw : u.password = []
        · rw [if_pos hpw, List.append_nil, Text.cut_eq_none_iff.2 hcolon, hpw]
          rfl
        · rw [if_neg hpw, Text.cut_append _ hcolon]
          rfl
      rw [readUserinfo, Option.getD_some, hcut]
      dsimp only
      rw [encodeWith_of_isEncoded hu.username, encodeWith_of_isEncoded hu.password]

theorem readAfterHost_portText {scheme : List Char} {port : Option Nat}
    (h : ∀ p, port = some p → p ≤ 65535 ∧ defaultPort scheme ≠ some p) :
    readAfterHost scheme (portText port) = .ok (port, []) := by
  cases port with
  | none => rfl
  | some p =>
    obtain ⟨hle, hdefault⟩ := h p rfl
    have hdigits : ∀ c ∈ decimal p, c.isDigit = true := fun c hc => (isDomainChar_decimal hc).2.1
    obtain ⟨htake, hdrop⟩ := Text.span_append (b := []) hdigits (fun c hc => nomatch hc)
    rw [List.append_nil] at htake hdrop
    have hread : readNumber? 10 (decimal p) = some p :=
      readNumber?_toDigits (by decide) (by decide) p
    have hfits : ¬(decimal p ≠ [] ∧ 65535 < p) := fun h => by omega
    have hkeep : ¬(decimal p = [] ∨ defaultPort scheme = some p) := by
      rw [not_or]
      exact ⟨decimal_ne_nil p, hdefault⟩
    show readPort scheme (decimal p) = _
    unfold readPort
    rw [htake, hdrop]
    dsimp only
    rw [hread, Option.getD_some, if_neg hfits, readPort.keep, if_neg hkeep]

/-! ## Paths -/

theorem IsWeb.ne_file {scheme : List Char} (h : IsWeb scheme) : scheme ≠ fileScheme := by
  rcases h with rfl | rfl
  · decide
  · decide

theorem IsWeb.isSpecial {scheme : List Char} (h : IsWeb scheme) : isSpecial scheme = true := by
  rcases h with rfl | rfl
  · decide
  · decide

/-- Away from files a walk climbs, stays, or takes one more segment. -/
theorem push_of_ne_file {scheme : List Char} (hfile : scheme ≠ fileScheme) (w : Walk) (last : Bool)
    (piece : List Char) : w.push scheme last piece =
      if isDoubleDot (dropBreaks piece) then
        { w with passed := (if last then [[]] else []) ++ climb w.passed }
      else if isSingleDot (dropBreaks piece) then
        { w with passed := (if last then [[]] else []) ++ w.passed }
      else w.append (dropBreaks piece) := by
  have hroot : ¬(scheme = fileScheme ∧ w.passed = []) := fun hroot => hfile hroot.1
  have hdrive : ¬((scheme = fileScheme ∧ w.passed = []) ∧ isDriveLetter (dropBreaks piece) = true) :=
    fun hdrive => hroot hdrive.1
  unfold Walk.push
  dsimp only
  rw [if_neg hdrive]
  cases brokenDrive? piece with
  | none => rfl
  | some broken =>
    dsimp only
    rw [if_neg hroot]

theorem IsSegment.isVisible {s : List Char} (h : IsSegment s) : IsVisible s :=
  forall_isEncoded (by decide) h.encoded

theorem IsSegment.notMem {s : List Char} (h : IsSegment s) : '/' ∉ s := by
  intro hmem
  have hslash := h.noSlash '/' hmem
  exact absurd hslash (by decide)

theorem IsVisible.isBreak {s : List Char} (h : IsVisible s) {c : Char} (hc : c ∈ s) :
    isBreak c = false := by
  rw [← h.dropBreaks] at hc
  have hkept := (List.mem_filter.1 hc).2
  rwa [Bool.not_eq_true'] at hkept

/-- What sets a drive off from its segment is a tab or a line end. -/
theorem brokenDrive?_of_isVisible {s : List Char} (h : IsVisible s) : brokenDrive? s = none := by
  unfold brokenDrive?
  split
  · rfl
  · rename_i c rest hrest
    split
    · rename_i d more hmore
      have hd : d ∈ s := by
        have hmem : d ∈ rest.dropWhile Url.isBreak := by rw [hmore]; simp
        have hmem : d ∈ s.dropWhile Url.isBreak :=
          hrest ▸ List.mem_cons_of_mem _ ((List.dropWhile_sublist _).subset hmem)
        exact (List.dropWhile_sublist _).subset hmem
      rw [if_neg]
      rw [h.isBreak hd, Bool.and_false, Bool.false_and]
      exact Bool.false_ne_true
    · rfl

/-- A written segment is added to a walk as it is, unless it is the drive of a file. -/
theorem push_segment {scheme s : List Char} (h : IsSegment s)
    (hdrive : scheme = fileScheme → isDriveLetter s = false) (w : Walk) (last : Bool) :
    w.push scheme last s = ⟨s :: w.passed, w.onDrive⟩ := by
  have hroot : ¬((scheme = fileScheme ∧ w.passed = []) ∧ isDriveLetter s = true) := by
    rintro ⟨⟨hfile, -⟩, hletter⟩
    rw [hdrive hfile] at hletter
    nomatch hletter
  unfold Walk.push
  dsimp only
  rw [h.isVisible.dropBreaks, h.notDouble, h.notSingle, if_neg Bool.false_ne_true,
    if_neg Bool.false_ne_true, if_neg hroot, brokenDrive?_of_isVisible h.isVisible]
  dsimp only
  rw [Walk.append, encodeWith_of_isEncoded h.encoded]

theorem pushAll_cons (scheme : List Char) (w : Walk) (s : List Char) {ss : List (List Char)}
    (hne : ss ≠ []) : w.pushAll scheme (s :: ss) = (w.push scheme false s).pushAll scheme ss := by
  cases ss with
  | nil => exact absurd rfl hne
  | cons t ss => rfl

theorem pushAll_segments {scheme : List Char} {segments : List (List Char)}
    (h : ∀ s ∈ segments, IsSegment s ∧ (scheme = fileScheme → isDriveLetter s = false)) (w : Walk) :
    w.pushAll scheme segments = ⟨segments.reverse ++ w.passed, w.onDrive⟩ := by
  induction segments generalizing w with
  | nil => rfl
  | cons s segments ih =>
    obtain ⟨hs, hdrive⟩ := h s (List.mem_cons_self ..)
    cases segments with
    | nil => exact push_segment hs hdrive w true
    | cons t segments =>
      rw [pushAll_cons scheme w s (List.cons_ne_nil _ _), push_segment hs hdrive,
        ih fun r hr => h r (List.mem_cons_of_mem _ hr)]
      simp

/-- Segments that are written are walked along as they are. -/
theorem walkPath_segments {scheme : List Char} (hweb : IsWeb scheme)
    {segments : List (List Char)} (hne : segments ≠ []) (h : ∀ s ∈ segments, IsSegment s) :
    walkPath scheme [] (Text.joinPieces '/' segments) = .rooted segments := by
  have hpieces : piecesOf scheme (Text.joinPieces '/' segments) = segments := by
    unfold piecesOf
    rw [hweb.isSpecial]
    exact Text.piecesWhere_joinPieces rfl (fun s hs => (h s hs).noSlash) hne
  unfold walkPath walk
  rw [hpieces]
  rw [pushAll_segments fun s hs => ⟨h s hs, fun hfile => absurd hfile hweb.ne_file⟩, Walk.toPath,
    if_neg hweb.ne_file]
  show UrlPath.rooted (segments.reverse ++ []).reverse = _
  rw [List.append_nil, List.reverse_reverse]

theorem readAuthority_written {u : Url} (hu : IsWritten u) {host : List Char}
    (hhost : u.host = some host) (hread : readHost host = .ok host) {segments : List (List Char)}
    (hpath : u.path = .rooted segments) (hne : segments ≠ [])
    (hsegments : ∀ s ∈ segments, IsSegment s) :
    readAuthority u.scheme (u.credentials ++ host ++ portText u.port ++
      segments.flatMap ('/' :: ·)) u.query u.fragment = .ok u := by
  have hhead : ∀ c ∈ (segments.flatMap ('/' :: ·)).head?, (!isSlash true c) = false := by
    intro c hc
    cases segments with
    | nil => nomatch hc
    | cons s segments =>
      obtain rfl := Option.some.inj hc
      rfl
  obtain ⟨htake, hdrop⟩ := Text.span_append
    (fun c hc => (Bool.and_eq_true_iff.1 (isAuthorityChar_authority hu hread c hc)).2) hhead
  obtain ⟨userinfo, hcut, huserinfo⟩ := cutAuthority_written hu hread
  have hnonempty := ne_nil_of_readHost hread
  have hpathAfter : readPathAfter u.scheme ([] ++ segments.flatMap ('/' :: ·)) = .rooted segments := by
    cases segments with
    | nil => exact absurd rfl hne
    | cons s rest =>
      rw [List.nil_append, ← Text.cons_joinPieces, readPathAfter, hu.scheme.isSpecial]
      exact walkPath_segments hu.scheme hne hsegments
  unfold readAuthority
  dsimp only
  rw [hu.scheme.isSpecial, htake, hdrop, hcut]
  dsimp only
  rw [if_neg (fun h => hnonempty h.2.1), readParts, huserinfo, hu.scheme.isSpecial]
  dsimp only
  rw [if_neg (fun h => hnonempty h.2), if_pos rfl, hread]
  show (if host = [] ∧ portText u.port ≠ [] then Except.error UrlError.emptyHost else
    readAfterHost u.scheme (portText u.port) >>= fun after =>
      if host = [] ∧ (u.username ≠ [] ∨ u.password ≠ []) then .error UrlError.emptyHost
      else .ok _) = _
  rw [if_neg (fun h => hnonempty h.1), readAfterHost_portText hu.port]
  show (if host = [] ∧ (u.username ≠ [] ∨ u.password ≠ []) then Except.error UrlError.emptyHost
      else .ok _) = _
  rw [if_neg (fun h => hnonempty h.1), hpathAfter, ← hpath, ← hhost]

/-! ## Whole URLs -/

theorem schemeOf?_web {scheme : List Char} (h : IsWeb scheme) (rest : List Char) :
    schemeOf? (scheme ++ ':' :: rest) = some scheme := by
  rcases h with rfl | rfl
  · rfl
  · rfl

theorem IsWeb.notMem_colon {scheme : List Char} (h : IsWeb scheme) : ':' ∉ scheme := by
  rcases h with rfl | rfl
  · decide
  · decide

section
variable {query : Option (List Char)}

theorem notMem_queryText (h : ∀ q ∈ query, IsEncoded (keepsInQuery true) q) :
    '#' ∉ queryText query := by
  intro hmem
  cases query with
  | none => nomatch hmem
  | some q =>
    rcases List.mem_cons.1 hmem with hmem | hmem
    · exact absurd hmem (by decide)
    · exact (h q rfl).ne_of_mem hmem (by decide) rfl

/-- A written query is read as itself. -/
theorem map_encodeQuery {scheme : List Char} (hweb : IsWeb scheme)
    (h : ∀ q ∈ query, IsEncoded (keepsInQuery true) q) :
    (query.map dropBreaks).map (encodeQuery scheme) = query := by
  cases query with
  | none => rfl
  | some q =>
    have hvisible : IsVisible q := forall_isEncoded (by decide) (h q rfl)
    rw [Option.map_some, Option.map_some, hvisible.dropBreaks, encodeQuery, hweb.isSpecial,
      encodeWith_of_isEncoded (h q rfl)]

end

/-- The text of a URL up to its query. -/
def frontText (u : Url) : List Char := u.scheme ++ [':'] ++ u.authority ++ u.path.toText

theorem isFrontChar_frontText {u : Url} (hu : IsWritten u) :
    ∀ c ∈ u.frontText, isFrontChar c = true := by
  obtain ⟨host, hhost, hread⟩ := hu.host
  obtain ⟨segments, hpath, -, hsegments⟩ := hu.path
  have hauthority : ∀ c ∈ u.authority, isFrontChar c = true := by
    intro c hc
    rw [authority_eq hhost] at hc
    rcases List.mem_cons.1 hc with rfl | hc
    · decide
    · rcases List.mem_cons.1 hc with rfl | hc
      · decide
      · exact (Bool.and_eq_true_iff.1 (isAuthorityChar_authority hu hread c hc)).1
  have hsegment : ∀ c ∈ u.path.toText, isFrontChar c = true := by
    intro c hc
    rw [hpath] at hc
    obtain ⟨s, hs, hc⟩ := List.mem_flatMap.1 hc
    rcases List.mem_cons.1 hc with rfl | hc
    · decide
    · exact forall_isEncoded (P := (isFrontChar · = true)) (by decide) (hsegments s hs).encoded c hc
  have hscheme : ∀ c ∈ u.scheme, isFrontChar c = true := by
    rcases hu.scheme with h | h
    · rw [h]
      exact Text.forall_mem_of_all (by decide)
    · rw [h]
      exact Text.forall_mem_of_all (by decide)
  intro c hc
  unfold frontText at hc
  simp only [List.mem_append, List.mem_singleton] at hc
  rcases hc with ((hc | rfl) | hc) | hc
  · exact hscheme c hc
  · decide
  · exact hauthority c hc
  · exact hsegment c hc

theorem notMem_frontText {u : Url} (hu : IsWritten u) {c : Char} (hc : isFrontChar c = false) :
    c ∉ u.frontText := by
  intro hmem
  rw [isFrontChar_frontText hu c hmem] at hc
  nomatch hc

theorem isVisible_frontText {u : Url} (hu : IsWritten u) : IsVisible u.frontText := by
  intro c hc
  have hfront := isFrontChar_frontText hu c hc
  unfold isFrontChar at hfront
  exact of_decide_eq_true (Bool.and_eq_true_iff.1 hfront).1

theorem isVisible_query {u : Url} (hu : IsWritten u) {q : List Char} (hq : u.query = some q) :
    IsVisible q :=
  forall_isEncoded (by decide) (hu.query q hq)

theorem isVisible_fragment {u : Url} (hu : IsWritten u) {f : List Char}
    (hf : u.fragment = some f) : IsVisible f :=
  forall_isEncoded (by decide) (hu.fragment f hf)

theorem isVisible_toText {u : Url} (hu : IsWritten u) : IsVisible u.toText := by
  have hmark (c : Char) (hc : 0x20 < c.toNat) {s : List Char} (hs : IsVisible s) :
      IsVisible (c :: s) := by
    intro d hd
    rcases List.mem_cons.1 hd with rfl | hd
    · exact hc
    · exact hs d hd
  rw [toText_eq]
  refine ((isVisible_frontText hu).append ?_).append ?_
  · cases hq : u.query with
    | none => exact fun c hc => nomatch hc
    | some q => exact hmark '?' (by decide) (isVisible_query hu hq)
  · cases hf : u.fragment with
    | none => exact fun c hc => nomatch hc
    | some f => exact hmark '#' (by decide) (isVisible_fragment hu hf)

/-- Only two slashes stand before an authority. -/
theorem dropWhile_isSlash_authority {u : Url} (hu : IsWritten u) {host : List Char}
    (hread : readHost host = .ok host) (path : List Char) :
    ('/' :: '/' :: (u.credentials ++ host ++ portText u.port ++ path)).dropWhile (isSlash true) =
      u.credentials ++ host ++ portText u.port ++ path := by
  show List.dropWhile (isSlash true) (_ ++ _) = _
  have hchars := isAuthorityChar_authority hu hread
  cases hauthority : u.credentials ++ host ++ portText u.port with
  | nil =>
    obtain ⟨hnil, -⟩ := List.append_eq_nil_iff.1 hauthority
    exact absurd (List.append_eq_nil_iff.1 hnil).2 (ne_nil_of_readHost hread)
  | cons c rest =>
    rw [hauthority] at hchars
    have hslash := (Bool.and_eq_true_iff.1 (hchars c (List.mem_cons_self ..))).2
    rw [Bool.not_eq_true'] at hslash
    rw [List.cons_append, List.dropWhile_cons, hslash]
    rfl

/-- A URL in its written form is read as itself. -/
theorem parse_toString {u : Url} (hu : IsWritten u) : parse (toString u) = .ok u := by
  obtain ⟨host, hhost, hread⟩ := hu.host
  obtain ⟨segments, hpath, hne, hsegments⟩ := hu.path
  have htext : (toString u).toList = u.toText := String.toList_ofList
  have hcut : cutSuffixes u.toText = (u.frontText, u.query, u.fragment) := by
    rw [toText_eq]
    refine cutSuffixes_append ?_ (notMem_frontText hu (by decide)) u.fragment
    intro hmem
    rcases List.mem_append.1 hmem with hmem | hmem
    · exact notMem_frontText hu (by decide) hmem
    · exact notMem_queryText hu.query hmem
  have hfront : u.frontText = u.scheme ++ ':' :: '/' :: '/' ::
      (u.credentials ++ host ++ portText u.port ++ segments.flatMap ('/' :: ·)) := by
    rw [frontText, authority_eq hhost, hpath]
    simp [UrlPath.toText]
  have hfragment : (u.fragment.map fun f => encodeFragment (dropBreaks f)) = u.fragment := by
    cases hf : u.fragment with
    | none => rfl
    | some f =>
      rw [Option.map_some, (isVisible_fragment hu hf).dropBreaks, encodeFragment,
        encodeWith_of_isEncoded (hu.fragment f hf)]
  have hvisible : IsVisible ('/' :: '/' ::
      (u.credentials ++ host ++ portText u.port ++ segments.flatMap ('/' :: ·))) := by
    intro c hc
    refine isVisible_frontText hu c ?_
    rw [hfront]
    exact List.mem_append_right _ (List.mem_cons_of_mem _ hc)
  unfold parse read
  rw [htext, (isVisible_toText hu).trim, hcut]
  dsimp only
  rw [(isVisible_frontText hu).dropBreaks, hfront, schemeOf?_web hu.scheme]
  dsimp only
  rw [Text.cut_append _ hu.scheme.notMem_colon, map_encodeQuery hu.scheme hu.query, hfragment]
  show readWithScheme none u.scheme _ u.query u.fragment = _
  unfold readWithScheme
  dsimp only [Option.map_some, Option.getD_some]
  rw [hvisible.dropBreaks, if_neg hu.scheme.ne_file, if_pos hu.scheme.isSpecial,
    dropWhile_isSlash_authority hu hread]
  exact readAuthority_written hu hhost hread hpath hne hsegments

end Waymark.Url
