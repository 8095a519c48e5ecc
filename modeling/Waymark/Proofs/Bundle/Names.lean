import Waymark.Bundle.Vendor
import Waymark.Proofs.Url.Join
import Waymark.Proofs.Url.Read
/-!
# Names of copies

The file of a copy is named by the URL without its version: the host with its port, the
segments of the path, and the query behind the last of them.  What a name may not hold
is replaced by underscores, so that each part is a name in a URL as well.  Dots are
replaced by nothing; a path that has been read has no segment of dots in it, but a host
may be one.

From one such file to another leads a path that goes up all the directories of the
first and down those of the second.

## Main results

* `isWritten_keyed`, `vendorKey_eq` — the URL without its version is as it is written.
* `isName_of_inVendorPath` — what the name of a copy is made of, if it is no dots, is a name.
* `exists_names_copyOf` — the file of a copy, part by part.
* `relativeImport_eq` — an import between files goes up and down.
-/

namespace Waymark.Bundle

open Percent Url

/-! ## Keys -/

/-- Whether a character may stand in a written form. -/
def inForm (c : Char) : Bool := c.isAlphanum || c ∈ ['*', '-', '.', '_', '+', '%', '&', '=']

theorem isEncoded_formEncodePart (s : List Char) : IsEncoded inForm (formEncodePart s) := by
  intro c hc
  have hpart : ∃ d ∈ s, c ∈ if d = ' ' then ['+'] else encodeWith keepsInForm [d] :=
    List.mem_flatMap.1 hc
  obtain ⟨d, -, hc⟩ := hpart
  split at hc
  · obtain rfl := List.mem_singleton.1 hc
    decide
  · rcases mem_encodeWith hc with ⟨-, hkept⟩ | rfl | ⟨n, hn, rfl⟩
    · have hascii := Bool.and_eq_true_iff.1 hkept
      rw [hascii.1, Bool.true_and]
      have hall : ∀ n < 128, keepsInForm (Char.ofNat n) = true → inForm (Char.ofNat n) = true := by
        decide
      exact Text.forall_ascii (P := fun c => keepsInForm c = true → inForm c = true) hall
        (of_decide_eq_true hascii.1) hascii.2
    · decide
    · have hall : ∀ n < 16, ((hexDigit n).toNat < 128 && inForm (hexDigit n)) = true := by decide
      exact hall n hn

theorem isEncoded_formEncode (pairs : List (List Char × List Char)) :
    IsEncoded inForm (formEncode pairs) := by
  intro c hc
  rcases Text.mem_of_mem_joinPieces hc with rfl | ⟨part, hpart, hc⟩
  · decide
  · obtain ⟨⟨k, v⟩, -, rfl⟩ := List.mem_map.1 hpart
    rcases List.mem_append.1 hc with hc | hc
    · exact isEncoded_formEncodePart k c hc
    · rcases List.mem_cons.1 hc with rfl | hc
      · decide
      · exact isEncoded_formEncodePart v c hc

/-- A URL without its version. -/
def keyed (u : Url) : Url :=
  let pairs := u.queryPairs.filter fun (k, _) => k ≠ ['v']
  { u with query := if pairs = [] then none else some (formEncode pairs) }

theorem vendorKey_eq {path : String} {u : Url} (h : Url.parse path = .ok u) :
    vendorKey path = toString (keyed u) := by
  unfold vendorKey
  rw [h]
  rfl

theorem isEncoded_query_keyed {u : Url} {q : List Char} (h : (keyed u).query = some q) :
    IsEncoded inForm q := by
  have h : (if u.queryPairs.filter (fun (k, _) => k ≠ ['v']) = [] then none
    else some (formEncode (u.queryPairs.filter fun (k, _) => k ≠ ['v']))) = some q := h
  split at h
  · nomatch h
  · obtain rfl := Option.some.inj h
    exact isEncoded_formEncode _

/-- The URL without its version is as it is written. -/
theorem isWritten_keyed {u : Url} (h : IsWritten u) : IsWritten (keyed u) where
  scheme := h.scheme
  username := h.username
  password := h.password
  host := h.host
  port := h.port
  path := h.path
  query := by
    intro q hq
    have hencoded := isEncoded_query_keyed hq
    intro c hc
    exact forall_isEncoded (P := fun c => (c.toNat < 128 && keepsInQuery true c) = true) (by decide)
      hencoded c hc
  fragment := h.fragment

/-! ## Parts of a name -/

/-- What stands in the name of a copy for a character. -/
def tame (c : Char) : Char := if inVendorPath c then c else '_'

theorem inVendorPath_tame (c : Char) : inVendorPath (tame c) = true := by
  unfold tame
  split
  · assumption
  · decide

theorem eq_of_tame {c d : Char} (hd : d ≠ '_') (h : tame c = d) : c = d := by
  unfold tame at h
  split at h
  · exact h
  · exact absurd h.symm hd

theorem eq_of_map_tame {s t : List Char} (ht : '_' ∉ t) (h : s.map tame = t) : s = t := by
  induction s generalizing t with
  | nil => exact h
  | cons c s ih =>
    cases t with
    | nil => nomatch h
    | cons d t =>
      obtain ⟨hc, hs⟩ := List.cons.inj h
      have hd : d ≠ '_' := fun heq => ht (heq ▸ List.mem_cons_self ..)
      rw [eq_of_tame hd hc, ih (fun hmem => ht (List.mem_cons_of_mem _ hmem)) hs]

theorem lt_of_inVendorPath {c : Char} (h : inVendorPath c = true) : c.toNat < 128 := by
  delta inVendorPath Char.isAlphanum Char.isAlpha Char.isUpper Char.isLower Char.isDigit at h
  simp only [Bool.or_eq_true, decide_eq_true_eq, Bool.and_eq_true, UInt32.le_iff_toNat_le,
    Char.toNat_val] at h
  rcases h with ((h | h) | h) | h
  · have hle : c.toNat ≤ 90 := h.2
    omega
  · have hle : c.toNat ≤ 122 := h.2
    omega
  · have hle : c.toNat ≤ 57 := h.2
    omega
  · exact Text.forall_mem_of_all (P := (·.toNat < 128)) (by decide) c h

/-- What holds of all characters that names of copies are made of. -/
theorem forall_inVendorPath {P : Char → Prop}
    (h : ∀ n < 128, inVendorPath (Char.ofNat n) = true → Char.ofNat n ≠ '/' → P (Char.ofNat n))
    {c : Char} (hc : inVendorPath c = true) (hslash : c ≠ '/') : P c :=
  Text.forall_ascii (P := fun c => inVendorPath c = true → c ≠ '/' → P c) h (lt_of_inVendorPath hc)
    hc hslash

/-- What the name of a copy is made of, if it is no dots, is a name. -/
theorem isName_of_inVendorPath {s : List Char}
    (hchars : ∀ c ∈ s, inVendorPath c = true) (hslash : '/' ∉ s) (hsingle : s ≠ ['.'])
    (hdouble : s ≠ ['.', '.']) : IsName s := by
  have hall {P : Char → Prop} (h : ∀ n < 128, inVendorPath (Char.ofNat n) = true →
      Char.ofNat n ≠ '/' → P (Char.ofNat n)) : ∀ c ∈ s, P c := by
    intro c hc
    exact forall_inVendorPath h (hchars c hc) fun heq => hslash (heq ▸ hc)
  have hescape : '%' ∉ s := fun hmem => hall (P := (· ≠ '%')) (by decide) _ hmem rfl
  have hletter : isDriveLetter s = false := by
    rw [Bool.eq_false_iff]
    intro hdrive
    unfold isDriveLetter at hdrive
    split at hdrive
    · rename_i c d
      have hd := hall (P := fun d => (decide (d = ':') || decide (d = '|')) = false) (by decide) d
        (by simp)
      rw [hd, Bool.and_false] at hdrive
      nomatch hdrive
    · nomatch hdrive
  refine ⟨⟨?_, ?_, ?_, ?_⟩, hletter⟩
  · exact hall (P := fun c => (c.toNat < 128 && keepsInPath c) = true) (by decide)
  · exact hall (P := fun c => isSlash true c = false) (by decide)
  · rw [Bool.eq_false_iff]
    intro hdots
    exact hsingle (eq_replicate_of_dots (isSingleDot_iff.1 hdots) hescape)
  · rw [Bool.eq_false_iff]
    intro hdots
    exact hdouble (eq_replicate_of_dots (isDoubleDot_iff.1 hdots) hescape)

theorem notMem_tame {s : List Char} (h : '/' ∉ s) : '/' ∉ s.map tame := by
  intro hmem
  obtain ⟨c, hc, htame⟩ := List.mem_map.1 hmem
  obtain rfl := eq_of_tame (by decide) htame
  exact h hc

/-- What a text without slashes becomes in the name of a copy is a name unless it was dots. -/
theorem isName_tame {s : List Char} (hslash : '/' ∉ s) (hsingle : s ≠ ['.'])
    (hdouble : s ≠ ['.', '.']) : IsName (s.map tame) := by
  apply isName_of_inVendorPath
  · intro c hc
    obtain ⟨d, -, rfl⟩ := List.mem_map.1 hc
    exact inVendorPath_tame d
  · exact notMem_tame hslash
  · exact fun h => hsingle (eq_of_map_tame (by decide) h)
  · exact fun h => hdouble (eq_of_map_tame (by decide) h)

theorem isName_tame_of_isSegment {s : List Char} (h : IsSegment s) : IsName (s.map tame) := by
  apply isName_tame h.notMem
  · rintro rfl
    exact absurd h.notSingle (by decide)
  · rintro rfl
    exact absurd h.notDouble (by decide)

/-! ## Files -/

/-- Host and port in the name of a copy. -/
def hostName (u : Url) : List Char :=
  u.host.getD [] ++ (match u.port with | some port => '_' :: decimal port | none => [])

/-- The query in the name of a copy. -/
def queryName (u : Url) : List Char :=
  match u.query with
  | some query => '_' :: query
  | none => []

theorem vendorName_toString {u : Url} (h : IsWritten u) :
    vendorName (toString u) = hostName u ++ u.path.toText ++ queryName u := by
  unfold vendorName
  rw [parse_toString h]
  rfl

/-- The host is a name unless it is dots. -/
theorem isName_hostName {u : Url} (h : IsWritten u) (hsingle : u.host ≠ some ['.'])
    (hdouble : u.host ≠ some ['.', '.']) : IsName ((hostName u).map tame) := by
  obtain ⟨host, hhost, hread⟩ := h.host
  have hslash : '/' ∉ host := by
    intro hmem
    exact forall_host (P := (· ≠ '/')) (by decide) hread _ hmem rfl
  cases hport : u.port with
  | none =>
    have hname : hostName u = host := by
      rw [hostName, hhost, hport]
      exact List.append_nil host
    rw [hname]
    apply isName_tame hslash
    · exact fun hdot => hsingle (hhost.trans (congrArg some hdot))
    · exact fun hdots => hdouble (hhost.trans (congrArg some hdots))
  | some port =>
    have hname : hostName u = host ++ '_' :: decimal port := by
      rw [hostName, hhost, hport]
      rfl
    have hmark : '_' ∈ hostName u := by
      rw [hname]
      exact List.mem_append_right _ (List.mem_cons_self ..)
    apply isName_tame
    · intro hmem
      rw [hname] at hmem
      rcases List.mem_append.1 hmem with hmem | hmem
      · exact hslash hmem
      · rcases List.mem_cons.1 hmem with hmem | hmem
        · exact absurd hmem (by decide)
        · obtain ⟨d, hd, hdigit⟩ := exists_of_mem_toDigits (by decide) hmem
          have hall : ∀ d < 10, '/' ≠ Nat.digitChar d := by decide
          exact hall d hd hdigit
    · intro hdot
      rw [hdot] at hmark
      exact absurd hmark (by decide)
    · intro hdots
      rw [hdots] at hmark
      exact absurd hmark (by decide)

/-- What the file of a copy ends in. -/
def copyExtension : List Char := ".js".toList

/-- A text with the extension of copies, which is left alone if it has it. -/
def withExtension (s : List Char) : List Char :=
  if copyExtension.isSuffixOf s then s else s ++ copyExtension

theorem isName_withExtension {s : List Char} (hslash : '/' ∉ s) :
    IsName (withExtension (s.map tame)) := by
  have hsuffix : copyExtension <:+ withExtension (s.map tame) := by
    unfold withExtension
    split
    · rename_i hends
      exact List.isSuffixOf_iff_suffix.1 hends
    · exact List.suffix_append _ _
  have hmem : 's' ∈ withExtension (s.map tame) := hsuffix.subset (by decide)
  have hall {P : Char → Prop} (hmap : ∀ c ∈ s.map tame, P c) (hext : ∀ c ∈ copyExtension, P c) :
      ∀ c ∈ withExtension (s.map tame), P c := by
    unfold withExtension
    split
    · exact hmap
    · intro c hc
      rcases List.mem_append.1 hc with hc | hc
      · exact hmap c hc
      · exact hext c hc
  apply isName_of_inVendorPath
  · refine hall (P := (inVendorPath · = true)) ?_ (Text.forall_mem_of_all (by decide))
    intro c hc
    obtain ⟨d, -, rfl⟩ := List.mem_map.1 hc
    exact inVendorPath_tame d
  · intro hin
    refine hall (P := (· ≠ '/')) ?_ (Text.forall_mem_of_all (by decide)) _ hin rfl
    exact fun c hc heq => notMem_tame hslash (heq ▸ hc)
  · intro hdot
    rw [hdot] at hmem
    exact absurd hmem (by decide)
  · intro hdots
    rw [hdots] at hmem
    exact absurd hmem (by decide)

/-- The extension goes to the last part of a path. -/
theorem withExtension_joinPieces (as : List (List Char)) (b : List Char) :
    withExtension (Text.joinPieces '/' (as ++ [b])) =
      Text.joinPieces '/' (as ++ [withExtension b]) := by
  have hjoin (x : List Char) :
      Text.joinPieces '/' (as ++ [x]) = as.flatMap (· ++ ['/']) ++ x :=
    Text.joinPieces_append '/' as (List.cons_ne_nil x [])
  have hiff : copyExtension <:+ as.flatMap (· ++ ['/']) ++ b ↔ copyExtension <:+ b := by
    cases as using List.reverseRecOn with
    | nil => exact Iff.rfl
    | append_singleton as a =>
      rw [List.flatMap_append, List.flatMap_singleton, ← List.append_assoc, List.append_assoc]
      exact Text.isSuffix_append_iff (by decide)
  unfold withExtension
  by_cases hends : copyExtension <:+ b
  · rw [hjoin, if_pos (List.isSuffixOf_iff_suffix.2 (hiff.2 hends)),
      if_pos (List.isSuffixOf_iff_suffix.2 hends), hjoin]
  · have hnot {s : List Char} (h : ¬copyExtension <:+ s) : ¬copyExtension.isSuffixOf s = true :=
      fun hsuffix => h (List.isSuffixOf_iff_suffix.1 hsuffix)
    rw [hjoin, if_neg (hnot fun hsuffix => hends (hiff.1 hsuffix)), if_neg (hnot hends), hjoin,
      List.append_assoc]

theorem map_joinPieces {f : Char → Char} {d : Char} (hd : f d = d) (as : List (List Char)) :
    (Text.joinPieces d as).map f = Text.joinPieces d (as.map (List.map f)) := by
  induction as with
  | nil => rfl
  | cons a as ih =>
    cases as with
    | nil => rfl
    | cons b as =>
      rw [Text.joinPieces, List.map_append, List.map_cons, hd, ih]
      rfl

/-- The file of a copy, part by part. -/
theorem exists_names_vendorPath {u : Url} (h : IsWritten u) (hquery : '/' ∉ queryName u)
    (hsingle : u.host ≠ some ['.']) (hdouble : u.host ≠ some ['.', '.']) :
    ∃ names, (∀ s ∈ names, IsName s) ∧ names.head? = some vendorDirectory.toList ∧
      (vendorPath (toString u)).toList = Text.joinPieces '/' names := by
  obtain ⟨segments, hpath, hne, hsegments⟩ := h.path
  have hsplit := List.dropLast_concat_getLast hne
  have hlast := hsegments _ (List.getLast_mem hne)
  have hinit : ∀ s ∈ segments.dropLast, IsSegment s :=
    fun s hs => hsegments s (List.dropLast_sublist _ |>.subset hs)
  generalize segments.getLast hne = last at hsplit hlast
  generalize segments.dropLast = above at hsplit hinit
  have hname : vendorDirectory.toList ++ '/' :: vendorName (toString u) =
      Text.joinPieces '/' (vendorDirectory.toList :: hostName u :: above ++ [last ++ queryName u]) := by
    rw [vendorName_toString h, hpath, ← hsplit, List.cons_append, List.cons_append,
      Text.joinPieces_cons]
    simp [UrlPath.toText]
  have hmapped : (vendorDirectory.toList ++ '/' :: vendorName (toString u)).map tame =
      Text.joinPieces '/' ((vendorDirectory.toList :: hostName u :: above).map (List.map tame) ++
        [(last ++ queryName u).map tame]) := by
    rw [hname, map_joinPieces (by decide), List.map_append, List.map_singleton]
  refine ⟨(vendorDirectory.toList :: hostName u :: above).map (List.map tame) ++
    [withExtension ((last ++ queryName u).map tame)], ?_, ?_, ?_⟩
  · intro s hs
    rcases List.mem_append.1 hs with hs | hs
    · obtain ⟨part, hpart, rfl⟩ := List.mem_map.1 hs
      rcases List.mem_cons.1 hpart with rfl | hpart
      · exact isName_tame (by decide) (by decide) (by decide)
      · rcases List.mem_cons.1 hpart with rfl | hpart
        · exact isName_hostName h hsingle hdouble
        · exact isName_tame_of_isSegment (hinit part hpart)
    · obtain rfl := List.mem_singleton.1 hs
      apply isName_withExtension
      intro hmem
      rcases List.mem_append.1 hmem with hmem | hmem
      · exact hlast.notMem hmem
      · exact hquery hmem
  · have htame : vendorDirectory.toList.map tame = vendorDirectory.toList := by decide
    exact congrArg some htame
  · rw [← withExtension_joinPieces, ← hmapped]
    unfold vendorPath
    exact String.toList_ofList

/-- The file that an inlined module is copied to, part by part. -/
theorem exists_names_copyOf {path : String} {u : Url} (h : Url.parse path = .ok u)
    (hweb : IsWeb u.scheme) (hsingle : u.host ≠ some ['.']) (hdouble : u.host ≠ some ['.', '.']) :
    ∃ names, (∀ s ∈ names, IsName s) ∧ names.head? = some vendorDirectory.toList ∧
      (copyOf path).toList = Text.joinPieces '/' names := by
  rw [copyOf, vendorKey_eq h]
  apply exists_names_vendorPath (isWritten_keyed (isWritten_of_parse h hweb)) ?_ hsingle hdouble
  intro hmem
  unfold queryName at hmem
  split at hmem
  · rename_i query hquery
    rcases List.mem_cons.1 hmem with hmem | hmem
    · exact absurd hmem (by decide)
    · exact (isEncoded_query_keyed hquery).ne_of_mem hmem (by decide) rfl
  · cases hmem

/-! ## Imports between files -/

/-- An import between files goes up the directories of the one and down those of the other. -/
theorem relativeImport_eq {source target : String} {above names : List (List Char)}
    {name : List Char} (hsource : source.toList = Text.joinPieces '/' (above ++ [name]))
    (habove : ∀ s ∈ above, '/' ∉ s) (hname : '/' ∉ name)
    (htarget : target.toList = Text.joinPieces '/' names) (hne : names ≠ []) :
    relativeImport source target =
      String.ofList (Text.joinPieces '/' (upward above.length ++ names)) := by
  have hcount : source.toList.count '/' = above.length := by
    rw [hsource]
    exact Text.count_joinPieces habove hname
  apply String.toList_inj.1
  rw [String.toList_ofList, Text.joinPieces_append '/' _ hne, ← htarget]
  unfold relativeImport
  rw [hcount]
  cases above.length with
  | zero =>
    dsimp only
    rw [String.toList_append]
    rfl
  | succ n =>
    dsimp only
    rw [String.toList_append, String.toList_join, upward, List.flatMap_replicate,
      List.flatMap_replicate]
    rfl

end Waymark.Bundle
