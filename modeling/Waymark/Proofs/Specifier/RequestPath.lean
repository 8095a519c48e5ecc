import Waymark.Proofs.Percent
import Waymark.Proofs.Specifier.Clean
/-!
# Local modules are found again

A canonical local specifier is a dot and a clean path.  The module server answers
for it under that path, escaped; from the escaped path the specifier is read back, in
any alphabet.  Only what would lie in the mount of remote modules is read as one of
those.

## Main results

* `decodePath_encodePath` — an escaped path is decoded to itself.
* `ofRequestPath_encodePath` — the request path of a local module asks for that module.
* `ofRequestPath_encodePath_iff` — it does so exactly if the module is not below the mount, and
  no two others have one request path.
-/

namespace Waymark.Specifier

/-! ## Canonical specifiers -/

/-- A local specifier in the one form in which modules are recorded. -/
def IsCanonical (s : Specifier) : Prop := ∃ path, s = "." ++ clean path

theorem IsCanonical.toList {s : Specifier} (h : IsCanonical s) :
    ∃ as, s.toList = '.' :: '/' :: Text.joinPieces '/' as ∧
      ∀ a ∈ as, IsCleanSegment a := by
  obtain ⟨path, rfl⟩ := h
  exact ⟨cleanSegments path.toList, by simp, fun _ ha => isCleanSegment_of_mem ha⟩

theorem IsCanonical.isRemote {s : Specifier} (h : IsCanonical s) :
    Specifier.isRemote s = false := by
  obtain ⟨as, hs, _⟩ := h.toList
  rw [Specifier.isRemote, hs]
  rfl

theorem IsCanonical.toList_urlPath {s : Specifier} (h : IsCanonical s) :
    s.toList = '.' :: (urlPath s).toList := by
  obtain ⟨as, hs, _⟩ := h.toList
  rw [urlPath, hs]
  simp

theorem IsCanonical.eq_urlPath {s : Specifier} (h : IsCanonical s) : s = "." ++ urlPath s := by
  rw [← String.toList_inj, h.toList_urlPath]
  simp

@[simp] theorem IsCanonical.clean_urlPath {s : Specifier} (h : IsCanonical s) :
    clean (urlPath s) = urlPath s := by
  obtain ⟨path, hpath⟩ := h
  have hurl : urlPath s = clean path := by
    have hs := IsCanonical.toList_urlPath ⟨path, hpath⟩
    rw [← String.toList_inj]
    simpa [hpath] using hs.symm
  rw [hurl, clean_clean]

/-! ## Escaped paths -/

theorem keepsInPath_percent : keepsInPath '%' = false := by decide

theorem decodePath_encodePath (path : String) : decodePath (encodePath path) = path := by
  rw [decodePath, encodePath, String.toList_ofList,
    Percent.decodeLossy_encodeWith fun _ => keepsInPath_percent, String.ofList_toList]

/-- A question mark never stands in an escaped path. -/
theorem notMem_encodePath (path : String) : '?' ∉ (encodePath path).toList := by
  rw [encodePath, String.toList_ofList]
  exact Percent.notMem_encodeWith (by decide) (by decide) (by decide) path.toList

/-- Escaped text begins with a character other than `%` only if the text does. -/
theorem eq_cons_of_encodeWith {keep : Char → Bool} {d : Char} (hd : d ≠ '%') {s t : List Char}
    (h : Percent.encodeWith keep s = d :: t) :
    ∃ s', s = d :: s' ∧ Percent.encodeWith keep s' = t := by
  cases s with
  | nil => nomatch h
  | cons c s =>
    have hcons : (if c.toNat < 128 && keep c then [c]
        else (String.utf8EncodeChar c).flatMap Percent.escape) ++ Percent.encodeWith keep s =
          d :: t := h
    split at hcons
    · obtain ⟨rfl, rfl⟩ := List.cons.inj hcons
      exact ⟨s, rfl, rfl⟩
    · cases hb : String.utf8EncodeChar c with
      | nil => exact absurd hb String.utf8EncodeChar_ne_nil
      | cons b bs =>
        rw [hb] at hcons
        obtain ⟨rfl, _⟩ := List.cons.inj hcons
        exact absurd rfl hd

theorem prefix_of_encodeWith {keep : Char → Bool} {front s : List Char} (hfront : '%' ∉ front)
    (h : front <+: Percent.encodeWith keep s) : front <+: s := by
  induction front generalizing s with
  | nil => exact List.nil_prefix
  | cons c front ih =>
    have hc : c ≠ '%' := fun heq => hfront (heq ▸ List.mem_cons_self ..)
    obtain ⟨rest, hrest⟩ := h
    obtain ⟨s', rfl, hs'⟩ := eq_cons_of_encodeWith hc hrest.symm
    rw [List.prefix_cons_inj]
    exact ih (fun hmem => hfront (List.mem_cons_of_mem _ hmem)) ⟨rest, hs'.symm⟩

/-- A path that does not lead to the mount of remote modules does not do so escaped. -/
theorem isPrefixOf?_mountPoint_encodePath {path : String} (h : ¬mountPoint <+: path.toList) :
    List.isPrefixOf? mountPoint (encodePath path).toList = none := by
  apply Text.isPrefixOf?_eq_none
  rw [encodePath, String.toList_ofList]
  exact fun hmount => h (prefix_of_encodeWith (by decide) hmount)

/-! ## Requests -/

/-- Where remote modules are mounted, as it would be written in a local specifier. -/
def mountPrefix : List Char := '.' :: mountPoint

theorem ofRequestPath_encodePath {s : Specifier} (h : IsCanonical s)
    (hmount : ¬mountPrefix <+: s.toList) : ofRequestPath (encodePath (urlPath s)) = s := by
  have hpath : ¬mountPoint <+: (urlPath s).toList := by
    rintro ⟨t, ht⟩
    exact hmount ⟨t, by rw [h.toList_urlPath, ← ht]; rfl⟩
  rw [ofRequestPath, isPrefixOf?_mountPoint_encodePath hpath, decodePath_encodePath]
  rw [h.clean_urlPath]
  exact h.eq_urlPath.symm

/-- A path that leads to the mount of remote modules still does so escaped: nothing of the mount
needs an escape. -/
theorem mountPoint_prefix_encodePath {path : String} (h : mountPoint <+: path.toList) :
    mountPoint <+: (encodePath path).toList := by
  obtain ⟨rest, hrest⟩ := h
  refine ⟨Percent.encodeWith keepsInPath rest, ?_⟩
  rw [encodePath, String.toList_ofList, ← hrest]
  rfl

/-- What is asked for below the mount is a remote module. -/
theorem isRemote_ofRequestPath {path : String} (h : mountPoint <+: path.toList) :
    isRemote (ofRequestPath path) = true := by
  obtain ⟨rest, hrest⟩ := h
  have hmounted : List.isPrefixOf? mountPoint path.toList = some rest := by
    rw [← hrest, Text.isPrefixOf?_append]
  have hweb (scheme : String) (tail : List Char) (h : scheme = "http" ∨ scheme = "https") :
      isRemote (String.ofList (scheme.toList ++ "://".toList ++ tail)) = true := by
    rw [isRemote, String.toList_ofList]
    rcases h with rfl | rfl
    · simp
    · simp
  rw [ofRequestPath, hmounted]
  dsimp only
  rw [List.append_assoc (_ ++ _)]
  apply hweb
  split
  · exact Or.inl rfl
  · exact Or.inr rfl

/-- Anything else is asked for by its path, decoded and clean. -/
theorem ofRequestPath_of_local {path : String} (h : isRemote (ofRequestPath path) = false) :
    ofRequestPath path = "." ++ clean (decodePath path) := by
  have hmount : ¬mountPoint <+: path.toList := fun hprefix =>
    absurd (isRemote_ofRequestPath hprefix) (ne_true_of_eq_false h)
  rw [ofRequestPath, Text.isPrefixOf?_eq_none hmount]

/-- A canonical local specifier is read back from its escaped path if and only if it does not lie
in the directory that remote modules are mounted in; so no two others share a path. -/
theorem ofRequestPath_encodePath_iff {s : Specifier} (h : IsCanonical s) :
    (ofRequestPath (encodePath (urlPath s)) = s ↔ ¬mountPrefix <+: s.toList) ∧
      ∀ t : Specifier, IsCanonical t → ¬mountPrefix <+: s.toList → ¬mountPrefix <+: t.toList →
        s ≠ t → encodePath (urlPath s) ≠ encodePath (urlPath t) := by
  refine ⟨⟨?_, ofRequestPath_encodePath h⟩, ?_⟩
  · rintro hback ⟨rest, hrest⟩
    have hpath : mountPoint <+: (urlPath s).toList := by
      refine ⟨rest, ?_⟩
      rw [h.toList_urlPath] at hrest
      exact (List.cons.inj hrest).2
    have hremote := isRemote_ofRequestPath (mountPoint_prefix_encodePath hpath)
    rw [hback, h.isRemote] at hremote
    nomatch hremote
  · intro t ht hs ht' hne heq
    apply hne
    calc s = ofRequestPath (encodePath (urlPath s)) := (ofRequestPath_encodePath h hs).symm
      _ = ofRequestPath (encodePath (urlPath t)) := by rw [heq]
      _ = t := ofRequestPath_encodePath ht ht'

/-- Names with a percent sign, a question mark and other alphabets are read back and apart; what
lies in the directory of the mount is read as a remote module. -/
theorem ofRequestPath_encodePath_iff_alphabets :
    let s : Specifier := "./日本/a%2F b?.tsx"
    let t : Specifier := "./日本/a/ b?.tsx"
    let u : Specifier := "./-/esm.sh/react"
    (IsCanonical s ∧ IsCanonical t ∧ IsCanonical u) ∧
      (¬mountPrefix <+: s.toList ∧ ¬mountPrefix <+: t.toList ∧ s ≠ t) ∧
      ofRequestPath (encodePath (urlPath s)) = s ∧
      encodePath (urlPath s) ≠ encodePath (urlPath t) ∧
      encodePath (urlPath u) = "/-/esm.sh/react" ∧
      ofRequestPath (encodePath (urlPath u)) ≠ u := by
  intro s t u
  have hs : IsCanonical s := ⟨"日本/a%2F b?.tsx", by decide +kernel⟩
  have ht : IsCanonical t := ⟨"日本/a/ b?.tsx", by decide +kernel⟩
  have hu : IsCanonical u := ⟨"-/esm.sh/react", by decide +kernel⟩
  have hms : ¬mountPrefix <+: s.toList := by decide +kernel
  have hmt : ¬mountPrefix <+: t.toList := by decide +kernel
  have hmu : mountPrefix <+: u.toList := by decide +kernel
  have hne : s ≠ t := by decide +kernel
  obtain ⟨hback, hapart⟩ := ofRequestPath_encodePath_iff hs
  exact ⟨⟨hs, ht, hu⟩, ⟨hms, hmt, hne⟩, hback.2 hms, hapart t ht hms hmt hne, by decide +kernel,
    fun h => (ofRequestPath_encodePath_iff hu).1.1 h hmu⟩

end Waymark.Specifier
