import Waymark.Proofs.Url.Query
/-!
# What is joined to a URL of the web is on the web

A path that is relative or begins at the root never brings a scheme with it, whatever stands
in it: a slash or a dot comes before any letter.  So it is read relative to the base, and the
base gives the scheme.  Two slashes in front give it another host, but a host it has in any
case.

## Main results

* `isWritten_of_join` — a path joined to a URL of the web is one in its written form.
* `isRemote_toString` — such a URL, written out, is that of a remote module.
-/

namespace Waymark.Url

open Percent

/-! ## Paths -/

/-- A text that begins with a dot or a slash. -/
def BeginsPath (text : List Char) : Prop := ∃ c rest, text = c :: rest ∧ (c = '.' ∨ c = '/')

theorem beginsPath_trim {text : List Char} (h : BeginsPath text) : BeginsPath (trim text) := by
  obtain ⟨c, rest, rfl, hc⟩ := h
  have hvisible : decide (c.toNat ≤ 0x20) = false := by
    rcases hc with rfl | rfl
    · decide
    · decide
  refine ⟨c, Text.dropEndWhile (·.toNat ≤ 0x20) rest, ?_, hc⟩
  rw [trim, List.dropWhile_cons_of_neg (by simp [hvisible]), Text.dropEndWhile, Text.dropEndWhile,
    List.reverse_cons, List.dropWhile_append]
  split
  · rename_i hempty
    rw [List.dropWhile_cons_of_neg (by simp [hvisible]), List.isEmpty_iff.1 hempty]
    rfl
  · rw [List.reverse_append]
    rfl

theorem beginsPath_cutSuffixes {text : List Char} (h : BeginsPath text) :
    BeginsPath (cutSuffixes text).1 := by
  obtain ⟨c, rest, rfl, hc⟩ := h
  have hmarks : ∀ d ∈ [c], d ≠ '#' ∧ d ≠ '?' := by
    intro d hd
    rw [List.mem_singleton.1 hd]
    rcases hc with rfl | rfl
    · decide
    · decide
  obtain ⟨more, hmore⟩ := isPrefix_cutSuffixes hmarks rest
  exact ⟨c, more, hmore.symm, hc⟩

theorem beginsPath_dropBreaks {text : List Char} (h : BeginsPath text) :
    BeginsPath (dropBreaks text) := by
  obtain ⟨c, rest, rfl, hc⟩ := h
  refine ⟨c, dropBreaks rest, ?_, hc⟩
  rw [dropBreaks, List.filter_cons_of_pos]
  · rfl
  · rcases hc with rfl | rfl
    · decide
    · decide

/-- A path brings no scheme with it. -/
theorem schemeOf?_path {text : List Char} (h : BeginsPath text) : schemeOf? text = none := by
  obtain ⟨c, rest, rfl, rfl | rfl⟩ := h
  · rfl
  · rfl

/-! ## Joined paths -/

/-- What is read relative to a URL in its written form is in its written form. -/
theorem isWritten_of_readRelative {base u : Url} (hbase : IsWritten base) {front : List Char}
    {query fragment : Option (List Char)} (hne : front ≠ [])
    (hquery : ∀ q, query = some q → IsEncoded (keepsInQuery true) q)
    (hfragment : ∀ f, fragment = some f → IsEncoded keepsInFragment f)
    (h : readRelative base front query fragment = .ok u) : IsWritten u := by
  have hsuffix {path : List (List Char)} (hpath : ∀ s ∈ path, IsSegment s) (text : List Char) :
      IsWritten (base.withSuffix (walkPath base.scheme path text) query fragment) :=
    ⟨hbase.scheme, hbase.username, hbase.password, hbase.host, hbase.port,
      exists_walkPath hbase.scheme hpath text, hquery, hfragment⟩
  unfold readRelative at h
  split at h
  · exact absurd rfl hne
  · split at h
    · split at h
      · exact isWritten_of_readAuthority hbase.scheme hquery hfragment h
      · exact Except.ok.inj h ▸ hsuffix (by simp) _
    · obtain ⟨segments, hsegments, -, hall⟩ := hbase.path
      refine Except.ok.inj h ▸ hsuffix (fun s hs => hall s ?_) _
      rw [hsegments] at hs
      exact (List.dropLast_sublist _).subset hs

/-- A path joined to a URL of the web is one in its written form. -/
theorem isWritten_of_join {base u : Url} (hbase : IsWritten base) {path : String}
    (hpath : BeginsPath path.toList) (h : base.join path = .ok u) : IsWritten u := by
  have hfront := beginsPath_dropBreaks (beginsPath_cutSuffixes (beginsPath_trim hpath))
  have hne : dropBreaks (cutSuffixes (trim path.toList)).1 ≠ [] := by
    obtain ⟨c, rest, hrest, -⟩ := hfront
    rw [hrest]
    exact List.cons_ne_nil _ _
  obtain ⟨segments, hsegments, -, -⟩ := hbase.path
  unfold join read at h
  dsimp only at h
  rw [schemeOf?_path hfront] at h
  dsimp only at h
  rw [hsegments] at h
  dsimp only at h
  rw [if_neg hbase.scheme.ne_file] at h
  refine isWritten_of_readRelative hbase hne ?_ ?_ h
  · intro q hq
    obtain ⟨raw, -, rfl⟩ := Option.map_eq_some_iff.1 hq
    unfold encodeQuery
    rw [hbase.scheme.isSpecial]
    exact isEncoded_encodeWith (by decide) (by decide) raw
  · intro f hf
    obtain ⟨raw, -, rfl⟩ := Option.map_eq_some_iff.1 hf
    exact isEncoded_encodeWith (by decide) (by decide) _

/-- A URL of the web, written out, is that of a remote module. -/
theorem isRemote_toString {u : Url} (hu : IsWritten u) :
    Specifier.isRemote (toString u) = true := by
  obtain ⟨host, hhost, -⟩ := hu.host
  have htext : ∃ rest, (toString u).toList = u.scheme ++ "://".toList ++ rest := by
    show ∃ rest, (String.ofList u.toText).toList = _
    rw [String.toList_ofList, toText, authority, hhost]
    simp
  obtain ⟨rest, hrest⟩ := htext
  rw [Specifier.isRemote, hrest, Bool.or_eq_true, List.isPrefixOf_iff_prefix,
    List.isPrefixOf_iff_prefix]
  rcases hu.scheme with hscheme | hscheme
  · exact Or.inr (hscheme ▸ List.prefix_append _ _)
  · exact Or.inl (hscheme ▸ List.prefix_append _ _)

end Waymark.Url
