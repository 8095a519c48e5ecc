import Waymark.Proofs.Url.Read
/-!
# A query behind a URL

A text that begins like a URL of the web, has no query and no fragment and ends in
something visible is read in the same way with a query behind it: all parts are the
same, and failures too, but for the query.

## Main results

* `readAuthority_some` — a query does not change how an authority is read.
* `scheme_of_parse_web` — what begins like a URL of the web is read as one.
* `parse_append_query` — a query behind a URL is its query.
-/

namespace Waymark.Url

open Percent

/-- What is read from a text on the web, up to the query. -/
def WithQuery (query : List Char) (plain asked : Except UrlError Url) : Prop :=
  asked = plain.map fun u => { u with query := some query }

theorem readParts_some (scheme : List Char) (a : Authority) (path query : List Char) :
    WithQuery query (readParts scheme a path none none) (readParts scheme a path (some query) none) := by
  unfold WithQuery readParts
  dsimp only
  split
  · rfl
  · cases hhost : (if isSpecial scheme = true then readHost else readPlainHost) a.host with
    | error e => rfl
    | ok host =>
      simp only [bind, Except.bind]
      split
      · rfl
      · cases hport : readAfterHost scheme a.afterHost with
        | error e => rfl
        | ok after =>
          dsimp only
          split
          · rfl
          · rfl

/-- A query does not change how an authority is read. -/
theorem readAuthority_some {scheme : List Char} (hweb : IsWeb scheme) (text query : List Char) :
    WithQuery query (readAuthority scheme text none none)
      (readAuthority scheme text (some query) none) := by
  unfold readAuthority
  dsimp only
  generalize cutAuthority (text.takeWhile fun c => !isSlash (isSpecial scheme) c) = a
  by_cases hempty : a.host = []
  · -- Both fail alike, whatever they find first.
    have hfails (path : List Char) (q f : Option (List Char)) :
        readParts scheme a path q f = .error .emptyHost := by
      unfold readParts
      dsimp only
      rw [if_pos ⟨hweb.isSpecial, hempty⟩]
    rw [hfails, hfails]
    unfold WithQuery
    split
    · split
      · rfl
      · rfl
    · split
      · rfl
      · rfl
  · rw [if_neg fun h => hempty h.2.1, if_neg fun h => hempty h.2.1]
    exact readParts_some scheme a _ query

section
variable {scheme rest query : List Char}

theorem trim_web (hweb : IsWeb scheme) {text : List Char} (hne : text ≠ [])
    (hlast : ∀ c ∈ text.getLast?, 0x20 < c.toNat) : trim (scheme ++ text) = scheme ++ text := by
  apply trim_eq_self
  · rcases hweb with rfl | rfl
    · intro c hc
      obtain rfl := Option.some.inj hc
      decide
    · intro c hc
      obtain rfl := Option.some.inj hc
      decide
  · rw [List.getLast?_append]
    cases hend : text.getLast? with
    | none => exact absurd (List.getLast?_eq_none_iff.1 hend) hne
    | some last =>
      rw [hend] at hlast
      rw [Option.some_or]
      exact hlast

theorem dropBreaks_web (hweb : IsWeb scheme) (rest : List Char) :
    dropBreaks (scheme ++ ':' :: rest) = scheme ++ ':' :: dropBreaks rest := by
  have happend : dropBreaks (scheme ++ ':' :: rest) = dropBreaks scheme ++ dropBreaks (':' :: rest) :=
    List.filter_append ..
  have hscheme : dropBreaks scheme = scheme := by
    rcases hweb with rfl | rfl
    · rfl
    · rfl
  rw [happend, hscheme]
  rfl

theorem trim_web_query (hweb : IsWeb scheme) (hlast : ∀ c ∈ (':' :: rest).getLast?, 0x20 < c.toNat)
    {query : Option (List Char)} (hquery : ∀ q ∈ query, q ≠ [] ∧ IsEncoded (keepsInQuery true) q) :
    trim (scheme ++ ':' :: rest ++ queryText query) = scheme ++ ':' :: rest ++ queryText query := by
  rw [List.append_assoc]
  apply trim_web hweb (List.cons_ne_nil _ _)
  cases query with
  | none =>
    have happend : ':' :: rest ++ queryText none = ':' :: rest := List.append_nil _
    intro c hc
    have hc : c ∈ (':' :: rest ++ queryText none).getLast? := hc
    rw [happend] at hc
    exact hlast c hc
  | some q =>
    obtain ⟨hne, hencoded⟩ := hquery q rfl
    intro c hc
    have hc : c ∈ (':' :: rest ++ '?' :: q).getLast? := hc
    rw [List.getLast?_append, List.getLast?_cons, Option.some_or] at hc
    obtain rfl := Option.some.inj hc
    cases hend : q.getLast? with
    | none => exact absurd (List.getLast?_eq_none_iff.1 hend) hne
    | some last =>
      have hvisible : IsVisible q := forall_isEncoded (by decide) hencoded
      exact hvisible last (List.mem_of_getLast? hend)

/-- A text that begins like a URL of the web is read by its authority. -/
theorem parse_web (hweb : IsWeb scheme) (hmark : '?' ∉ rest) (hhash : '#' ∉ rest)
    (hlast : ∀ c ∈ (':' :: rest).getLast?, 0x20 < c.toNat) {query : Option (List Char)}
    (hquery : ∀ q ∈ query, q ≠ [] ∧ IsEncoded (keepsInQuery true) q) :
    parse (String.ofList (scheme ++ ':' :: rest ++ queryText query)) =
      readAuthority scheme ((dropBreaks rest).dropWhile (isSlash true)) query none := by
  have hscheme : ∀ c ∈ scheme, inScheme c = true := by
    rcases hweb with rfl | rfl
    · exact Text.forall_mem_of_all (by decide)
    · exact Text.forall_mem_of_all (by decide)
  have hencoded : ∀ q ∈ query, IsEncoded (keepsInQuery true) q := fun q hq => (hquery q hq).2
  have hfront {c : Char} (hc : inScheme c = false) (hcolon : c ≠ ':') (hrest : c ∉ rest) :
      c ∉ scheme ++ ':' :: rest := by
    intro hmem
    rcases List.mem_append.1 hmem with hmem | hmem
    · rw [hscheme c hmem] at hc
      nomatch hc
    · rcases List.mem_cons.1 hmem with hmem | hmem
      · exact hcolon hmem
      · exact hrest hmem
  have hcut : cutSuffixes (scheme ++ ':' :: rest ++ queryText query) =
      (scheme ++ ':' :: rest, query, none) := by
    have hhashQuery : '#' ∉ scheme ++ ':' :: rest ++ queryText query := by
      intro hmem
      rcases List.mem_append.1 hmem with hmem | hmem
      · exact hfront (by decide) (by decide) hhash hmem
      · exact notMem_queryText hencoded hmem
    have hcut := cutSuffixes_append hhashQuery (hfront (by decide) (by decide) hmark) none
    rwa [show fragmentText none = [] from rfl, List.append_nil] at hcut
  unfold parse read
  rw [String.toList_ofList, trim_web_query hweb hlast hquery, hcut]
  dsimp only [Option.map_none]
  rw [dropBreaks_web hweb, schemeOf?_web hweb]
  dsimp only
  rw [map_encodeQuery hweb hencoded, Text.cut_append _ hweb.notMem_colon]
  unfold readWithScheme
  dsimp only [Option.filter_none, Option.map_some, Option.getD_some]
  rw [if_neg hweb.ne_file, if_pos hweb.isSpecial]

/-- A query behind a URL is its query. -/
theorem parse_append_query (hweb : IsWeb scheme) (hmark : '?' ∉ rest) (hhash : '#' ∉ rest)
    (hlast : ∀ c ∈ (':' :: rest).getLast?, 0x20 < c.toNat) (hne : query ≠ [])
    (hquery : IsEncoded (keepsInQuery true) query) :
    (∀ u, parse (String.ofList (scheme ++ ':' :: rest)) = .ok u →
      u.scheme = scheme ∧ u.query = none) ∧
      WithQuery query (parse (String.ofList (scheme ++ ':' :: rest)))
        (parse (String.ofList (scheme ++ ':' :: rest ++ '?' :: query))) := by
  have hnone : ∀ q ∈ (none : Option (List Char)), q ≠ [] ∧ IsEncoded (keepsInQuery true) q := nofun
  have hsome : ∀ q ∈ some query, q ≠ [] ∧ IsEncoded (keepsInQuery true) q := by
    intro q hq
    obtain rfl := Option.some.inj hq
    exact ⟨hne, hquery⟩
  have hplain := parse_web hweb hmark hhash hlast hnone
  have hasked := parse_web hweb hmark hhash hlast hsome
  rw [show queryText none = [] from rfl, List.append_nil] at hplain
  have hasked : parse (String.ofList (scheme ++ ':' :: rest ++ '?' :: query)) = _ := hasked
  rw [hplain, hasked]
  constructor
  · intro u hu
    exact parts_of_readAuthority hu
  · exact readAuthority_some hweb _ query

/-- What stands before query and fragment begins with what holds no mark of either. -/
theorem isPrefix_cutSuffixes {a : List Char} (ha : ∀ c ∈ a, c ≠ '#' ∧ c ≠ '?') (t : List Char) :
    a <+: (cutSuffixes (a ++ t)).1 := by
  have hhash : '#' ∉ a := fun hmem => (ha _ hmem).1 rfl
  have hmark : '?' ∉ a := fun hmem => (ha _ hmem).2 rfl
  have hbefore {c : Char} {s front after : List Char} (hc : c ∉ a) (hs : a <+: s)
      (hcut : Text.cut c s = some (front, after)) : a <+: front := by
    rw [Text.eq_of_cut hcut] at hs
    exact (Text.isPrefix_append_iff hc).1 hs
  unfold cutSuffixes
  cases hcut : Text.cut '#' (a ++ t) with
  | none =>
    dsimp only
    split
    · rename_i hmarked
      exact hbefore hmark (List.prefix_append a t) hmarked
    · exact List.prefix_append a t
  | some halves =>
    have hs := hbefore hhash (List.prefix_append a t) hcut
    dsimp only
    split
    · rename_i hmarked
      exact hbefore hmark hs hmarked
    · exact hs

/-- A text that begins like a URL of the web is read as one. -/
theorem scheme_of_parse_web (hweb : IsWeb scheme) {u : Url}
    (h : parse (String.ofList (scheme ++ ':' :: rest)) = .ok u) : u.scheme = scheme := by
  have hmarks : ∀ c ∈ scheme ++ [':'], c ≠ '#' ∧ c ≠ '?' := by
    rcases hweb with rfl | rfl
    · exact Text.forall_mem_of_all (by decide)
    · exact Text.forall_mem_of_all (by decide)
  have htrim : ∃ rest', trim (scheme ++ ':' :: rest) = scheme ++ ':' :: rest' := by
    have hstart : (scheme ++ ':' :: rest).dropWhile (·.toNat ≤ 0x20) = scheme ++ ':' :: rest := by
      rcases hweb with rfl | rfl
      · rfl
      · rfl
    have hsplit : (scheme ++ ':' :: rest).reverse = rest.reverse ++ (scheme ++ [':']).reverse := by
      simp
    refine ⟨Text.dropEndWhile (·.toNat ≤ 0x20) rest, ?_⟩
    rw [trim, hstart, Text.dropEndWhile, Text.dropEndWhile, hsplit, List.dropWhile_append]
    split
    · rename_i hempty
      have hnil := List.isEmpty_iff.1 hempty
      rw [hnil]
      have hkept : (scheme ++ [':']).reverse.dropWhile (·.toNat ≤ 0x20) =
          (scheme ++ [':']).reverse := by
        rcases hweb with rfl | rfl
        · rfl
        · rfl
      rw [hkept, List.reverse_reverse, List.reverse_nil]
    · rw [List.reverse_append, List.reverse_reverse, List.append_assoc]
      rfl
  obtain ⟨rest', htrim⟩ := htrim
  have hfront : ∃ more, (cutSuffixes (scheme ++ ':' :: rest')).1 = scheme ++ ':' :: more := by
    obtain ⟨more, hmore⟩ := isPrefix_cutSuffixes hmarks rest'
    refine ⟨more, ?_⟩
    rw [List.append_assoc, List.append_assoc] at hmore
    exact hmore.symm
  obtain ⟨more, hmore⟩ := hfront
  unfold parse read at h
  rw [String.toList_ofList, htrim] at h
  dsimp only at h
  rw [hmore, dropBreaks_web hweb, schemeOf?_web hweb] at h
  exact scheme_of_readWithScheme h

end

end Waymark.Url
