import Waymark.Proofs.App.Runs
import Waymark.Proofs.Specifier.RequestPath
import Waymark.Proofs.Url.Written
/-!
# What is read is written

A text that is read as a URL of the web gives parts in their written form, so that the
URL, written out, is read as itself.  Each part is escaped when it is read, and escaping
again changes nothing; the host was read by rules that keep what they write; and the
path was walked along, so that no dots are left in it.  That escaping makes no dots is
seen from the one octet that a dot is: it is never escaped.

## Main results

* `isSegment_encodeWith` — a segment that is walked along is written.
* `isWritten_of_parse` — a URL of the web is read in its written form.
* `parse_toString_of_parse` — it is read as itself.
-/

namespace Waymark.Url

open Percent

/-! ## Dots -/

theorem toLower_of_le {c : Char} (h : 128 ≤ c.toNat) : c.toLower = c := by
  unfold Char.toLower
  split
  · rename_i hupper
    have hle : c.toNat ≤ 90 := hupper.2
    omega
  · rfl

/-- Signs and digits are the lower case of nothing else. -/
theorem eq_of_toLower {c d : Char} (hd : d ∈ ['.', '%', '2']) (h : c.toLower = d) : c = d := by
  by_cases hc : c.toNat < 128
  · refine Text.forall_ascii (P := fun c => c.toLower = d → c = d) ?_ hc h
    refine Text.forall_mem_of_all
      (P := fun d => ∀ n < 128, (Char.ofNat n).toLower = d → Char.ofNat n = d) ?_ d hd
    decide
  · rw [← h, toLower_of_le (by omega)]

/-- A text of `n` dots, each plain or escaped. -/
inductive Dots : Nat → List Char → Prop where
  | nil : Dots 0 []
  | plain {n : Nat} {s : List Char} (h : Dots n s) : Dots (n + 1) ('.' :: s)
  | escaped {n : Nat} {e : Char} {s : List Char} (he : e.toLower = 'e') (h : Dots n s) :
      Dots (n + 1) ('%' :: '2' :: e :: s)

/-- Without escapes, dots are dots. -/
theorem eq_replicate_of_dots {n : Nat} {s : List Char} (h : Dots n s) (hescape : '%' ∉ s) :
    s = List.replicate n '.' := by
  induction h with
  | nil => rfl
  | plain h ih => rw [List.replicate_succ, ← ih fun hmem => hescape (List.mem_cons_of_mem _ hmem)]
  | escaped he h ih => exact absurd (List.mem_cons_self ..) hescape

/-- Texts of dots by what they are in lower case. -/
theorem dots_plain {n : Nat} {s t : List Char} (h : ∀ s, s.map Char.toLower = t → Dots n s)
    (hs : s.map Char.toLower = '.' :: t) : Dots (n + 1) s := by
  obtain ⟨c, s', rfl, hc, ht⟩ := List.map_eq_cons_iff.1 hs
  obtain rfl := eq_of_toLower (by decide) hc
  exact .plain (h s' ht)

theorem dots_escaped {n : Nat} {s t : List Char} (h : ∀ s, s.map Char.toLower = t → Dots n s)
    (hs : s.map Char.toLower = '%' :: '2' :: 'e' :: t) : Dots (n + 1) s := by
  obtain ⟨c₁, s₁, rfl, h₁, hs₁⟩ := List.map_eq_cons_iff.1 hs
  obtain ⟨c₂, s₂, rfl, h₂, hs₂⟩ := List.map_eq_cons_iff.1 hs₁
  obtain ⟨c₃, s₃, rfl, h₃, hs₃⟩ := List.map_eq_cons_iff.1 hs₂
  obtain rfl := eq_of_toLower (by decide) h₁
  obtain rfl := eq_of_toLower (by decide) h₂
  exact .escaped h₃ (h s₃ hs₃)

theorem dots_nil {s : List Char} (hs : s.map Char.toLower = []) : Dots 0 s := by
  obtain rfl := List.map_eq_nil_iff.1 hs
  exact .nil

theorem dots_one_iff {s : List Char} :
    Dots 1 s ↔ s.map Char.toLower = ['.'] ∨ s.map Char.toLower = ['%', '2', 'e'] := by
  constructor
  · rintro (_ | ⟨_ | _⟩ | ⟨he, _ | _⟩)
    · exact Or.inl rfl
    · right
      rw [List.map_cons, List.map_cons, List.map_cons, he]
      rfl
  · rintro (hs | hs)
    · exact dots_plain (fun _ => dots_nil) hs
    · exact dots_escaped (fun _ => dots_nil) hs

theorem isSingleDot_iff {s : List Char} : isSingleDot s = true ↔ Dots 1 s := by
  rw [dots_one_iff]
  simp [isSingleDot]

theorem isDoubleDot_iff {s : List Char} : isDoubleDot s = true ↔ Dots 2 s := by
  have hmem : isDoubleDot s = true ↔ s.map Char.toLower = ['.', '.'] ∨
      s.map Char.toLower = ['.', '%', '2', 'e'] ∨ s.map Char.toLower = ['%', '2', 'e', '.'] ∨
      s.map Char.toLower = ['%', '2', 'e', '%', '2', 'e'] := by
    simp [isDoubleDot]
  rw [hmem]
  constructor
  · rintro (hs | hs | hs | hs)
    · exact dots_plain (fun _ h => dots_one_iff.2 (Or.inl h)) hs
    · exact dots_plain (fun _ h => dots_one_iff.2 (Or.inr h)) hs
    · exact dots_escaped (fun _ h => dots_one_iff.2 (Or.inl h)) hs
    · exact dots_escaped (fun _ h => dots_one_iff.2 (Or.inr h)) hs
  · rintro (_ | ⟨h⟩ | ⟨he, h⟩)
    · rcases dots_one_iff.1 h with h | h
      · exact Or.inl (congrArg ('.' :: ·) h)
      · exact Or.inr (Or.inl (congrArg ('.' :: ·) h))
    · rw [List.map_cons, List.map_cons, List.map_cons, he]
      rcases dots_one_iff.1 h with h | h
      · exact Or.inr (Or.inr (Or.inl (congrArg (['%', '2', 'e'] ++ ·) h)))
      · exact Or.inr (Or.inr (Or.inr (congrArg (['%', '2', 'e'] ++ ·) h)))

theorem encodeWith_cons (keep : Char → Bool) (c : Char) (s : List Char) :
    encodeWith keep (c :: s) = (if c.toNat < 128 && keep c then [c]
      else (String.utf8EncodeChar c).flatMap escape) ++ encodeWith keep s := rfl

/-- Only a dot is written as the octet of a dot. -/
theorem eq_dot_of_utf8EncodeChar {c : Char} {b : UInt8} {bs : List UInt8}
    (h : String.utf8EncodeChar c = b :: bs) (hb : b.toNat = 0x2E) : c = '.' := by
  have hfirst {n : Nat} (hn : n < 256) (hne : n ≠ 0x2E) : UInt8.ofNat n ≠ b := by
    rintro rfl
    rw [Text.Utf8.toNat_ofNat hn] at hb
    exact hne hb
  unfold String.utf8EncodeChar at h
  dsimp only at h
  split at h
  · rename_i hascii
    have hv : c.val.toNat = 0x2E := by
      by_contra hne
      exact hfirst (by omega) hne (List.cons.inj h).1
    rw [← Char.ofNat_toNat c]
    show Char.ofNat c.val.toNat = '.'
    rw [hv]
  · split at h
    · exact absurd (List.cons.inj h).1 (hfirst (by omega) (by omega))
    · split at h
      · exact absurd (List.cons.inj h).1 (hfirst (by omega) (by omega))
      · exact absurd (List.cons.inj h).1 (hfirst (by omega) (by omega))

/-- No text but one of dots is escaped to dots. -/
theorem Dots.of_encodeWith {n : Nat} {s t : List Char} (h : Dots n t)
    (hs : encodeWith keepsInPath s = t) : Dots n s := by
  induction h generalizing s with
  | nil =>
    cases s with
    | nil => exact .nil
    | cons c s =>
      rw [encodeWith_cons] at hs
      obtain ⟨hfront, -⟩ := List.append_eq_nil_iff.1 hs
      split at hfront
      · nomatch hfront
      · cases hb : String.utf8EncodeChar c with
        | nil => exact absurd hb String.utf8EncodeChar_ne_nil
        | cons b bs =>
          rw [hb] at hfront
          nomatch hfront
  | plain h ih =>
    obtain ⟨s', rfl, hs'⟩ := Specifier.eq_cons_of_encodeWith (by decide) hs
    exact .plain (ih hs')
  | escaped he h ih =>
    rename_i e t
    cases s with
    | nil => nomatch hs
    | cons c s =>
      rw [encodeWith_cons] at hs
      split at hs
      · obtain ⟨rfl, hs₁⟩ := List.cons.inj hs
        have hne : e ≠ '%' := by
          rintro rfl
          exact absurd he (by decide)
        obtain ⟨s₂, rfl, hs₂⟩ := Specifier.eq_cons_of_encodeWith (by decide) hs₁
        obtain ⟨s₃, rfl, hs₃⟩ := Specifier.eq_cons_of_encodeWith hne hs₂
        exact .escaped he (ih hs₃)
      · rename_i hescaped
        cases hb : String.utf8EncodeChar c with
        | nil => exact absurd hb String.utf8EncodeChar_ne_nil
        | cons b bs =>
          -- The octet would be that of a dot, which is not escaped.
          rw [hb] at hs
          have hlt : b.toNat < 256 := b.toNat_lt
          obtain ⟨hhigh, hs⟩ := List.cons.inj (List.cons.inj hs).2
          have hlow := (List.cons.inj hs).1
          have hdigits : ∀ n < 16, (hexDigit n = '2' → n = 2) ∧
              ((hexDigit n).toLower = 'e' → n = 14) := by decide
          have hdiv := (hdigits (b.toNat / 16) (by omega)).1 hhigh
          have hmod := (hdigits (b.toNat % 16) (by omega)).2 (hlow ▸ he)
          obtain rfl := eq_dot_of_utf8EncodeChar hb (by omega)
          exact absurd (by decide) hescaped

/-! ## Paths -/

/-- A segment that is walked along is written. -/
theorem isSegment_encodeWith {s : List Char} (hslash : ∀ c ∈ s, isSlash true c = false)
    (hsingle : isSingleDot s = false) (hdouble : isDoubleDot s = false) :
    IsSegment (encodeWith keepsInPath s) where
  encoded := isEncoded_encodeWith (by decide) (by decide) s
  noSlash := by
    intro c hc
    rcases mem_encodeWith hc with ⟨hc, -⟩ | rfl | ⟨n, hn, rfl⟩
    · exact hslash c hc
    · decide
    · exact (by decide : ∀ n < 16, isSlash true (hexDigit n) = false) n hn
  notSingle := by
    rw [Bool.eq_false_iff]
    intro h
    rw [isSingleDot_iff.2 ((isSingleDot_iff.1 h).of_encodeWith rfl)] at hsingle
    nomatch hsingle
  notDouble := by
    rw [Bool.eq_false_iff]
    intro h
    rw [isDoubleDot_iff.2 ((isDoubleDot_iff.1 h).of_encodeWith rfl)] at hdouble
    nomatch hdouble

theorem isSegment_nil : IsSegment [] :=
  ⟨(fun _ hc => nomatch hc), (fun _ hc => nomatch hc), by decide, by decide⟩

theorem mem_climb {s : List Char} {passed : List (List Char)} (h : s ∈ climb passed) :
    s ∈ passed := by
  cases passed with
  | nil => exact h
  | cons r above =>
    have h : s ∈ if isDriveRoot r then r :: above else above := h
    split at h
    · exact h
    · exact List.mem_cons_of_mem _ h

theorem isSegment_push {scheme : List Char} (hfile : scheme ≠ fileScheme) {w : Walk} {last : Bool}
    {piece : List Char} (hpiece : ∀ c ∈ piece, isSlash true c = false)
    (hw : ∀ s ∈ w.passed, IsSegment s) : ∀ s ∈ (w.push scheme last piece).passed, IsSegment s := by
  have htail : ∀ passed : List (List Char), (∀ s ∈ passed, IsSegment s) →
      ∀ s ∈ (if last then [[]] else []) ++ passed, IsSegment s := by
    intro passed hpassed s hs
    rcases List.mem_append.1 hs with hs | hs
    · split at hs
      · obtain rfl := List.mem_singleton.1 hs
        exact isSegment_nil
      · nomatch hs
    · exact hpassed s hs
  rw [push_of_ne_file hfile]
  split
  · exact htail _ fun s hs => hw s (mem_climb hs)
  · rename_i hdouble
    split
    · exact htail _ hw
    · rename_i hsingle
      intro s hs
      rcases List.mem_cons.1 hs with rfl | hs
      · apply isSegment_encodeWith
        · exact fun c hc => hpiece c (List.mem_filter.1 hc).1
        · exact Bool.eq_false_iff.2 hsingle
        · exact Bool.eq_false_iff.2 hdouble
      · exact hw s hs

/-- A walk that ends stands somewhere. -/
theorem passed_push_last {scheme : List Char} (hfile : scheme ≠ fileScheme) (w : Walk)
    (piece : List Char) : (w.push scheme true piece).passed ≠ [] := by
  rw [push_of_ne_file hfile]
  split
  · exact List.cons_ne_nil _ _
  · split
    · exact List.cons_ne_nil _ _
    · exact List.cons_ne_nil _ _

theorem isSegment_pushAll {scheme : List Char} (hfile : scheme ≠ fileScheme)
    {pieces : List (List Char)} (hpieces : ∀ p ∈ pieces, ∀ c ∈ p, isSlash true c = false)
    (hne : pieces ≠ []) {w : Walk} (hw : ∀ s ∈ w.passed, IsSegment s) :
    (w.pushAll scheme pieces).passed ≠ [] ∧
      ∀ s ∈ (w.pushAll scheme pieces).passed, IsSegment s := by
  induction pieces generalizing w with
  | nil => exact absurd rfl hne
  | cons p pieces ih =>
    have hp := hpieces p (List.mem_cons_self ..)
    cases pieces with
    | nil => exact ⟨passed_push_last hfile w p, isSegment_push hfile hp hw⟩
    | cons q pieces =>
      exact ih (fun r hr => hpieces r (List.mem_cons_of_mem _ hr)) (List.cons_ne_nil _ _)
        (isSegment_push hfile hp hw)

/-- What a path leads to is written. -/
theorem exists_walkPath {scheme : List Char} (hweb : IsWeb scheme) {path : List (List Char)}
    (hpath : ∀ s ∈ path, IsSegment s) (text : List Char) :
    ∃ segments, walkPath scheme path text = .rooted segments ∧ segments ≠ [] ∧
      ∀ s ∈ segments, IsSegment s := by
  have hpieces : ∀ p ∈ piecesOf scheme text, ∀ c ∈ p, isSlash true c = false := by
    intro p hp
    unfold piecesOf at hp
    rw [hweb.isSpecial] at hp
    exact Text.notSeparator_of_mem_piecesWhere hp
  obtain ⟨hne, hall⟩ := isSegment_pushAll hweb.ne_file hpieces (Text.piecesWhere_ne_nil _ _)
    (w := Walk.start path) fun s hs => hpath s (List.mem_reverse.1 hs)
  refine ⟨(walk scheme path text).passed.reverse, ?_, ?_, ?_⟩
  · rw [walkPath, Walk.toPath, if_neg hweb.ne_file]
  · exact fun hnil => hne (List.reverse_eq_nil_iff.1 hnil)
  · exact fun s hs => hall s (List.mem_reverse.1 hs)

/-! ## Authorities -/

theorem le_of_readAfterHost {scheme s rest : List Char} {port : Option Nat}
    (h : readAfterHost scheme s = .ok (port, rest)) :
    ∀ p, port = some p → p ≤ 65535 ∧ defaultPort scheme ≠ some p := by
  rintro p rfl
  cases s with
  | nil => nomatch h
  | cons c s =>
    have h : readPort scheme s = .ok (some p, rest) := h
    refine ⟨?_, readPort_default h⟩
    have hkeep {digits left : List Char} {n : Nat} (hle : digits ≠ [] → n ≤ 65535)
        (hkeep : readPort.keep scheme digits n left = .ok (some p, rest)) : p ≤ 65535 := by
      unfold readPort.keep at hkeep
      split at hkeep
      · nomatch hkeep
      · rename_i hdigits
        obtain ⟨hp, -⟩ := Prod.mk.inj (Except.ok.inj hkeep)
        obtain rfl := Option.some.inj hp
        exact hle fun hnil => hdigits (Or.inl hnil)
    unfold readPort at h
    dsimp only at h
    split at h
    · nomatch h
    · rename_i hfits
      split at h
      · split at h
        · exact hkeep (fun hne => by_contra fun hlt => hfits ⟨hne, by omega⟩) h
        · nomatch h
      · exact hkeep (fun hne => by_contra fun hlt => hfits ⟨hne, by omega⟩) h

/-- The parts of an authority are written when they are read. -/
theorem isWritten_of_readAuthority {scheme text : List Char} (hweb : IsWeb scheme)
    {query fragment : Option (List Char)}
    (hquery : ∀ q, query = some q → IsEncoded (keepsInQuery true) q)
    (hfragment : ∀ f, fragment = some f → IsEncoded keepsInFragment f) {u : Url}
    (h : readAuthority scheme text query fragment = .ok u) : IsWritten u := by
  unfold readAuthority at h
  dsimp only at h
  split at h
  · cases h
  · unfold readParts at h
    dsimp only at h
    split at h
    · cases h
    · obtain ⟨host, hhost, h⟩ := exists_of_bind_eq_ok h
      rw [if_pos hweb.isSpecial] at hhost
      split at h
      · cases h
      · obtain ⟨⟨port, afterPort⟩, hport, h⟩ := exists_of_bind_eq_ok h
        dsimp only at h
        split at h
        · cases h
        · obtain rfl := Except.ok.inj h
          refine ⟨hweb, ?_, ?_, ⟨host, rfl, readHost_of_readHost hhost⟩, le_of_readAfterHost hport,
            ?_, hquery, hfragment⟩
          · exact isEncoded_encodeWith (by decide) (by decide) _
          · exact isEncoded_encodeWith (by decide) (by decide) _
          · show ∃ segments, readPathAfter scheme _ = _ ∧ _
            unfold readPathAfter
            split
            · rw [if_pos hweb.isSpecial]
              refine ⟨[[]], rfl, List.cons_ne_nil _ _, ?_⟩
              intro s hs
              obtain rfl := List.mem_singleton.1 hs
              exact isSegment_nil
            · have hroot : ∀ s ∈ ([] : List (List Char)), IsSegment s := by
                intro s hs
                cases hs
              exact exists_walkPath hweb hroot _

theorem parts_of_readAuthority {scheme text : List Char} {query fragment : Option (List Char)}
    {u : Url} (h : readAuthority scheme text query fragment = .ok u) :
    u.scheme = scheme ∧ u.query = query := by
  unfold readAuthority at h
  dsimp only at h
  split at h
  · nomatch h
  · unfold readParts at h
    dsimp only at h
    split at h
    · nomatch h
    · obtain ⟨host, -, h⟩ := exists_of_bind_eq_ok h
      split at h
      · nomatch h
      · obtain ⟨⟨port, afterPort⟩, -, h⟩ := exists_of_bind_eq_ok h
        dsimp only at h
        split at h
        · nomatch h
        · obtain rfl := Except.ok.inj h
          exact ⟨rfl, rfl⟩

/-! ## Whole URLs -/

theorem scheme_of_readFile {text : List Char} {query fragment : Option (List Char)} {u : Url}
    (h : readFile none text query fragment = .ok u) : u.scheme = fileScheme := by
  unfold readFile at h
  split at h
  · rename_i hbase
    nomatch hbase
  · obtain rfl := Except.ok.inj h
    rfl
  · split at h
    · split at h
      · unfold readFileHost at h
        dsimp only at h
        split at h
        · obtain rfl := Except.ok.inj h
          rfl
        · split at h
          · obtain rfl := Except.ok.inj h
            rfl
          · obtain ⟨host, -, h⟩ := exists_of_bind_eq_ok h
            obtain rfl := Except.ok.inj h
            rfl
      · obtain rfl := Except.ok.inj h
        rfl
    · obtain rfl := Except.ok.inj h
      rfl

theorem scheme_of_readWithScheme {scheme text : List Char} {query fragment : Option (List Char)}
    {u : Url} (h : readWithScheme none scheme text query fragment = .ok u) :
    u.scheme = scheme := by
  unfold readWithScheme at h
  dsimp only [Option.filter_none] at h
  split at h
  · rename_i hfile
    rw [hfile]
    exact scheme_of_readFile h
  · split at h
    · exact (parts_of_readAuthority h).1
    · split at h
      · exact (parts_of_readAuthority h).1
      · obtain rfl := Except.ok.inj h
        rfl
      · obtain rfl := Except.ok.inj h
        rfl

/-- A URL of the web is read in its written form. -/
theorem isWritten_of_parse {text : String} {u : Url} (h : parse text = .ok u)
    (hweb : IsWeb u.scheme) : IsWritten u := by
  unfold parse read at h
  dsimp only at h
  split at h
  · rename_i scheme _ _
    obtain rfl := scheme_of_readWithScheme h
    unfold readWithScheme at h
    dsimp only [Option.filter_none] at h
    rw [if_neg hweb.ne_file, if_pos hweb.isSpecial] at h
    refine isWritten_of_readAuthority hweb ?_ ?_ h
    · intro q hq
      obtain ⟨raw, -, rfl⟩ := Option.map_eq_some_iff.1 hq
      unfold encodeQuery
      rw [hweb.isSpecial]
      exact isEncoded_encodeWith (by decide) (by decide) raw
    · intro f hf
      obtain ⟨raw, -, rfl⟩ := Option.map_eq_some_iff.1 hf
      exact isEncoded_encodeWith (by decide) (by decide) _
  · nomatch h
  · rename_i hbase
    nomatch hbase

/-- What is read as a URL of the web is, written out, read as itself. -/
theorem parse_toString_of_parse {text : String} {u : Url} (h : parse text = .ok u)
    (hweb : IsWeb u.scheme) : parse (toString u) = .ok u :=
  parse_toString (isWritten_of_parse h hweb)

end Waymark.Url
