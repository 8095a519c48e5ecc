import Waymark.Percent
import Waymark.Proofs.Text.Utf8
import Waymark.Text.Pieces
/-!
# Percent coding is undone

Escaped text is decoded to itself as long as the percent sign is among the
characters that are escaped, or does not stand in the text: a percent sign in the escaped
text then always begins a triple.

## Main results

* `decodeLossy_encodeWith` — decoding gives back what was escaped.
* `notMem_encodeWith` — what is escaped does not stand in the result.
* `encodeWith_of_isEncoded`, `isEncoded_encodeWith` — escaping twice is escaping once, where the
  percent sign is kept.
-/

namespace Waymark.Percent

theorem decodeOctets_plain {c : Char} (h : c ≠ '%') (s : List Char) :
    decodeOctets (c :: s) = String.utf8EncodeChar c ++ decodeOctets s := by
  rw [decodeOctets]
  intro a b rest hc
  exact absurd hc h

theorem decodeOctets_escapeAll (bs : List UInt8) (s : List Char) :
    decodeOctets (bs.flatMap escape ++ s) = bs ++ decodeOctets s := by
  induction bs with
  | nil => rfl
  | cons b bs ih =>
    rw [List.flatMap_cons, List.append_assoc, decodeOctets_escape, ih]
    rfl

theorem decodeOctets_encodeWith {keep : Char → Bool} {s : List Char}
    (hkeep : '%' ∈ s → keep '%' = false) :
    decodeOctets (encodeWith keep s) = Text.Utf8.encode s := by
  induction s with
  | nil => simp [encodeWith, Text.Utf8.encode, decodeOctets]
  | cons c s ih =>
    have ih := ih fun hmem => hkeep (List.mem_cons_of_mem _ hmem)
    show decodeOctets ((if c.toNat < 128 && keep c then [c]
      else (String.utf8EncodeChar c).flatMap escape) ++ encodeWith keep s) =
        String.utf8EncodeChar c ++ Text.Utf8.encode s
    split
    · rename_i hc
      have hne : c ≠ '%' := by
        rintro rfl
        simp [hkeep (List.mem_cons_self ..)] at hc
      rw [List.singleton_append, decodeOctets_plain hne, ih]
    · rw [decodeOctets_escapeAll, ih]

theorem decodeLossy_encodeWith {keep : Char → Bool} {s : List Char}
    (hkeep : '%' ∈ s → keep '%' = false) : decodeLossy (encodeWith keep s) = s := by
  rw [decodeLossy, decodeOctets_encodeWith hkeep, Text.Utf8.decodeLossy_encode]

theorem notMem_escape {c : Char} (h : ∀ n < 16, hexDigit n ≠ c) (hc : c ≠ '%') (b : UInt8) :
    c ∉ escape b := by
  have hb : b.toNat < 256 := b.toNat_lt
  have hi := h (b.toNat / 16) (by omega)
  have lo := h (b.toNat % 16) (by omega)
  simp [escape, hc, hi.symm, lo.symm]

theorem notMem_encodeWith {keep : Char → Bool} {c : Char} (hkeep : keep c = false)
    (h : ∀ n < 16, hexDigit n ≠ c) (hc : c ≠ '%') (s : List Char) : c ∉ encodeWith keep s := by
  intro hmem
  obtain ⟨d, _, hd⟩ := List.mem_flatMap.1 hmem
  split at hd
  · rename_i hkept
    obtain rfl := List.mem_singleton.1 hd
    simp [hkeep] at hkept
  · obtain ⟨b, _, hb⟩ := List.mem_flatMap.1 hd
    exact notMem_escape h hc b hb

/-! ## Parts of a text -/

theorem encodeWith_append (keep : Char → Bool) (s t : List Char) :
    encodeWith keep (s ++ t) = encodeWith keep s ++ encodeWith keep t := List.flatMap_append

/-- A separator that is kept separates what is escaped. -/
theorem encodeWith_joinPieces (keep : Char → Bool) {d : Char}
    (hd : (d.toNat < 128 && keep d) = true) (as : List (List Char)) :
    encodeWith keep (Text.joinPieces d as) = Text.joinPieces d (as.map (encodeWith keep)) := by
  have hkept (s : List Char) : encodeWith keep (d :: s) = d :: encodeWith keep s := by
    show (if d.toNat < 128 && keep d then [d]
      else (String.utf8EncodeChar d).flatMap escape) ++ encodeWith keep s = _
    rw [if_pos hd]
    rfl
  induction as with
  | nil => rfl
  | cons a as ih =>
    cases as with
    | nil => rfl
    | cons b as =>
      have hjoin (x y : List Char) (xs : List (List Char)) :
          Text.joinPieces d (x :: y :: xs) = x ++ d :: Text.joinPieces d (y :: xs) := rfl
      rw [List.map_cons, List.map_cons, hjoin, hjoin, encodeWith_append, hkept, ih, List.map_cons]

/-! ## What needs no escape -/

/-- A text in which nothing needs to be escaped. -/
def IsEncoded (keep : Char → Bool) (s : List Char) : Prop :=
  ∀ c ∈ s, (c.toNat < 128 && keep c) = true

theorem IsEncoded.ne_of_mem {keep : Char → Bool} {s : List Char} (h : IsEncoded keep s)
    {c d : Char} (hc : c ∈ s) (hd : (d.toNat < 128 && keep d) = false) : c ≠ d := by
  rintro rfl
  rw [h c hc] at hd
  nomatch hd

theorem encodeWith_of_isEncoded {keep : Char → Bool} {s : List Char} (h : IsEncoded keep s) :
    encodeWith keep s = s := by
  induction s with
  | nil => rfl
  | cons c s ih =>
    show (if c.toNat < 128 && keep c then [c]
      else (String.utf8EncodeChar c).flatMap escape) ++ encodeWith keep s = c :: s
    rw [if_pos (h c (List.mem_cons_self ..)), ih fun d hd => h d (List.mem_cons_of_mem _ hd)]
    rfl

/-- What escaped text is made of. -/
theorem mem_encodeWith {keep : Char → Bool} {s : List Char} {c : Char} (h : c ∈ encodeWith keep s) :
    (c ∈ s ∧ (c.toNat < 128 && keep c) = true) ∨ c = '%' ∨ ∃ n < 16, c = hexDigit n := by
  obtain ⟨d, hd, hc⟩ := List.mem_flatMap.1 h
  split at hc
  · rename_i hkept
    obtain rfl := List.mem_singleton.1 hc
    exact Or.inl ⟨hd, hkept⟩
  · obtain ⟨b, -, hb⟩ := List.mem_flatMap.1 hc
    have hlt : b.toNat < 256 := b.toNat_lt
    simp only [escape, List.mem_cons, List.not_mem_nil, or_false] at hb
    rcases hb with rfl | rfl | rfl
    · exact Or.inr (Or.inl rfl)
    · exact Or.inr (Or.inr ⟨_, by omega, rfl⟩)
    · exact Or.inr (Or.inr ⟨_, by omega, rfl⟩)

/-- Nothing but percent signs and digits is put into a text when it is escaped. -/
theorem mem_of_mem_encodeWith {keep : Char → Bool} {s : List Char} {c : Char} (hc : c ≠ '%')
    (hdigit : ∀ n < 16, hexDigit n ≠ c) (h : c ∈ encodeWith keep s) : c ∈ s := by
  rcases mem_encodeWith h with ⟨hmem, -⟩ | heq | ⟨n, hn, heq⟩
  · exact hmem
  · exact absurd heq hc
  · exact absurd heq.symm (hdigit n hn)

/-- Escaping once is enough where the percent sign and the digits are kept. -/
theorem isEncoded_encodeWith {keep : Char → Bool} (hpercent : keep '%' = true)
    (hdigits : ∀ n < 16, keep (hexDigit n) = true) (s : List Char) :
    IsEncoded keep (encodeWith keep s) := by
  intro c hc
  rcases mem_encodeWith hc with ⟨-, hkept⟩ | rfl | ⟨n, hn, rfl⟩
  · exact hkept
  · rw [hpercent]
    decide
  · have hascii : ∀ n < 16, (hexDigit n).toNat < 128 := by decide
    rw [hdigits n hn, decide_eq_true (hascii n hn)]
    rfl

end Waymark.Percent
