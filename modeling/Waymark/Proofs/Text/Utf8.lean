import Waymark.Text.Utf8
/-!
# UTF-8 is read back

Every text is what its octets are read as.  The reader takes a leading octet and
then as many octets as that one announces; the proof goes through the four lengths
of a sequence and shows that the octets of a character are never refused.

The bounds on the second octet are the delicate part: they must let through every
second octet of a character and are narrower than those of the others after four
leading octets.

## Main results

* `readChar_encode` — the octets of a character are read as that character.
* `decodeLossy_encode` — the octets of a text are read as that text.
-/

namespace Waymark.Text.Utf8

/-! ## Octets after the first -/

theorem toNat_ofNat {n : Nat} (h : n < 256) : (UInt8.ofNat n).toNat = n := by
  rw [UInt8.toNat_ofNat']
  exact Nat.mod_eq_of_lt h

theorem ofNat_le_ofNat {m n : Nat} (h : m ≤ n) (hn : n < 256) :
    UInt8.ofNat m ≤ UInt8.ofNat n := by
  rw [UInt8.le_iff_toNat_le, toNat_ofNat (by omega), toNat_ofNat hn]
  exact h

/-- The octet that carries six bits. -/
def tail (n : Nat) : UInt8 := UInt8.ofNat (n % 0x40 + 0x80)

theorem tail_bounds (n : Nat) : 0x80 ≤ tail n ∧ tail n ≤ 0xBF := by
  have hn : n % 0x40 < 0x40 := Nat.mod_lt _ (by decide)
  exact ⟨ofNat_le_ofNat (m := 0x80) (by omega) (by omega),
    ofNat_le_ofNat (n := 0xBF) (by omega) (by decide)⟩

theorem toNat_tail (n : Nat) : (tail n).toNat - 0x80 = n % 0x40 := by
  have hn : n % 0x40 < 0x40 := Nat.mod_lt _ (by decide)
  rw [tail, toNat_ofNat (by omega)]
  omega

theorem readTail_last {lo hi : UInt8} {n acc : Nat} (h : lo ≤ tail n ∧ tail n ≤ hi)
    (s : List UInt8) :
    readTail lo hi acc 0 (tail n :: s) = (some (acc * 64 + n % 0x40), s) := by
  rw [readTail, if_pos (by simpa using h), toNat_tail]

theorem readTail_more {lo hi : UInt8} {n acc more : Nat} (h : lo ≤ tail n ∧ tail n ≤ hi)
    (s : List UInt8) :
    readTail lo hi acc (more + 1) (tail n :: s) =
      readTail 0x80 0xBF (acc * 64 + n % 0x40) more s := by
  rw [readTail, if_pos (by simpa using h), toNat_tail]

/-! ## Leading octets -/

theorem lead?_two {n : Nat} (hlo : 0xC2 ≤ n) (hhi : n ≤ 0xDF) :
    lead? (UInt8.ofNat n) = some ⟨0x80, 0xBF, 0, n - 0xC0⟩ := by
  unfold lead?
  rw [toNat_ofNat (by omega)]
  simp [hlo, hhi]

/-- After a leading octet of three, the second octet of a character is let through. -/
theorem lead?_three {n m : Nat} (hlo : 0xE0 ≤ n) (hhi : n ≤ 0xEF)
    (hlong : n = 0xE0 → 0x20 ≤ m % 0x40) (hsurrogate : n = 0xED → m % 0x40 < 0x20) :
    ∃ lo hi, lead? (UInt8.ofNat n) = some ⟨lo, hi, 1, n - 0xE0⟩ ∧ lo ≤ tail m ∧ tail m ≤ hi := by
  have hm : m % 0x40 < 0x40 := Nat.mod_lt _ (by decide)
  unfold lead?
  rw [toNat_ofNat (by omega)]
  by_cases h0 : n = 0xE0
  · refine ⟨0xA0, 0xBF, by simp [h0], ?_, (tail_bounds m).2⟩
    have := hlong h0
    exact ofNat_le_ofNat (m := 0xA0) (by omega) (by omega)
  · by_cases hD : n = 0xED
    · refine ⟨0x80, 0x9F, by simp [hD], (tail_bounds m).1, ?_⟩
      have := hsurrogate hD
      exact ofNat_le_ofNat (n := 0x9F) (by omega) (by decide)
    · refine ⟨0x80, 0xBF, ?_, tail_bounds m⟩
      have h1 : 0xE1 ≤ n := by omega
      have h2 : ¬n ≤ 0xDF := by omega
      simp [h0, hD, h1, h2, hhi]

/-- After a leading octet of four, the second octet of a character is let through. -/
theorem lead?_four {n m : Nat} (hlo : 0xF0 ≤ n) (hhi : n ≤ 0xF4)
    (hlong : n = 0xF0 → 0x10 ≤ m % 0x40) (hlarge : n = 0xF4 → m % 0x40 < 0x10) :
    ∃ lo hi, lead? (UInt8.ofNat n) = some ⟨lo, hi, 2, n - 0xF0⟩ ∧ lo ≤ tail m ∧ tail m ≤ hi := by
  have hm : m % 0x40 < 0x40 := Nat.mod_lt _ (by decide)
  have h2 : ¬n ≤ 0xDF := by omega
  have h3 : ¬n ≤ 0xEF := by omega
  have h0 : n ≠ 0xE0 := by omega
  have hD : n ≠ 0xED := by omega
  unfold lead?
  rw [toNat_ofNat (by omega)]
  by_cases hF0 : n = 0xF0
  · refine ⟨0x90, 0xBF, by simp [hF0], ?_, (tail_bounds m).2⟩
    have := hlong hF0
    exact ofNat_le_ofNat (m := 0x90) (by omega) (by omega)
  · by_cases hF4 : n = 0xF4
    · refine ⟨0x80, 0x8F, by simp [hF4], (tail_bounds m).1, ?_⟩
      have := hlarge hF4
      exact ofNat_le_ofNat (n := 0x8F) (by omega) (by decide)
    · refine ⟨0x80, 0xBF, ?_, tail_bounds m⟩
      have h1 : 0xF1 ≤ n := by omega
      have h4 : n ≤ 0xF3 := by omega
      simp [h0, hD, h1, h2, h3, h4, hF0]

/-! ## Characters -/

/-- A character is numbered below the surrogates or above them, and not too high. -/
theorem toNat_valid (c : Char) :
    c.val.toNat < 0xD800 ∨ 0xDFFF < c.val.toNat ∧ c.val.toNat < 0x110000 := c.valid

theorem readChar_of_lead {n k : Nat} {l : Lead} {s rest : List UInt8} (hn : 0x80 ≤ n)
    (hlt : n < 256) (hlead : lead? (UInt8.ofNat n) = some l)
    (htail : readTail l.lowest l.highest l.bits l.more s = (some k, rest)) :
    readChar (UInt8.ofNat n) s = (some (Char.ofNat k), rest) := by
  have hb : ¬UInt8.ofNat n < 0x80 := by
    rw [UInt8.lt_iff_toNat_lt, toNat_ofNat hlt]
    show ¬n < 0x80
    omega
  rw [readChar, if_neg hb, hlead]
  simp [htail]

/-- The octets of a character are read as that character, whatever follows them. -/
theorem readChar_encode (c : Char) (s : List UInt8) :
    ∃ b rest, String.utf8EncodeChar c = b :: rest ∧ readChar b (rest ++ s) = (some c, s) := by
  have hvalid := toNat_valid c
  have hc : Char.ofNat c.val.toNat = c := Char.ofNat_toNat c
  unfold String.utf8EncodeChar
  generalize c.val.toNat = v at hvalid hc
  rw [← hc]
  dsimp only
  split
  · -- One octet.
    have hb : UInt8.ofNat v < 0x80 := by
      rw [UInt8.lt_iff_toNat_lt, toNat_ofNat (by omega)]
      show v < 0x80
      omega
    refine ⟨_, _, rfl, ?_⟩
    rw [readChar, if_pos hb, toNat_ofNat (by omega)]
    rfl
  · split
    · -- Two octets.
      have hsplit : (v / 64 % 0x20 + 0xC0 - 0xC0) * 64 + v % 0x40 = v := by omega
      refine ⟨_, _, rfl, ?_⟩
      refine readChar_of_lead (by omega) (by omega) (lead?_two (by omega) (by omega)) ?_
      refine (readTail_last (tail_bounds v) _).trans ?_
      rw [hsplit]
      rfl
    · split
      · -- Three octets.
        have hsplit : ((v / 4096 % 0x10 + 0xE0 - 0xE0) * 64 + v / 64 % 0x40) * 64 +
            v % 0x40 = v := by omega
        obtain ⟨lo, hi, hlead, hsecond⟩ := lead?_three (n := v / 4096 % 0x10 + 0xE0)
          (m := v / 64) (by omega) (by omega) (by omega) (by omega)
        refine ⟨_, _, rfl, ?_⟩
        refine readChar_of_lead (by omega) (by omega) hlead ?_
        refine (readTail_more hsecond _).trans ?_
        refine (readTail_last (tail_bounds v) _).trans ?_
        rw [hsplit]
        rfl
      · -- Four octets.
        have hsplit : (((v / 262144 % 0x08 + 0xF0 - 0xF0) * 64 + v / 4096 % 0x40) * 64 +
            v / 64 % 0x40) * 64 + v % 0x40 = v := by omega
        obtain ⟨lo, hi, hlead, hsecond⟩ := lead?_four (n := v / 262144 % 0x08 + 0xF0)
          (m := v / 4096) (by omega) (by omega) (by omega) (by omega)
        refine ⟨_, _, rfl, ?_⟩
        refine readChar_of_lead (by omega) (by omega) hlead ?_
        refine (readTail_more hsecond _).trans ?_
        refine (readTail_more (tail_bounds (v / 64)) _).trans ?_
        refine (readTail_last (tail_bounds v) _).trans ?_
        rw [hsplit]
        rfl

theorem decodeLossy_encode (s : List Char) : decodeLossy (encode s) = s := by
  induction s with
  | nil => simp [encode, decodeLossy]
  | cons c s ih =>
    obtain ⟨b, rest, hc, hread⟩ := readChar_encode c (encode s)
    have hcons : encode (c :: s) = b :: (rest ++ encode s) := by
      show (c :: s).flatMap String.utf8EncodeChar = _
      rw [List.flatMap_cons, hc]
      rfl
    rw [hcons, decodeLossy, hread]
    simp [ih]

end Waymark.Text.Utf8
