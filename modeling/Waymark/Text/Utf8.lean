/-!
# Reading UTF-8

A reader for octets that may not be UTF-8: every maximal refused stretch becomes
one replacement character.  A stretch is refused as soon as no sequence of UTF-8
begins with it.

## Main results

* `length_readChar_le` — reading a character never gives octets back.
* `decodeLossy_ascii` — plain ASCII octets are read as themselves.
-/

namespace Waymark.Text.Utf8

/-- What stands in for octets that are not UTF-8. -/
def replacement : Char := Char.ofNat 0xFFFD

/-- What must follow a leading octet: the bounds of the next octet, how many more follow after
it, and the bits the leading octet gives. -/
structure Lead where
  lowest : UInt8
  highest : UInt8
  more : Nat
  bits : Nat

/-- The leading octets of sequences of two, three and four octets.  The bounds of the second
octet keep out overlong forms, surrogates and numbers above U+10FFFF. -/
def lead? (b : UInt8) : Option Lead :=
  let n := b.toNat
  if 0xC2 ≤ n && n ≤ 0xDF then some ⟨0x80, 0xBF, 0, n - 0xC0⟩
  else if n = 0xE0 then some ⟨0xA0, 0xBF, 1, n - 0xE0⟩
  else if n = 0xED then some ⟨0x80, 0x9F, 1, n - 0xE0⟩
  else if 0xE1 ≤ n && n ≤ 0xEF then some ⟨0x80, 0xBF, 1, n - 0xE0⟩
  else if n = 0xF0 then some ⟨0x90, 0xBF, 2, n - 0xF0⟩
  else if 0xF1 ≤ n && n ≤ 0xF3 then some ⟨0x80, 0xBF, 2, n - 0xF0⟩
  else if n = 0xF4 then some ⟨0x80, 0x8F, 2, n - 0xF0⟩
  else none

/-- Reads `more` octets between `0x80` and `0xBF` after a first one between the given bounds.
Gives the number read, or `none` at the first octet that does not fit, and the octets left. -/
def readTail (lowest highest : UInt8) (acc : Nat) : Nat → List UInt8 → Option Nat × List UInt8
  | _, [] => (none, [])
  | more, b :: s =>
    if lowest ≤ b && b ≤ highest then
      let acc := acc * 64 + (b.toNat - 0x80)
      match more with
      | 0 => (some acc, s)
      | more + 1 => readTail 0x80 0xBF acc more s
    else (none, b :: s)

/-- The character that begins with the octet `b`, or `none` when the octets are refused, and
the octets left. -/
def readChar (b : UInt8) (s : List UInt8) : Option Char × List UInt8 :=
  if b < 0x80 then (some (Char.ofNat b.toNat), s)
  else match lead? b with
    | none => (none, s)
    | some l =>
      let (n, rest) := readTail l.lowest l.highest l.bits l.more s
      (n.map Char.ofNat, rest)

/-- Reading on never makes the text longer. -/
theorem length_readTail_le (lo hi : UInt8) (acc more : Nat) (s : List UInt8) :
    (readTail lo hi acc more s).2.length ≤ s.length := by
  induction s generalizing lo hi acc more with
  | nil => simp [readTail]
  | cons b s ih =>
    rw [readTail]
    split
    · cases more with
      | zero => simp
      | succ more => exact Nat.le_succ_of_le (ih _ _ _ _)
    · simp

/-- Nor does reading a character. -/
theorem length_readChar_le (b : UInt8) (s : List UInt8) :
    (readChar b s).2.length ≤ s.length := by
  unfold readChar
  split
  · simp
  · split
    · simp
    · exact length_readTail_le _ _ _ _ _

/-- The text of octets, with the replacement character for what is not UTF-8. -/
def decodeLossy : List UInt8 → List Char
  | [] => []
  | b :: s =>
    have := length_readChar_le b s
    (readChar b s).1.getD replacement :: decodeLossy (readChar b s).2
termination_by s => s.length
decreasing_by simp only [List.length_cons]; omega

/-- Octets in ASCII are read as their characters. -/
theorem decodeLossy_ascii (s : List UInt8) (h : ∀ b ∈ s, b < 0x80) :
    decodeLossy s = s.map fun b => Char.ofNat b.toNat := by
  induction s with
  | nil => simp [decodeLossy]
  | cons b s ih =>
    have hb : b < 0x80 := h b (by simp)
    rw [decodeLossy]
    simp [readChar, hb, ih fun c hc => h c (by simp [hc])]

/-- The text of octets, if they are UTF-8 throughout. -/
def decode? : List UInt8 → Option (List Char)
  | [] => some []
  | b :: s =>
    have := length_readChar_le b s
    match (readChar b s).1 with
    | none => none
    | some c => (decode? (readChar b s).2).map (c :: ·)
termination_by s => s.length
decreasing_by simp only [List.length_cons]; omega

/-- The octets of a text. -/
def encode (s : List Char) : List UInt8 := s.flatMap String.utf8EncodeChar

end Waymark.Text.Utf8
