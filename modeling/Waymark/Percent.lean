import Waymark.Text.Utf8
/-!
# Percent coding

Octets written as `%` and two hexadecimal digits.  Encoding takes the set of
characters that stay as they are, since every part of a URL has its own; decoding
takes every well-formed triple and leaves a stray `%` alone.

## Main results

* `hexValue_hexDigit` — a written digit is read back.
* `decodeOctets_escape` — an escaped octet is read back, whatever follows.
-/

namespace Waymark.Percent

/-! ## Digits -/

/-- The hexadecimal digit of a number below sixteen, with capital letters. -/
def hexDigit (n : Nat) : Char :=
  if n < 10 then Char.ofNat (48 + n) else Char.ofNat (55 + n)

/-- The number a hexadecimal digit stands for. -/
def hexValue? (c : Char) : Option Nat :=
  let n := c.toNat
  if 48 ≤ n && n ≤ 57 then some (n - 48)
  else if 65 ≤ n && n ≤ 70 then some (n - 55)
  else if 97 ≤ n && n ≤ 102 then some (n - 87)
  else none

theorem hexValue_hexDigit {n : Nat} (h : n < 16) : hexValue? (hexDigit n) = some n := by
  have : ∀ m : Fin 16, hexValue? (hexDigit m.val) = some m.val := by decide
  exact this ⟨n, h⟩

/-! ## Octets -/

/-- An octet as a percent sign and two digits. -/
def escape (b : UInt8) : List Char :=
  ['%', hexDigit (b.toNat / 16), hexDigit (b.toNat % 16)]

/-- The octets of a text in which percent triples stand for octets.  A `%` without two digits
after it stands for itself. -/
def decodeOctets : List Char → List UInt8
  | '%' :: a :: b :: s =>
    match hexValue? a, hexValue? b with
    | some x, some y => UInt8.ofNat (16 * x + y) :: decodeOctets s
    | _, _ => 0x25 :: decodeOctets (a :: b :: s)
  | c :: s => String.utf8EncodeChar c ++ decodeOctets s
  | [] => []

/-- An escape is read as the octet it was written for. -/
theorem decodeOctets_escape (b : UInt8) (s : List Char) :
    decodeOctets (escape b ++ s) = b :: decodeOctets s := by
  have hb : b.toNat < 256 := b.toNat_lt
  have hi : hexValue? (hexDigit (b.toNat / 16)) = some (b.toNat / 16) :=
    hexValue_hexDigit (by omega)
  have lo : hexValue? (hexDigit (b.toNat % 16)) = some (b.toNat % 16) :=
    hexValue_hexDigit (by omega)
  have hsum : 16 * (b.toNat / 16) + b.toNat % 16 = b.toNat := by omega
  simp [escape, decodeOctets, hi, lo, hsum]

/-! ## Text -/

/-- Escapes every character outside ASCII and every ASCII character that `keep` refuses. -/
def encodeWith (keep : Char → Bool) (s : List Char) : List Char :=
  s.flatMap fun c =>
    if c.toNat < 128 && keep c then [c] else (String.utf8EncodeChar c).flatMap escape

/-- The text with its percent triples decoded; octets that are not UTF-8 are replaced. -/
def decodeLossy (s : List Char) : List Char :=
  Text.Utf8.decodeLossy (decodeOctets s)

/-- Whether a character is a control character of ASCII. -/
def isControl (c : Char) : Bool := c.toNat < 0x20 || c.toNat = 0x7F

end Waymark.Percent
