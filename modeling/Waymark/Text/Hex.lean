import Waymark.Json
import Waymark.Percent
/-!
# Octets in hexadecimal

Octets as text: two lower-case hexadecimal digits each.

## Main results

* `decode_encode` — what is written is read back.
-/

namespace Waymark.Text.Hex

/-- Octets as text. -/
def encode : List UInt8 → List Char
  | [] => []
  | b :: bs => Json.hexDigit (b.toNat / 16) :: Json.hexDigit (b.toNat % 16) :: encode bs

/-- The octets of a text, as far as it has pairs of digits. -/
def decode : List Char → List UInt8
  | a :: b :: rest =>
    match Percent.hexValue? a, Percent.hexValue? b with
    | some x, some y => UInt8.ofNat (16 * x + y) :: decode rest
    | _, _ => []
  | _ => []

/-- A digit is read as what it was written for. -/
theorem hexValue?_hexDigit {n : Nat} (h : n < 16) :
    Percent.hexValue? (Json.hexDigit n) = some n := by
  have : ∀ m : Fin 16, Percent.hexValue? (Json.hexDigit m.val) = some m.val := by decide
  exact this ⟨n, h⟩

/-- Octets are read back from what is written for them. -/
theorem decode_encode (bs : List UInt8) : decode (encode bs) = bs := by
  induction bs with
  | nil => rfl
  | cons b bs ih =>
    have hb : b.toNat < 256 := b.toNat_lt
    rw [encode, decode, hexValue?_hexDigit (by omega), hexValue?_hexDigit (by omega)]
    have : 16 * (b.toNat / 16) + b.toNat % 16 = b.toNat := Nat.div_add_mod b.toNat 16
    simp [this, ih]

end Waymark.Text.Hex
