/-!
# Decimal fractions

A number with a fraction or an exponent, kept as the digits it was written with.

## Main results

* `trimZeros_pos` — taking zeros off a number other than zero leaves a number other than zero.
-/

namespace Waymark

/-- The number `digits * 10 ^ exponent`, negated if `negative`. -/
structure Decimal where
  negative : Bool
  digits : Nat
  exponent : Int
  deriving DecidableEq, Repr

namespace Decimal

/-- Takes the zeros off the end of a number other than zero, counting them. -/
def trimZeros (n count : Nat) : Nat × Nat :=
  if h : n ≠ 0 ∧ n % 10 = 0 then trimZeros (n / 10) (count + 1) else (n, count)
termination_by n
decreasing_by omega

/-- A number that is not zero does not become zero when its last zeros are cut off. -/
theorem trimZeros_pos {n count : Nat} (h : n ≠ 0) : (trimZeros n count).1 ≠ 0 := by
  fun_induction trimZeros n count with
  | case1 n count hn ih => exact ih (by omega)
  | case2 n count hn => exact h

/-- Digits of a number. -/
def digitsOf (n : Nat) : List Char := Nat.toDigits 10 n

/-- The written form.  Numbers from `1e-5` up to below `1e16` are written out with a decimal
point, all others with an exponent. -/
def toText (d : Decimal) : List Char :=
  let (n, zeros) := trimZeros d.digits 0
  let exponent := d.exponent + zeros
  let ds := digitsOf n
  let point : Int := ds.length + exponent
  let body :=
    if n = 0 then "0.0".toList
    else if 0 ≤ exponent ∧ point ≤ 16 then
      ds ++ List.replicate exponent.toNat '0' ++ ".0".toList
    else if 0 < point ∧ point ≤ 16 then
      ds.take point.toNat ++ '.' :: ds.drop point.toNat
    else if -5 < point ∧ point ≤ 0 then
      "0.".toList ++ List.replicate (-point).toNat '0' ++ ds
    else
      (match ds with
        | [a] => [a]
        | a :: rest => a :: '.' :: rest
        | [] => []) ++ 'e' :: (toString (point - 1)).toList
  if d.negative then '-' :: body else body

end Decimal
end Waymark
