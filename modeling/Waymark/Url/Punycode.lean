/-!
# Punycode

The ASCII form of a host label with characters outside ASCII.  The ASCII
characters come first, then, in ascending order of code point, where each of the
others is inserted: a distance in a variable-length number of base 36 whose digit
thresholds adapt to the distances seen.

Every loop ends by a measure of its own: a number that is divided, or the list of
code points still to insert.

## Main results

* `threshold_bounds` — a digit's threshold lies between 1 and 26, so numbers shrink.
-/

namespace Waymark.Url.Punycode

/-- The character of a digit below 36. -/
def digit (d : Nat) : Char :=
  if d < 26 then Char.ofNat (97 + d) else Char.ofNat (22 + d)

/-- The threshold of the digit at position `k`. -/
def threshold (k bias : Nat) : Nat :=
  if k ≤ bias then 1 else min 26 (k - bias)

/-- A threshold lies below 36, so that the numbers to be written shrink. -/
theorem threshold_bounds (k bias : Nat) : 1 ≤ threshold k bias ∧ threshold k bias ≤ 26 := by
  unfold threshold
  split <;> omega

/-- Divides a distance until it is small, counting 36 for each division. -/
def settle (delta k : Nat) : Nat :=
  if h : 455 < delta then settle (delta / 35) (k + 36) else k + 36 * delta / (delta + 38)
termination_by delta
decreasing_by omega

/-- The bias for the next number, from the distance just written. -/
def adapt (delta count : Nat) (first : Bool) : Nat :=
  let scaled := if first then delta / 700 else delta / 2
  settle (scaled + scaled / count) 0

/-- A distance as digits. -/
def writeNumber (bias k q : Nat) : List Char :=
  let t := threshold k bias
  if h : q < t then [digit q]
  else digit (t + (q - t) % (36 - t)) :: writeNumber bias (k + 36) ((q - t) / (36 - t))
termination_by q
decreasing_by
  have := threshold_bounds k bias
  exact Nat.lt_of_le_of_lt (Nat.div_le_self _ _) (by omega)

/-- How far an encoding has come. -/
structure Progress where
  output : List Char
  delta : Nat
  bias : Nat
  written : Nat

/-- One character of the label, while the characters equal to `n` are inserted.  `basic` counts
the ASCII characters. -/
def visit (basic n : Nat) (p : Progress) (c : Char) : Progress :=
  if c.toNat < n then { p with delta := p.delta + 1 }
  else if c.toNat = n then
    { output := p.output ++ writeNumber p.bias 36 p.delta
      delta := 0
      bias := adapt p.delta (p.written + 1) (p.written = basic)
      written := p.written + 1 }
  else p

/-- Inserts the code points in turn; `reached` is the one inserted last, plus one. -/
def insertAll (label : List Char) (basic : Nat) : List Nat → Nat → Progress → Progress
  | [], _, p => p
  | n :: ns, reached, p =>
    let p := { p with delta := p.delta + (n - reached) * (p.written + 1) }
    let p := label.foldl (visit basic n) p
    insertAll label basic ns (n + 1) { p with delta := p.delta + 1 }

/-- The Punycode of a label, without the marker in front. -/
def encode (label : List Char) : List Char :=
  let ascii := label.filter fun c => c.toNat < 128
  let others := ((label.filter fun c => 128 ≤ c.toNat).map Char.toNat).mergeSort.eraseDups
  let start := if ascii = [] then [] else ascii ++ ['-']
  (insertAll label ascii.length others 128 ⟨start, 0, 72, ascii.length⟩).output

end Waymark.Url.Punycode
