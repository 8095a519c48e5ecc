import Waymark.Version
/-!
# Texts up to versions

Two texts that differ only in the versions their URLs ask for say the same of
modules.  Masking writes `*` for each such version.

## Main results

* `mask_plain` — what is not part of a query stays.
-/

namespace Waymark.Version

/-- Whether a character is a digit of a version. -/
def isTokenChar (c : Char) : Bool := c.isDigit || ('a' ≤ c && c ≤ 'f')

/-- A text with `*` for every version that follows `?v=` or `&v=`. -/
def mask : List Char → List Char
  | [] => []
  | a :: s =>
    if (a = '?' || a = '&') && ['v', '='].isPrefixOf s && (s.drop 2).head?.any isTokenChar then
      a :: 'v' :: '=' :: '*' :: mask ((s.drop 2).dropWhile isTokenChar)
    else a :: mask s
termination_by s => s.length
decreasing_by
  · have := (List.dropWhile_suffix (l := s.drop 2) isTokenChar).length_le
    simp only [List.length_drop] at this
    simp only [List.length_cons]
    omega
  · simp

theorem mask_plain {a : Char} (hq : a ≠ '?') (ha : a ≠ '&') (s : List Char) :
    mask (a :: s) = a :: mask s := by
  rw [mask]; simp [hq, ha]

end Waymark.Version
