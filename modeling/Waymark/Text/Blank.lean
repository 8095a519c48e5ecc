import Waymark.Text.Pieces
/-!
# Blank characters

The characters with the Unicode property `White_Space`, and what is done with
them: trimming, splitting into words, splitting into lines.

## Main results

* `isBlank_of_isWhitespace` — every character the core library calls white space is blank.
-/

namespace Waymark.Text

/-- The code points with the property `White_Space`, as inclusive ranges. -/
def blankRanges : List (Nat × Nat) :=
  [(0x09, 0x0D), (0x20, 0x20), (0x85, 0x85), (0xA0, 0xA0), (0x1680, 0x1680),
   (0x2000, 0x200A), (0x2028, 0x2029), (0x202F, 0x202F), (0x205F, 0x205F), (0x3000, 0x3000)]

/-- Whether a code point lies in one of the ranges. -/
def inRanges (ranges : List (Nat × Nat)) (n : Nat) : Bool :=
  ranges.any fun (lo, hi) => lo ≤ n && n ≤ hi

/-- Whether a character is white space. -/
def isBlank (c : Char) : Bool := inRanges blankRanges c.toNat

theorem isBlank_of_isWhitespace {c : Char} (h : c.isWhitespace = true) : isBlank c = true := by
  simp only [Char.isWhitespace, Bool.or_eq_true, decide_eq_true_eq] at h
  rcases h with ((rfl | rfl) | rfl) | rfl <;> decide

/-- `s` without the blanks it starts with. -/
def trimStart (s : List Char) : List Char := s.dropWhile isBlank

/-- `s` without the blanks it ends with. -/
def trimEnd (s : List Char) : List Char := dropEndWhile isBlank s

/-- `s` without the blanks at its ends. -/
def trim (s : List Char) : List Char := trimEnd (trimStart s)

/-- The stretches of `s` without a blank. -/
def words (s : List Char) : List (List Char) :=
  (piecesWhere isBlank s).filter (· ≠ [])

/-- The lines of `s`.  A line ends at a line feed, and a carriage return before the line feed
belongs to the ending; the text after the last line feed is a line when it is not empty. -/
def lines (s : List Char) : List (List Char) :=
  match (pieces '\n' s).reverse with
  | [] => []
  | last :: ended =>
    let whole := ended.reverse.map fun line => (dropSuffix? ['\r'] line).getD line
    if last = [] then whole else whole ++ [last]

end Waymark.Text
