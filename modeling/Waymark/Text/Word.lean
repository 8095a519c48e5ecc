import Waymark.Text.Blank
import Waymark.Text.WordTable
/-!
# Word characters and word boundaries

A word character is a letter, a mark, a decimal digit, a connector such as the
underscore, or a join control, in any script.  A boundary lies between two
characters of which exactly one is a word character; outside the text there is
none.

## Main results

* `isWord_of_isAlphanum` — ASCII letters and digits are word characters.
* `boundary_comm` — a boundary looks the same from either side.
-/

namespace Waymark.Text

/-- Whether a character is a word character. -/
def isWord (c : Char) : Bool :=
  if c.toNat < 128 then c.isAlphanum || c = '_' else inRanges wordRanges c.toNat

/-- Whether there is a character and it is a word character. -/
def isWordAt (c : Option Char) : Bool := c.any isWord

/-- Whether a word begins or ends between two characters; `none` stands for the end of the
text. -/
def boundary (before after : Option Char) : Bool := isWordAt before != isWordAt after

theorem isWord_of_isAlphanum {c : Char} (hc : c.toNat < 128) (h : c.isAlphanum = true) :
    isWord c = true := by
  simp [isWord, hc, h]

/-- The end of a word is a boundary as its beginning is. -/
theorem boundary_comm (a b : Option Char) : boundary a b = boundary b a := by
  simp [boundary, bne, Bool.beq_comm]

end Waymark.Text
