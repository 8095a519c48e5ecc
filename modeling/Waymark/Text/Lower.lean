import Waymark.Text.Blank
import Waymark.Text.LowerTable
/-!
# Lower case

Lower case of text in any script.  Two characters need more than the simple map:
`İ` becomes two characters, and a capital sigma takes its final form at the end
of a word.

## Main results

* `lowerChar_ascii` — an ASCII character maps as the core library maps it.
-/

namespace Waymark.Text

/-- Whether the run covers the code point. -/
def CaseRun.covers (r : CaseRun) (n : Nat) : Bool :=
  r.first ≤ n && n ≤ r.last && (n - r.first) % r.step = 0

/-- Lower case of a character that stands alone. -/
def lowerChar (c : Char) : List Char :=
  if c.toNat < 128 then [c.toLower]
  else if c.toNat = 0x130 then ['i', Char.ofNat 0x307]
  else match lowerRuns.find? (·.covers c.toNat) with
    | some r => [Char.ofNat (c.toNat + r.shift).toNat]
    | none => [c]

theorem lowerChar_ascii {c : Char} (h : c.toNat < 128) : lowerChar c = [c.toLower] := by
  simp [lowerChar, h]

/-- Whether a character is a letter with case. -/
def isCased (c : Char) : Bool :=
  if c.toNat < 128 then c.isAlpha else inRanges casedRanges c.toNat

/-- Whether a character is passed over when the neighbours of a letter are looked at. -/
def isCaseless (c : Char) : Bool :=
  if c.toNat < 128 then c ∈ ['\'', '.', ':', '^', '`'] else inRanges caselessRanges c.toNat

/-- Whether the nearest character that counts is a letter with case. -/
def meetsCased (s : List Char) : Bool :=
  (s.dropWhile isCaseless).head?.any isCased

/-- Lower case of `s`, where `before` is the text before it, nearest character first. -/
def lowerAfter (before : List Char) : List Char → List Char
  | [] => []
  | c :: s =>
    let low :=
      if c = 'Σ' then [if meetsCased before && !meetsCased s then 'ς' else 'σ']
      else lowerChar c
    low ++ lowerAfter (c :: before) s

/-- Lower case of a text. -/
def lower (s : List Char) : List Char := lowerAfter [] s

end Waymark.Text
