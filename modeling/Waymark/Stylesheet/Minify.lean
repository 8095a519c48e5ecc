import Waymark.Text.Blank
/-!
# Minified sheets

Comments are taken out, blanks collapse to one space and vanish beside
punctuation, and the last semicolon of a block goes.

## Main results

* `dropComments_nil` — there is nothing to take out of the empty sheet.
* `tighten_tight` — a space before punctuation is dropped.
-/

namespace Waymark.Stylesheet

/-- The end of a comment. -/
def commentEnd : List Char := ['*', '/']

/-- The text without its comments.  A comment without end is no comment. -/
def dropComments (s : List Char) : List Char :=
  match s with
  | [] => []
  | c :: rest =>
    let comment? :=
      if c = '/' ∧ rest.head? = some '*' then Text.cutText commentEnd (rest.drop 1) else none
    match comment? with
    | some (_, after) =>
      if after.length < (c :: rest).length then dropComments after else c :: rest
    | none => c :: dropComments rest
termination_by s.length
decreasing_by
  · assumption
  · simp

theorem dropComments_nil : dropComments [] = [] := by simp [dropComments]

/-- The words of a text with one space between them. -/
def collapse (s : List Char) : List Char := Text.joinPieces ' ' (Text.words s)

/-- Whether blanks beside a character have no meaning. -/
def isTight (c : Char) : Bool :=
  c = Char.ofNat 0x7B || c = Char.ofNat 0x7D || c = ';' || c = ',' || c = '>'

/-- Drops the spaces beside punctuation, where `prev` is the last character kept. -/
def tighten (prev : Option Char) : List Char → List Char
  | [] => []
  | c :: s =>
    if c = ' ' ∧ (prev.any isTight ∨ s.head?.any isTight) then tighten prev s
    else c :: tighten (some c) s

theorem tighten_tight {prev : Option Char} {c : Char} (s : List Char) (h : isTight c = true) :
    tighten prev (' ' :: c :: s) = tighten prev (c :: s) := by
  simp [tighten, h]

/-- Drops a semicolon before each closing brace. -/
def dropLastSemicolons (s : List Char) : List Char :=
  Text.replaceAll [';', Char.ofNat 0x7D] [Char.ofNat 0x7D] s

/-- The minified sheet. -/
def minify (css : String) : String :=
  String.ofList (dropLastSemicolons (tighten none (collapse (dropComments css.toList))))

end Waymark.Stylesheet
