import Waymark.Dict
import Waymark.Specifier
import Waymark.Text.Blank
/-!
# Scoped class names

In a scoped sheet every class gets the name of the sheet in front, and the sheet
exports which name became which.  Classes are looked for in selectors only: in a
stretch of text that ends at an opening brace and does not begin with `@`.

## Main results

* `scopeSegment_at` — a stretch that begins with `@` is left alone.
-/

namespace Waymark.Stylesheet

/-! ## Names -/

/-- Whether a character may stand in the name of a scope as it is. -/
def inScopeName (c : Char) : Bool := c.isAlphanum || c = '_' || c = '-'

/-- The name of a sheet for its classes: its file name without the ending of a sheet. -/
def scopeName (s : Specifier) : String :=
  let base := Specifier.basename (Specifier.stripQuery s).toList
  let stem := (Text.dropSuffix? ".module.css".toList base).getD
    ((Text.dropSuffix? ".css".toList base).getD base)
  String.ofList (stem.map fun c => if inScopeName c then c else '_')

/-- Whether a sheet is scoped. -/
def isScoped (s : Specifier) : Bool :=
  ".module.css".toList.isSuffixOf (Specifier.stripQuery s).toList

/-! ## Classes -/

/-- Whether a character may begin a class name after an optional hyphen. -/
def beginsClass (c : Char) : Bool := c.isAlpha || c = '_'

/-- Whether a character may stand in a class name. -/
def inClass (c : Char) : Bool := c.isAlphanum || c = '_' || c = '-'

/-- The class name at the start of a text. -/
def className? (s : List Char) : Option (List Char) :=
  match s with
  | c :: rest =>
    if beginsClass c then some (c :: rest.takeWhile inClass)
    else if c = '-' ∧ rest.head?.any beginsClass then some ('-' :: rest.takeWhile inClass)
    else none
  | [] => none

/-- The text with the scope put in front of every class name, and the names. -/
def renameClasses (scope : List Char) (s : List Char) : List Char × List (List Char) :=
  match s with
  | [] => ([], [])
  | c :: rest =>
    match if c = '.' then className? rest else none with
    | some name =>
      let (text, names) := renameClasses scope (rest.drop name.length)
      (c :: scope ++ '_' :: name ++ text, name :: names)
    | none =>
      let (text, names) := renameClasses scope rest
      (c :: text, names)
termination_by s.length
decreasing_by all_goals (simp only [List.length_cons, List.length_drop]; omega)

/-! ## Sheets -/

/-- A stretch of text before an opening brace, and the names in it. -/
def scopeSegment (scope segment : List Char) : List Char × List (List Char) :=
  if ['@'].isPrefixOf (Text.trimStart segment) then (segment, [])
  else renameClasses scope segment

/-- The prelude of an at-rule is left alone. -/
theorem scopeSegment_at {scope segment : List Char}
    (h : ['@'].isPrefixOf (Text.trimStart segment) = true) :
    scopeSegment scope segment = (segment, []) := by
  simp [scopeSegment, h]

/-- Scopes a text whose current stretch began with `segment`. -/
def scopeFrom (scope segment : List Char) : List Char → List Char × List (List Char)
  | [] => (segment, [])
  | c :: s =>
    if c = Char.ofNat 0x7B then
      let (front, names) := scopeSegment scope segment
      let (text, more) := scopeFrom scope [] s
      (front ++ c :: text, names ++ more)
    else if c = Char.ofNat 0x7D ∨ c = ';' then
      let (text, names) := scopeFrom scope [] s
      (segment ++ c :: text, names)
    else scopeFrom scope (segment ++ [c]) s

/-- The sheet with its classes renamed, and which name became which. -/
def scopeClasses (scope css : String) : String × Dict String :=
  let (text, names) := scopeFrom scope.toList [] css.toList
  (String.ofList text,
    Dict.ofList (names.map fun n => (String.ofList n, scope ++ "_" ++ String.ofList n)))

end Waymark.Stylesheet
