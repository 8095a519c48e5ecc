import Waymark.Dict
import Waymark.Script.Imports
/-!
# Export names

The names a module exports, read off the lines that begin with `export`.  What is
exported only as a type does not count, and neither does a bare `export *`.

## Main results

* `exportNames_nodup` — no name is listed twice.
-/

namespace Waymark.Script

/-- What stands after the word `export`. -/
inductive ExportClause where
  | default
  | name (n : List Char)
  | list
  deriving DecidableEq, Repr

/-- Whether a character can begin the name of a binding. -/
def beginsName (c : Char) : Bool := c.isAlpha || c = '_' || c = '$'

/-- Whether a character can stand in the name of a binding. -/
def inName (c : Char) : Bool := Text.isWord c || c = '$'

/-- The name at the start of a text after at least one blank. -/
def spacedName? (s : List Char) : Option (List Char × List Char) :=
  if s.takeWhile Text.isBlank = [] then none
  else match s.dropWhile Text.isBlank with
    | c :: rest =>
      if beginsName c then some (c :: rest.takeWhile inName, rest.dropWhile inName) else none
    | [] => none

/-- What follows a word and at least one blank; the text itself if it begins otherwise. -/
def skipWord (word : String) (s : List Char) : List Char :=
  match List.isPrefixOf? word.toList s with
  | some rest => if rest.takeWhile Text.isBlank = [] then s else rest.dropWhile Text.isBlank
  | none => s

/-- The words that declare a binding and are followed by its name. -/
def declaringWords : List String := ["class", "const", "let", "var", "enum"]

/-- The name of a function, which may be a generator. -/
def functionName? (s : List Char) : Option (List Char × List Char) :=
  match List.isPrefixOf? "function".toList s with
  | none => none
  | some rest =>
    match rest.dropWhile Text.isBlank with
    | '*' :: after => spacedName? after
    | _ => spacedName? rest

/-- The name of a declaration. -/
def declaredName? (s : List Char) : Option (List Char × List Char) :=
  let s := skipWord "async" (skipWord "declare" s)
  (functionName? s).or <|
    declaringWords.findSome? fun word => (List.isPrefixOf? word.toList s).bind spacedName?

/-- The name of a namespace export. -/
def namespaceName? (s : List Char) : Option (List Char × List Char) :=
  match s with
  | '*' :: rest =>
    if rest.takeWhile Text.isBlank = [] then none
    else (List.isPrefixOf? "as".toList (rest.dropWhile Text.isBlank)).bind spacedName?
  | _ => none

/-- The default export at the start of a text. -/
def defaultExport? (s : List Char) : Option (List Char) :=
  match List.isPrefixOf? "default".toList s with
  | some rest => if Text.isWordAt rest.head? then none else some rest
  | none => none

/-- What the word `export` is followed by, and what follows that. -/
def exportClause? (s : List Char) : Option (ExportClause × List Char) :=
  match defaultExport? s with
  | some rest => some (.default, rest)
  | none =>
    match (declaredName? s).or (namespaceName? s) with
    | some (n, rest) => some (.name n, rest)
    | none =>
      match List.isPrefixOf? [Char.ofNat 0x7B] s with
      | some rest => some (.list, rest)
      | none => none

/-- The export at the start of a line. -/
def exportAt? (s : List Char) : Option (ExportClause × List Char) :=
  match List.isPrefixOf? exportWord (s.dropWhile Text.isBlank) with
  | some rest =>
    if rest.takeWhile Text.isBlank = [] then none
    else exportClause? (rest.dropWhile Text.isBlank)
  | none => none

/-- The exports of a text that follows the character `prev`, each with the text after it. -/
def exportsFrom (prev : Option Char) (s : List Char) : List (ExportClause × List Char) :=
  match s with
  | [] => []
  | c :: rest =>
    match if prev.all (· = '\n') then exportAt? (c :: rest) else none with
    | some (clause, after) =>
      if after.length < (c :: rest).length then
        let taken := (c :: rest).take ((c :: rest).length - after.length)
        (clause, after) :: exportsFrom taken.getLast? after
      else []
    | none => exportsFrom (some c) rest
termination_by s.length
decreasing_by
  · assumption
  · simp

/-- The name an item of an export list is exported under; none for a type. -/
def listedName? (item : List Char) : Option String :=
  let item := Text.trim item
  if item = [] ∨ "type ".toList.isPrefixOf item then none
  else match Text.cutText " as ".toList item with
    | some (_, other) => some (String.ofList (Text.trim other))
    | none => some (String.ofList item)

/-- The names of an export; `none` when its list has no end. -/
def clauseNames (clause : ExportClause) (after : List Char) : Option (List String) :=
  match clause with
  | .default => some ["default"]
  | .name n => some [String.ofList n]
  | .list =>
    (Text.cut (Char.ofNat 0x7D) after).map fun (items, _) =>
      (Text.pieces ',' items).filterMap listedName?

/-- A module whose exports could not be read. -/
structure ExportError where
  filename : String
  deriving DecidableEq, Repr

/-- The wording of the error. -/
def ExportError.message (e : ExportError) : String :=
  "failed to parse exports of " ++ e.filename ++ ": unterminated export list"

/-- The names a module exports, in the order of the text. -/
def exportNames (filename source : String) : Except ExportError (List String) :=
  match (exportsFrom none source.toList).mapM fun (clause, after) => clauseNames clause after with
  | some names => .ok (distinct names.flatten)
  | none => .error ⟨filename⟩

/-- No name is listed twice. -/
theorem exportNames_nodup {filename source : String} {names : List String}
    (h : exportNames filename source = .ok names) : names.Nodup := by
  unfold exportNames at h
  split at h
  · simp only [Except.ok.injEq] at h
    exact h ▸ nodup_distinct _
  · simp at h

end Waymark.Script
