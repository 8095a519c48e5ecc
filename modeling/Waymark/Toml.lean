import Waymark.Toml.Value
/-!
# TOML documents

A document is read line by line: a header, a key with its value, a comment or
nothing.  The result is the object of its root table, so that what is done with a
document is said once for it and for JSON.

Every line takes at least one character, so the length of the text bounds the
number of lines.
-/

namespace Waymark.Toml

/-- What follows the rest of a line: blanks, a comment, and the end of the line or of the text. -/
def endLine? (s : List Char) : Option (List Char) :=
  match skipComment (skipGaps s) with
  | [] => some []
  | s => newline? s

/-- A header up to the end of its line, after its first bracket: the root table with the table of
the header opened, and the path of the header. -/
def readHeader (root : Fields) (s : List Char) : Option (List String × Fields × List Char) :=
  match s with
  | '[' :: s => do
    let (path, s) ← readKey maxDepth s
    match s with
    | ']' :: ']' :: s => do
      let root ← atHeader addTable path root
      return (path, root, ← endLine? s)
    | _ => none
  | s => do
    let (path, s) ← readKey maxDepth s
    match s with
    | ']' :: s => do
      let root ← atHeader openTable path root
      return (path, root, ← endLine? s)
    | _ => none

/-- A key with its value up to the end of the line, put into the table of the last header. -/
def readPair (header : List String) (root : Fields) (s : List Char) :
    Option (Fields × List Char) := do
  let (key, s) ← readKey maxDepth s
  match s with
  | '=' :: s => do
    let s := skipGaps s
    let (v, s) ← readValue (s.length + 1) maxDepth s
    let root ← within (insertAt v true key) header root
    return (root, ← endLine? s)
  | _ => none

/-- The lines of a document, at most `fuel` of them. -/
def readLines : Nat → List String → Fields → List Char → Option Fields
  | 0, _, _, _ => none
  | fuel + 1, header, root, s =>
    match skipGaps s with
    | [] => some root
    | '#' :: s => (endLine? ('#' :: s)).bind (readLines fuel header root)
    | '[' :: s => do
      let (header, root, s) ← readHeader root s
      readLines fuel header root s
    | s =>
      match newline? s with
      | some s => readLines fuel header root s
      | none => do
        let (root, s) ← readPair header root s
        readLines fuel header root s

/-- The text without the mark that a file may begin with. -/
def skipMark : List Char → List Char
  | c :: s => if c.toNat = 0xFEFF then s else c :: s
  | [] => []

/-- Reads a document. -/
def read (text : List Char) : Option Json :=
  (readLines (text.length + 1) [] [] (skipMark text)).map fun root =>
    .object (fieldsToJson root)

/-- Reads the text of a document. -/
def parse (text : String) : Option Json := read text.toList

end Waymark.Toml
