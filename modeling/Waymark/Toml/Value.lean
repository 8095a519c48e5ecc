import Waymark.Toml.Quoted
import Waymark.Toml.Scalar
import Waymark.Toml.Table
/-!
# Values in TOML

Keys, arrays and inline tables.  An array may span lines and hold comments; an
inline table stands on one line.  Keys and values nest to a fixed depth.
-/

namespace Waymark.Toml

/-- How many names a key can have, and how deep values can nest. -/
def maxDepth : Nat := 79

/-- The text without the blanks it starts with. -/
def skipGaps (s : List Char) : List Char := s.dropWhile isGap

/-- What follows a comment, if there is one. -/
def skipComment : List Char → List Char
  | '#' :: s => s.dropWhile isPlain
  | s => s

/-! ## Keys -/

/-- Whether a character may stand in a name without quotes. -/
def isNameChar (c : Char) : Bool := c.isAlphanum || c = '-' || c = '_'

/-- One name of a key. -/
def readName (s : List Char) : Option (String × List Char) :=
  match s with
  | '"' :: s => (readBasic s).map fun (text, s) => (String.ofList text, s)
  | '\'' :: s => (readLiteral s).map fun (text, s) => (String.ofList text, s)
  | s =>
    let name := s.takeWhile isNameChar
    if name = [] then none else some (String.ofList name, s.dropWhile isNameChar)

/-- A key: at most `fuel` names with dots between them. -/
def readKey : Nat → List Char → Option (List String × List Char)
  | 0, _ => none
  | fuel + 1, s => do
    let (name, s) ← readName (skipGaps s)
    match skipGaps s with
    | '.' :: s => do
      let (names, s) ← readKey fuel s
      return (name :: names, s)
    | s => return ([name], s)

/-! ## Between the items of an array -/

/-- Passes over blanks, line ends and comments.  A comment must end with its line. -/
def skipBetween : Nat → List Char → Option (List Char)
  | 0, _ => none
  | fuel + 1, s =>
    let s := skipGaps s
    match newline? s with
    | some s => skipBetween fuel s
    | none =>
      match s with
      | '#' :: s => (newline? (s.dropWhile isPlain)).bind (skipBetween fuel)
      | s => some s

/-- Passes over blanks, line ends and comments. -/
def skipSpace (s : List Char) : Option (List Char) := skipBetween (s.length + 1) s

/-! ## Values -/

mutual

/-- A value, in at most `fuel` steps and at most `depth` levels deep. -/
def readValue : Nat → Nat → List Char → Option (Json × List Char)
  | 0, _, _ => none
  | fuel + 1, depth, s =>
    match s with
    | '"' :: _ => (readText s).map fun (text, s) => (.string (String.ofList text), s)
    | '\'' :: _ => (readText s).map fun (text, s) => (.string (String.ofList text), s)
    | '[' :: s =>
      if depth = 0 then none
      else (readItems fuel (depth - 1) s).map fun (items, s) => (.array items, s)
    | '{' :: s =>
      if depth = 0 then none
      else match skipGaps s with
        | '}' :: s => some (.object [], s)
        | s =>
          (readPairs fuel (depth - 1) [] s).map fun (fields, s) =>
            (.object (fieldsToJson fields), s)
    | 't' :: 'r' :: 'u' :: 'e' :: s => some (.boolean true, s)
    | 'f' :: 'a' :: 'l' :: 's' :: 'e' :: s => some (.boolean false, s)
    | s => (readMoment s).or (readNumber s)

/-- The items of an array up to its bracket.  A comma may follow the last one. -/
def readItems : Nat → Nat → List Char → Option (List Json × List Char)
  | 0, _, _ => none
  | fuel + 1, depth, s => do
    match ← skipSpace s with
    | ']' :: s => return ([], s)
    | s => do
      let (v, s) ← readValue fuel depth s
      match ← skipSpace s with
      | ',' :: s => do
        let (vs, s) ← readItems fuel depth s
        return (v :: vs, s)
      | ']' :: s => return ([v], s)
      | _ => none

/-- The pairs of an inline table up to its brace, added to `fields`. -/
def readPairs : Nat → Nat → Fields → List Char → Option (Fields × List Char)
  | 0, _, _, _ => none
  | fuel + 1, depth, fields, s => do
    let (key, s) ← readKey maxDepth s
    match s with
    | '=' :: s => do
      let (v, s) ← readValue fuel depth (skipGaps s)
      let fields ← insertAt v true key fields
      match skipGaps s with
      | ',' :: s => readPairs fuel depth fields s
      | '}' :: s => return (fields, s)
      | _ => none
    | _ => none

end

end Waymark.Toml
