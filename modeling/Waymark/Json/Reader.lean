import Waymark.Json
import Waymark.Percent
/-!
# Reading JSON

A reader for JSON text.  It accepts exactly the standard grammar: no blanks but
space, tab and line ends, no leading zeros, no raw control characters in strings,
nothing after the value.

Every step of the reader takes at least one character off, so the length of the
text bounds the number of steps.
-/

namespace Waymark.Json

/-- Whether a character may stand between tokens. -/
def isSpace (c : Char) : Bool := c = ' ' || c = '\n' || c = '\t' || c = '\r'

/-- The text without the blanks it starts with. -/
def skipSpaces (s : List Char) : List Char := s.dropWhile isSpace

/-! ## Strings -/

/-- A part of a string: a character, or a 16-bit unit given by its number. -/
inductive Part where
  | char (c : Char)
  | unit (n : Nat)

/-- The character that a one-letter escape stands for. -/
def escaped? (c : Char) : Option Char :=
  match c with
  | '"' => some '"'
  | '\\' => some '\\'
  | '/' => some '/'
  | 'b' => some (Char.ofNat 8)
  | 'f' => some (Char.ofNat 12)
  | 'n' => some '\n'
  | 'r' => some '\r'
  | 't' => some '\t'
  | _ => none

/-- The number of four hexadecimal digits. -/
def unit? (a b c d : Char) : Option Nat := do
  let a ← Percent.hexValue? a
  let b ← Percent.hexValue? b
  let c ← Percent.hexValue? c
  let d ← Percent.hexValue? d
  return ((a * 16 + b) * 16 + c) * 16 + d

/-- The parts of a string up to its closing quote, and what follows the quote. -/
def readParts : List Char → Option (List Part × List Char)
  | [] => none
  | '"' :: s => some ([], s)
  | '\\' :: 'u' :: a :: b :: c :: d :: s => do
    let n ← unit? a b c d
    let (parts, rest) ← readParts s
    return (.unit n :: parts, rest)
  | '\\' :: e :: s => do
    let c ← escaped? e
    let (parts, rest) ← readParts s
    return (.char c :: parts, rest)
  | c :: s =>
    if c.toNat < 32 ∨ c = '\\' then none
    else do
      let (parts, rest) ← readParts s
      return (.char c :: parts, rest)

/-- The text of the parts.  Two units that form a surrogate pair are one character; a unit that
is half of a pair is no text. -/
def joinParts : List Part → Option (List Char)
  | [] => some []
  | .char c :: ps => (joinParts ps).map (c :: ·)
  | .unit n :: ps =>
    if 0xD800 ≤ n ∧ n < 0xDC00 then
      match ps with
      | .unit m :: ps =>
        if 0xDC00 ≤ m ∧ m < 0xE000 then
          (joinParts ps).map (Char.ofNat (0x10000 + (n - 0xD800) * 0x400 + (m - 0xDC00)) :: ·)
        else none
      | _ => none
    else if 0xDC00 ≤ n ∧ n < 0xE000 then none
    else (joinParts ps).map (Char.ofNat n :: ·)

/-! ## Numbers -/

/-- The number of a row of digits. -/
def natOf (ds : List Char) : Nat := ds.foldl (fun n c => n * 10 + (c.toNat - 48)) 0

/-- An exponent: its digits follow an optional sign. -/
def readExponent (s : List Char) : Option (Int × List Char) :=
  let (negative, s) := match s with
    | '+' :: s => (false, s)
    | '-' :: s => (true, s)
    | s => (false, s)
  let ds := s.takeWhile Char.isDigit
  if ds = [] then none
  else
    let n : Int := natOf ds
    some (if negative then -n else n, s.dropWhile Char.isDigit)

/-- The exponent of a number, if it has one. -/
def readExponent? : List Char → Option (Option Int × List Char)
  | [] => some (none, [])
  | c :: s =>
    if c = 'e' ∨ c = 'E' then (readExponent s).map fun (e, s) => (some e, s)
    else some (none, c :: s)

/-- The digits of a fraction, if the number has one. -/
def readFraction? : List Char → Option (List Char × List Char)
  | '.' :: s =>
    let ds := s.takeWhile Char.isDigit
    if ds = [] then none else some (ds, s.dropWhile Char.isDigit)
  | s => some ([], s)

/-- What follows the whole part of a number. -/
def readNumberEnd (negative : Bool) (whole : List Char) (s : List Char) :
    Option (Json × List Char) := do
  let (fraction, s) ← readFraction? s
  let (exponent, s) ← readExponent? s
  let digits := natOf (whole ++ fraction)
  if fraction = [] ∧ exponent = none ∧ ¬(negative = true ∧ digits = 0) then
    return (.integer (if negative then -digits else digits), s)
  else
    return (.decimal ⟨negative, digits, exponent.getD 0 - fraction.length⟩, s)

/-- A number. -/
def readNumber (s : List Char) : Option (Json × List Char) :=
  let (negative, s) := match s with
    | '-' :: s => (true, s)
    | s => (false, s)
  match s with
  | '0' :: s =>
    if s.head?.any Char.isDigit then none else readNumberEnd negative ['0'] s
  | s =>
    let ds := s.takeWhile Char.isDigit
    if ds = [] then none else readNumberEnd negative ds (s.dropWhile Char.isDigit)

/-! ## Values -/

/-- The object of the fields read, unless a name is no text. -/
def objectOf (fields : List (Option String × Json)) : Json :=
  match fields.mapM fun (k, v) => k.map (·, v) with
  | some fields => .object fields
  | none => .broken

mutual

/-- A value after any blanks, in at most `fuel` steps. -/
def readValue : Nat → List Char → Option (Json × List Char)
  | 0, _ => none
  | fuel + 1, s =>
    match skipSpaces s with
    | '{' :: s =>
      match skipSpaces s with
      | '}' :: s => some (.object [], s)
      | s => (readFields fuel s).map fun (fields, s) => (objectOf fields, s)
    | '[' :: s =>
      match skipSpaces s with
      | ']' :: s => some (.array [], s)
      | s => (readItems fuel s).map fun (items, s) => (.array items, s)
    | '"' :: s =>
      (readParts s).map fun (parts, s) =>
        (match joinParts parts with
          | some cs => .string (String.ofList cs)
          | none => .broken, s)
    | 't' :: 'r' :: 'u' :: 'e' :: s => some (.boolean true, s)
    | 'f' :: 'a' :: 'l' :: 's' :: 'e' :: s => some (.boolean false, s)
    | 'n' :: 'u' :: 'l' :: 'l' :: s => some (.null, s)
    | s => readNumber s

/-- The items of an array up to its bracket. -/
def readItems : Nat → List Char → Option (List Json × List Char)
  | 0, _ => none
  | fuel + 1, s => do
    let (v, s) ← readValue fuel s
    match skipSpaces s with
    | ',' :: s => do
      let (vs, s) ← readItems fuel s
      return (v :: vs, s)
    | ']' :: s => return ([v], s)
    | _ => none

/-- The fields of an object up to its brace. -/
def readFields : Nat → List Char → Option (List (Option String × Json) × List Char)
  | 0, _ => none
  | fuel + 1, s =>
    match skipSpaces s with
    | '"' :: s => do
      let (parts, s) ← readParts s
      let key := (joinParts parts).map String.ofList
      match skipSpaces s with
      | ':' :: s => do
        let (v, s) ← readValue fuel s
        match skipSpaces s with
        | ',' :: s => do
          let (fs, s) ← readFields fuel s
          return ((key, v) :: fs, s)
        | '}' :: s => return ([(key, v)], s)
        | _ => none
      | _ => none
    | _ => none

end

/-- Reads a text that is one value and nothing else. -/
def read (text : List Char) : Option Json := do
  let (v, rest) ← readValue (text.length + 1) text
  if skipSpaces rest = [] then some v else none

/-- Reads a text that is one value and nothing else. -/
def parse (text : String) : Option Json := read text.toList

end Waymark.Json
