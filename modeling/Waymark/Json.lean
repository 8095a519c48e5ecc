import Waymark.Decimal
/-!
# JSON values

JSON as a data type and its compact written form.  The fields of an object keep
the order, and the repetitions, they were written with.

## Main results

* `escapeChar_plain` — a character above the controls, neither quote nor backslash, is written
  as itself.
-/

namespace Waymark

/-- A JSON value.  `broken` stands for a value that is well-formed but holds text with half of a
surrogate pair: it can be passed over, not read. -/
inductive Json where
  | null
  | boolean (b : Bool)
  | integer (n : Int)
  | decimal (d : Decimal)
  | string (s : String)
  | array (items : List Json)
  | object (fields : List (String × Json))
  | broken
  deriving Inhabited

namespace Json

/-! ## Text -/

/-- A lower-case hexadecimal digit. -/
def hexDigit (n : Nat) : Char :=
  if n < 10 then Char.ofNat (48 + n) else Char.ofNat (87 + n)

/-- A character as it stands between quotes. -/
def escapeChar (c : Char) : List Char :=
  if c = '"' then ['\\', '"']
  else if c = '\\' then ['\\', '\\']
  else if c = '\n' then ['\\', 'n']
  else if c = '\r' then ['\\', 'r']
  else if c = '\t' then ['\\', 't']
  else if c.toNat = 8 then ['\\', 'b']
  else if c.toNat = 12 then ['\\', 'f']
  else if c.toNat < 32 then
    ['\\', 'u', '0', '0', hexDigit (c.toNat / 16), hexDigit (c.toNat % 16)]
  else [c]

/-- A character that needs no escape is written as itself. -/
theorem escapeChar_plain {c : Char} (h : 32 ≤ c.toNat) (hq : c ≠ '"') (hb : c ≠ '\\') :
    escapeChar c = [c] := by
  have h1 : c ≠ '\n' := by rintro rfl; revert h; decide
  have h2 : c ≠ '\r' := by rintro rfl; revert h; decide
  have h3 : c ≠ '\t' := by rintro rfl; revert h; decide
  unfold escapeChar
  simp only [hq, hb, h1, h2, h3, if_false]
  split
  · omega
  · split
    · omega
    · split
      · omega
      · rfl

/-- A text between quotes. -/
def quoteChars (s : List Char) : List Char := '"' :: s.flatMap escapeChar ++ ['"']

/-- A text as a JSON string. -/
def quote (s : String) : String := String.ofList (quoteChars s.toList)

/-! ## Written form -/

/-- An integer in decimal. -/
def writeInteger (n : Int) : List Char :=
  match n with
  | .ofNat n => Nat.toDigits 10 n
  | .negSucc n => '-' :: Nat.toDigits 10 (n + 1)

mutual

/-- The written form of a value, without blanks. -/
def write : Json → List Char
  | .null => "null".toList
  | .boolean true => "true".toList
  | .boolean false => "false".toList
  | .integer n => writeInteger n
  | .decimal d => d.toText
  | .string s => quoteChars s.toList
  | .array items => '[' :: writeItems items ++ [']']
  | .object fields => '{' :: writeFields fields ++ ['}']
  | .broken => "null".toList

/-- The items of an array, with commas between them. -/
def writeItems : List Json → List Char
  | [] => []
  | [v] => write v
  | v :: w :: vs => write v ++ ',' :: writeItems (w :: vs)

/-- The fields of an object, with commas between them. -/
def writeFields : List (String × Json) → List Char
  | [] => []
  | [(k, v)] => quoteChars k.toList ++ ':' :: write v
  | (k, v) :: f :: fs => quoteChars k.toList ++ ':' :: write v ++ ',' :: writeFields (f :: fs)

end

/-- The compact text of a value. -/
def render (v : Json) : String := String.ofList v.write

/-! ## Views -/

/-- The text of a string. -/
def string? : Json → Option String
  | .string s => some s
  | _ => none

/-- The items of an array. -/
def array? : Json → Option (List Json)
  | .array items => some items
  | _ => none

/-- The fields of an object. -/
def object? : Json → Option (List (String × Json))
  | .object fields => some fields
  | _ => none

/-- The first field of that name, if the value is an object that has one. -/
def field? (v : Json) (name : String) : Option Json :=
  match v with
  | .object fields => fields.lookup name
  | _ => none

/-- An optional text: `null` for none. -/
def ofOption : Option String → Json
  | some s => .string s
  | none => .null

/-- An array of texts. -/
def ofStrings (xs : List String) : Json := .array (xs.map .string)

/-- A natural number. -/
def ofNat (n : Nat) : Json := .integer n

end Json
end Waymark
