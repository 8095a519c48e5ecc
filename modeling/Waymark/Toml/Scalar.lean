import Waymark.Json
import Waymark.Percent
/-!
# Numbers and dates in TOML

Integers in four bases, decimal fractions, and dates with or without a time.
Digits may be grouped with single underscores.  An integer has 64 bits; a fraction
is a double, of which the infinite ones and those that are no number cannot be
written as JSON.
-/

namespace Waymark.Toml

/-! ## Digits -/

/-- The digits of a group in which single underscores stand between digits. -/
def ungroup? : List Char → Option (List Char)
  | [] => none
  | [c] => if c = '_' then none else some [c]
  | c :: d :: s =>
    if c = '_' then none
    else if d = '_' then (ungroup? s).map (c :: ·)
    else (ungroup? (d :: s)).map (c :: ·)

/-- A group of digits, and what follows it. -/
def readGroup (isDigit : Char → Bool) (s : List Char) : Option (List Char × List Char) :=
  let inGroup (c : Char) : Bool := isDigit c || c = '_'
  (ungroup? (s.takeWhile inGroup)).map (·, s.dropWhile inGroup)

/-- The number of a row of digits in a base. -/
def numberIn (base : Nat) (ds : List Char) : Nat :=
  ds.foldl (fun n d => n * base + (Percent.hexValue? d).getD 0) 0

/-- The digits of a whole number: only zero itself begins with a zero. -/
def wholeDigits? (s : List Char) : Option (List Char × List Char) :=
  match readGroup Char.isDigit s with
  | some (ds, rest) => if ds.head? = some '0' ∧ ds ≠ ['0'] then none else some (ds, rest)
  | none => none

/-! ## Numbers -/

/-- The first whole number that is too large for 64 bits with a sign. -/
def integerBound : Int := 9223372036854775808

/-- An integer, if it has at most 64 bits. -/
def integer? (n : Int) : Option Json :=
  if -integerBound ≤ n ∧ n < integerBound then some (.integer n) else none

/-- The least number that is nearer to infinity than to the greatest double. -/
def overflowBound : Nat := 1 <<< 1024 - 1 <<< 970

/-- Whether a decimal number is infinite as a double. -/
def overflows (digits : Nat) (exponent : Int) : Bool :=
  let point := (Nat.toDigits 10 digits).length + exponent
  if digits = 0 ∨ point < 309 then false
  else if 309 < point then true
  else if 0 ≤ exponent then overflowBound ≤ digits * Nat.pow 10 exponent.toNat
  else overflowBound * Nat.pow 10 (-exponent).toNat ≤ digits

/-- A fraction.  One that is positive and infinite is refused; a negative one is known to be there
but cannot be read. -/
def fraction? (negative : Bool) (digits : Nat) (exponent : Int) : Option Json :=
  if overflows digits exponent then if negative then some .broken else none
  else some (.decimal ⟨negative, digits, exponent⟩)

/-- A sign, if there is one: whether it is a minus, and what follows. -/
def readSign : List Char → Option Bool × List Char
  | '+' :: s => (some false, s)
  | '-' :: s => (some true, s)
  | s => (none, s)

/-- The digits after a point, if there is one. -/
def readPlaces : List Char → Option (Option (List Char) × List Char)
  | '.' :: s => (readGroup Char.isDigit s).map fun (ds, rest) => (some ds, rest)
  | s => some (none, s)

/-- The exponent, if there is one. -/
def readScale : List Char → Option (Option Int × List Char)
  | c :: s =>
    if c = 'e' ∨ c = 'E' then
      let (sign, s) := readSign s
      (readGroup Char.isDigit s).map fun (ds, rest) =>
        let n : Int := numberIn 10 ds
        (some (if sign = some true then -n else n), rest)
    else some (none, c :: s)
  | [] => some (none, [])

/-- A number in decimal. -/
def readDecimal (negative : Bool) (s : List Char) : Option (Json × List Char) := do
  let (whole, s) ← wholeDigits? s
  let (places, s) ← readPlaces s
  let (scale, s) ← readScale s
  let ds := whole ++ places.getD []
  let n := numberIn 10 ds
  let v ← if places = none ∧ scale = none then integer? (if negative then -n else n)
    else fraction? negative n (scale.getD 0 - (places.getD []).length)
  return (v, s)

/-- An integer in another base, after its mark. -/
def readInBase (base : Nat) (s : List Char) : Option (Json × List Char) := do
  let isDigit (c : Char) : Bool := (Percent.hexValue? c).any (· < base)
  let (ds, s) ← readGroup isDigit s
  return (← integer? (numberIn base ds), s)

/-- A number. -/
def readNumber (s : List Char) : Option (Json × List Char) :=
  match s with
  | '0' :: 'x' :: s => readInBase 16 s
  | '0' :: 'o' :: s => readInBase 8 s
  | '0' :: 'b' :: s => readInBase 2 s
  | s =>
    let (sign, s) := readSign s
    match s with
    | 'i' :: 'n' :: 'f' :: s => some (.broken, s)
    | 'n' :: 'a' :: 'n' :: s => some (.broken, s)
    | s => readDecimal (sign = some true) s

/-! ## Dates and times -/

/-- A number of exactly `width` digits between two bounds, with its digits. -/
def fixed? (width least most : Nat) (s : List Char) : Option (Nat × List Char × List Char) :=
  let ds := s.take width
  let n := numberIn 10 ds
  if ds.length = width ∧ ds.all Char.isDigit = true ∧ least ≤ n ∧ n ≤ most then
    some (n, ds, s.drop width)
  else none

/-- The number of days of a month. -/
def daysIn (year month : Nat) : Nat :=
  if month = 2 then
    if year % 4 = 0 ∧ (year % 100 ≠ 0 ∨ year % 400 = 0) then 29 else 28
  else if month ∈ [4, 6, 9, 11] then 30
  else 31

/-- What follows a given character. -/
def skip? (c : Char) : List Char → Option (List Char)
  | d :: s => if d = c then some s else none
  | [] => none

/-- A date. -/
def readDate (s : List Char) : Option (List Char × List Char) := do
  let (year, y, s) ← fixed? 4 0 9999 s
  let s ← skip? '-' s
  let (month, m, s) ← fixed? 2 1 12 s
  let s ← skip? '-' s
  let (_, d, s) ← fixed? 2 1 (daysIn year month) s
  return (y ++ '-' :: m ++ '-' :: d, s)

/-- The part of a second, to nine places, without zeros at the end. -/
def readPart (s : List Char) : Option (List Char × List Char) :=
  match s with
  | '.' :: s =>
    let ds := s.takeWhile Char.isDigit
    let kept := ((ds.take 9).reverse.dropWhile (· = '0')).reverse
    if ds = [] then none
    else some (if kept = [] then [] else '.' :: kept, s.dropWhile Char.isDigit)
  | s => some ([], s)

/-- A time of day. -/
def readTime (s : List Char) : Option (List Char × List Char) := do
  let (_, hour, s) ← fixed? 2 0 23 s
  let s ← skip? ':' s
  let (_, minute, s) ← fixed? 2 0 59 s
  let s ← skip? ':' s
  let (_, second, s) ← fixed? 2 0 60 s
  let (part, s) ← readPart s
  return (hour ++ ':' :: minute ++ ':' :: second ++ part, s)

/-- The distance from universal time, if there is one. -/
def readOffset (s : List Char) : Option (List Char × List Char) :=
  match s with
  | 'Z' :: s => some (['Z'], s)
  | 'z' :: s => some (['Z'], s)
  | s =>
    match (readSign s).1 with
    | none => some ([], s)
    | some negative => do
      let (h, hour, s) ← fixed? 2 0 23 (readSign s).2
      let s ← skip? ':' s
      let (m, minute, s) ← fixed? 2 0 59 s
      let sign := if negative = true ∧ ¬(h = 0 ∧ m = 0) then '-' else '+'
      return (sign :: hour ++ ':' :: minute, s)

/-- A time after a date, if there is one. -/
def readTimeAfter (s : List Char) : Option (List Char × List Char) :=
  match s with
  | c :: rest =>
    if c = 'T' ∨ c = 't' ∨ c = ' ' then do
      match readTime rest with
      | some (time, rest) =>
        let (offset, rest) ← readOffset rest
        return ('T' :: time ++ offset, rest)
      | none => return ([], s)
    else some ([], s)
  | [] => some ([], [])

/-- The name of the one field that a date is given as. -/
def dateField : String := "$__toml_private_datetime"

/-- A date or a time, as an object with one field that holds its text. -/
def readMoment (s : List Char) : Option (Json × List Char) :=
  let found : Option (List Char × List Char) := match readDate s with
    | some (date, s) => (readTimeAfter s).map fun (time, s) => (date ++ time, s)
    | none => readTime s
  found.map fun (text, s) => (.object [(dateField, .string (String.ofList text))], s)

end Waymark.Toml
