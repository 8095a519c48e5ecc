import Waymark.Percent
/-!
# Quoted text in TOML

The four kinds of quoted text: between single quotes a text stands for itself,
between double quotes a backslash escapes; either kind may be tripled and then
spans lines.  A line end inside a text is read as a line feed.

## Main results

* `length_escape?` — reading an escape never lengthens what is left.
* `length_skipBlankLines` — nor does passing over the lines after a backslash.
-/

namespace Waymark.Toml

/-- Whether a character may stand in a comment or between quotes: no control but the tab. -/
def isPlain (c : Char) : Bool := c = '\t' || (32 ≤ c.toNat && c.toNat ≠ 127)

/-- Whether a character is a blank within a line. -/
def isGap (c : Char) : Bool := c = ' ' || c = '\t'

/-- What follows a line end. -/
def newline? : List Char → Option (List Char)
  | '\n' :: s => some s
  | '\r' :: '\n' :: s => some s
  | _ => none

/-! ## Escapes -/

/-- The character that a one-letter escape stands for. -/
def escaped? (c : Char) : Option Char :=
  match c with
  | 'b' => some (Char.ofNat 8)
  | 't' => some '\t'
  | 'n' => some '\n'
  | 'f' => some (Char.ofNat 12)
  | 'r' => some '\r'
  | '"' => some '"'
  | '\\' => some '\\'
  | _ => none

/-- The number of a row of hexadecimal digits. -/
def hexNumber? (ds : List Char) : Option Nat :=
  ds.foldlM (fun n d => (Percent.hexValue? d).map (n * 16 + ·)) 0

/-- The character with a number, if there is one. -/
def scalar? (n : Nat) : Option Char :=
  if n < 0xD800 ∨ (0xE000 ≤ n ∧ n < 0x110000) then some (Char.ofNat n) else none

/-- The character given by exactly `width` hexadecimal digits. -/
def numbered? (width : Nat) (s : List Char) : Option (Char × List Char) :=
  if (s.take width).length = width then
    ((hexNumber? (s.take width)).bind scalar?).map (·, s.drop width)
  else none

/-- The character that an escape stands for, after its backslash. -/
def escape? : List Char → Option (Char × List Char)
  | [] => none
  | c :: s =>
    if c = 'u' then numbered? 4 s
    else if c = 'U' then numbered? 8 s
    else (escaped? c).map (·, s)

/-- No step of reading a string makes the text longer: a character given by its number. -/
theorem length_numbered? {width : Nat} {s rest : List Char} {c : Char}
    (h : numbered? width s = some (c, rest)) : rest.length ≤ s.length := by
  unfold numbered? at h
  split at h
  · simp only [Option.map_eq_some_iff, Prod.mk.injEq] at h
    obtain ⟨_, _, _, rfl⟩ := h
    simp
  · simp at h

/-- Nor does an escape. -/
theorem length_escape? {s rest : List Char} {c : Char} (h : escape? s = some (c, rest)) :
    rest.length ≤ s.length := by
  cases s with
  | nil => simp [escape?] at h
  | cons e s =>
    simp only [escape?] at h
    split at h
    · exact Nat.le_trans (length_numbered? h) (by simp)
    · split at h
      · exact Nat.le_trans (length_numbered? h) (by simp)
      · simp only [Option.map_eq_some_iff, Prod.mk.injEq] at h
        obtain ⟨_, _, _, rfl⟩ := h
        simp

/-! ## On one line -/

/-- A text in double quotes, after its first quote. -/
def readBasic (s : List Char) : Option (List Char × List Char) :=
  match s with
  | [] => none
  | c :: s =>
    if c = '"' then some ([], s)
    else if c = '\\' then
      match _h : escape? s with
      | some (e, rest) => (readBasic rest).map fun (text, rest) => (e :: text, rest)
      | none => none
    else if isPlain c then (readBasic s).map fun (text, rest) => (c :: text, rest)
    else none
termination_by s.length
decreasing_by
  · have := length_escape? _h
    simp only [List.length_cons]
    omega
  · simp

/-- A text in single quotes, after its first quote. -/
def readLiteral : List Char → Option (List Char × List Char)
  | [] => none
  | c :: s =>
    if c = '\'' then some ([], s)
    else if isPlain c then (readLiteral s).map fun (text, rest) => (c :: text, rest)
    else none

/-! ## Over lines -/

/-- Passes over blanks and line ends. -/
def skipBlankLines : List Char → List Char
  | '\r' :: '\n' :: s => skipBlankLines s
  | c :: s => if isGap c || c = '\n' then skipBlankLines s else c :: s
  | [] => []

/-- Nor do blank lines. -/
theorem length_skipBlankLines (s : List Char) : (skipBlankLines s).length ≤ s.length := by
  fun_induction skipBlankLines s with
  | case1 s ih => simp only [List.length_cons]; omega
  | case2 c s _ _ ih => simp only [List.length_cons]; omega
  | case3 c s => simp
  | case4 => simp

/-- What follows a backslash at the end of a line: the next character that is no blank. -/
def continued? (s : List Char) : Option (List Char) :=
  (newline? (s.dropWhile isGap)).map skipBlankLines

/-- Nor does the end of a line. -/
theorem length_newline? {s rest : List Char} (h : newline? s = some rest) :
    rest.length ≤ s.length := by
  unfold newline? at h
  split at h <;> simp_all
  omega

/-- Nor does a line that goes on. -/
theorem length_continued? {s rest : List Char} (h : continued? s = some rest) :
    rest.length ≤ s.length := by
  simp only [continued?, Option.map_eq_some_iff] at h
  obtain ⟨t, ht, rfl⟩ := h
  have h₁ := length_skipBlankLines t
  have h₂ := length_newline? ht
  have h₃ := (List.dropWhile_sublist isGap (l := s)).length_le
  omega

/-- What follows the first two of three closing quotes: up to two more quotes belong to the
text. -/
def closing (quote : Char) : List Char → Option (List Char × List Char)
  | [] => none
  | c :: s =>
    if c ≠ quote then none
    else match s with
      | a :: b :: rest =>
        if a = quote ∧ b = quote then some ([quote, quote], rest)
        else if a = quote then some ([quote], b :: rest)
        else some ([], a :: b :: rest)
      | [a] => if a = quote then some ([quote], []) else some ([], [a])
      | [] => some ([], [])

/-- The end of a text in tripled quotes, if it ends here. -/
def closed? (quote : Char) : List Char → Option (List Char × List Char)
  | a :: b :: s => if a = quote ∧ b = quote then closing quote s else none
  | _ => none

/-- A text in tripled double quotes, after its first quotes. -/
def readLongBasic (s : List Char) : Option (List Char × List Char) :=
  match closed? '"' s with
  | some found => some found
  | none =>
    match s with
    | [] => none
    | c :: s =>
      if c = '\\' then
        match _h : escape? s with
        | some (e, rest) => (readLongBasic rest).map fun (text, rest) => (e :: text, rest)
        | none =>
          match _h : continued? s with
          | some rest => readLongBasic rest
          | none => none
      else if c = '\n' ∨ isPlain c = true then
        (readLongBasic s).map fun (text, rest) => (c :: text, rest)
      else if c = '\r' ∧ s.head? = some '\n' then readLongBasic s
      else none
termination_by s.length
decreasing_by
  · have := length_escape? _h
    simp only [List.length_cons]
    omega
  · have := length_continued? _h
    simp only [List.length_cons]
    omega
  · simp
  · simp

/-- A text in tripled single quotes, after its first quotes. -/
def readLongLiteral (s : List Char) : Option (List Char × List Char) :=
  match closed? '\'' s with
  | some found => some found
  | none =>
    match s with
    | [] => none
    | c :: s =>
      if c = '\n' ∨ isPlain c = true then
        (readLongLiteral s).map fun (text, rest) => (c :: text, rest)
      else if c = '\r' ∧ s.head? = some '\n' then readLongLiteral s
      else none

/-- The text after the first line end, if the text begins with one. -/
def skipNewline (s : List Char) : List Char := (newline? s).getD s

/-- A quoted text. -/
def readText : List Char → Option (List Char × List Char)
  | '"' :: '"' :: '"' :: s => readLongBasic (skipNewline s)
  | '"' :: s => readBasic s
  | '\'' :: '\'' :: '\'' :: s => readLongLiteral (skipNewline s)
  | '\'' :: s => readLiteral s
  | _ => none

end Waymark.Toml
