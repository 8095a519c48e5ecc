import Waymark.Json.Reader
import Waymark.Proofs.Text.Digits
import Waymark.Text.Hex
/-!
# Written JSON is read back

A value that holds no decimal fraction is read back from its written form, whatever
follows it, as long as that does not go on with a number.  A decimal fraction keeps its
value but not the digits it is made of, so nothing of the kind is said of it.

The reader counts its steps.  What it takes to read an array or an object is counted
along the written items, each of which begins behind a bracket or a comma: so it is never
more than there are characters, and `Json.read` allows one step more than that.

## Main results

* `readParts_escaped` — an escaped text is read back up to its closing quote.
* `readNumber_writeInteger` — so is an integer, with either sign.
* `readItems_write`, `readFields_write` — what an array or an object holds is read back.
* `read_write` — the text of a value without decimal fractions is read as that value.
-/

namespace Waymark.Json

/-! ## Strings -/

/-- How a character can be escaped: by one letter, by its number, or not at all. -/
theorem escapeChar_cases (c : Char) :
    (∃ e, e ≠ 'u' ∧ escaped? e = some c ∧ escapeChar c = ['\\', e]) ∨
      (c.toNat < 32 ∧ escapeChar c =
        ['\\', 'u', '0', '0', hexDigit (c.toNat / 16), hexDigit (c.toNat % 16)]) ∨
      (32 ≤ c.toNat ∧ c ≠ '"' ∧ c ≠ '\\' ∧ escapeChar c = [c]) := by
  have hchar {n : Nat} (h : c.toNat = n) : Char.ofNat n = c := by
    rw [← h, Char.ofNat_toNat]
  unfold escapeChar
  by_cases hquote : c = '"'
  · rw [if_pos hquote]
    exact Or.inl ⟨'"', by decide, congrArg some hquote.symm, rfl⟩
  rw [if_neg hquote]
  by_cases hslash : c = '\\'
  · rw [if_pos hslash]
    exact Or.inl ⟨'\\', by decide, congrArg some hslash.symm, rfl⟩
  rw [if_neg hslash]
  by_cases hline : c = '\n'
  · rw [if_pos hline]
    exact Or.inl ⟨'n', by decide, congrArg some hline.symm, rfl⟩
  rw [if_neg hline]
  by_cases hreturn : c = '\r'
  · rw [if_pos hreturn]
    exact Or.inl ⟨'r', by decide, congrArg some hreturn.symm, rfl⟩
  rw [if_neg hreturn]
  by_cases htab : c = '\t'
  · rw [if_pos htab]
    exact Or.inl ⟨'t', by decide, congrArg some htab.symm, rfl⟩
  rw [if_neg htab]
  by_cases hback : c.toNat = 8
  · rw [if_pos hback]
    exact Or.inl ⟨'b', by decide, congrArg some (hchar hback), rfl⟩
  rw [if_neg hback]
  by_cases hfeed : c.toNat = 12
  · rw [if_pos hfeed]
    exact Or.inl ⟨'f', by decide, congrArg some (hchar hfeed), rfl⟩
  rw [if_neg hfeed]
  by_cases hlow : c.toNat < 32
  · rw [if_pos hlow]
    exact Or.inr (Or.inl ⟨hlow, rfl⟩)
  · rw [if_neg hlow]
    exact Or.inr (Or.inr ⟨Nat.le_of_not_lt hlow, hquote, hslash, rfl⟩)

/-- The number in an escape is that of the character. -/
theorem unit?_escaped {n : Nat} (h : n < 32) :
    unit? '0' '0' (hexDigit (n / 16)) (hexDigit (n % 16)) = some n := by
  have hzero : Percent.hexValue? '0' = some 0 := rfl
  rw [unit?, hzero, Text.Hex.hexValue?_hexDigit (by omega), Text.Hex.hexValue?_hexDigit (by omega)]
  show some (((0 * 16 + 0) * 16 + n / 16) * 16 + n % 16) = some n
  congr 1
  omega

theorem readParts_char {c : Char} (h : 32 ≤ c.toNat) (hquote : c ≠ '"') (hslash : c ≠ '\\')
    (s : List Char) :
    readParts (c :: s) = (readParts s).map fun read => (.char c :: read.1, read.2) := by
  rw [readParts.eq_5 c s hquote (fun _ _ _ _ _ hc => absurd hc hslash)
    (fun _ _ hc => absurd hc hslash), if_neg (not_or.2 ⟨by omega, hslash⟩)]
  cases readParts s <;> rfl

theorem readParts_letter {e c : Char} (hu : e ≠ 'u') (he : escaped? e = some c) (s : List Char) :
    readParts ('\\' :: e :: s) =
      (readParts s).map fun read => (.char c :: read.1, read.2) := by
  rw [readParts.eq_4 e s fun _ _ _ _ _ h => absurd h hu, he]
  cases readParts s <;> rfl

theorem readParts_unit {a b c d : Char} {n : Nat} (h : unit? a b c d = some n) (s : List Char) :
    readParts ('\\' :: 'u' :: a :: b :: c :: d :: s) =
      (readParts s).map fun read => (.unit n :: read.1, read.2) := by
  rw [readParts, h]
  cases readParts s <;> rfl

/-- A number that is no half of a surrogate pair stands for a character of its own. -/
theorem joinParts_unit {n : Nat} (h : n < 32) (parts : List Part) :
    joinParts (.unit n :: parts) = (joinParts parts).map (Char.ofNat n :: ·) := by
  rw [joinParts.eq_def]
  dsimp only
  rw [if_neg (by omega), if_neg (by omega)]

/-- An escaped text is read back up to its closing quote. -/
theorem readParts_escaped (s rest : List Char) :
    ∃ parts, readParts (s.flatMap escapeChar ++ '"' :: rest) = some (parts, rest) ∧
      joinParts parts = some s := by
  induction s with
  | nil => exact ⟨[], rfl, rfl⟩
  | cons c s ih =>
    obtain ⟨parts, hread, hjoin⟩ := ih
    rw [List.flatMap_cons, List.append_assoc]
    generalize s.flatMap escapeChar ++ '"' :: rest = written at hread ⊢
    rcases escapeChar_cases c with ⟨e, hu, he, hc⟩ | ⟨hlow, hc⟩ | ⟨hhigh, hquote, hslash, hc⟩
    · refine ⟨.char c :: parts, ?_, by rw [joinParts, hjoin]; rfl⟩
      rw [hc]
      exact (readParts_letter hu he written).trans (by rw [hread]; rfl)
    · refine ⟨.unit c.toNat :: parts, ?_, by rw [joinParts_unit hlow, hjoin, Char.ofNat_toNat]; rfl⟩
      rw [hc]
      exact (readParts_unit (unit?_escaped hlow) written).trans (by rw [hread]; rfl)
    · refine ⟨.char c :: parts, ?_, by rw [joinParts, hjoin]; rfl⟩
      rw [hc]
      exact (readParts_char hhigh hquote hslash written).trans (by rw [hread]; rfl)

/-! ## Integers -/

theorem natOf_append (s : List Char) (c : Char) :
    natOf (s ++ [c]) = natOf s * 10 + (c.toNat - 48) :=
  List.foldl_append ..

theorem natOf_toDigits (n : Nat) : natOf (Nat.toDigits 10 n) = n := by
  have hdigit : ∀ d < 10, (Nat.digitChar d).toNat - 48 = d := by decide
  induction n using Nat.strongRecOn with
  | ind n ih =>
    rw [Nat.toDigits_eq_if (by decide)]
    split
    · rename_i hn
      have h := natOf_append [] (Nat.digitChar n)
      rw [List.nil_append, hdigit n hn] at h
      rw [h]
      exact Nat.zero_add n
    · rw [natOf_append, ih (n / 10) (Nat.div_lt_self (by omega) (by decide)),
        hdigit (n % 10) (Nat.mod_lt n (by decide)), Nat.div_add_mod']

/-- A written number begins with a digit, and with a zero only if it is zero. -/
theorem exists_cons_toDigits (n : Nat) :
    ∃ c s, Nat.toDigits 10 n = c :: s ∧ c.isDigit = true ∧ (c = '0' → n = 0 ∧ s = []) := by
  induction n using Nat.strongRecOn with
  | ind n ih =>
    rw [Nat.toDigits_eq_if (by decide)]
    split
    · rename_i hn
      have hzero : ∀ d < 10, Nat.digitChar d = '0' → d = 0 := by decide
      refine ⟨_, [], rfl, ?_, fun hc => ⟨hzero n hn hc, rfl⟩⟩
      rw [Nat.isDigit_digitChar, decide_eq_true hn]
    · obtain ⟨c, s, hs, hdigit, hzero⟩ := ih (n / 10) (Nat.div_lt_self (by omega) (by decide))
      refine ⟨c, s ++ [Nat.digitChar (n % 10)], by rw [hs]; rfl, hdigit, fun hc => ?_⟩
      obtain ⟨hdiv, -⟩ := hzero hc
      omega

/-- A text that does not go on with a number. -/
def EndsNumber (s : List Char) : Prop :=
  ∀ c ∈ s.head?, c.isDigit = false ∧ c ≠ '.' ∧ c ≠ 'e' ∧ c ≠ 'E'

theorem endsNumber_cons {c : Char} (h : c.isDigit = false ∧ c ≠ '.' ∧ c ≠ 'e' ∧ c ≠ 'E')
    (s : List Char) : EndsNumber (c :: s) := by
  intro d hd
  obtain rfl := Option.some.inj hd
  exact h

section
variable {digits rest : List Char}

theorem takeWhile_isDigit (hdigits : ∀ c ∈ digits, c.isDigit = true) (hrest : EndsNumber rest) :
    (digits ++ rest).takeWhile Char.isDigit = digits ∧
      (digits ++ rest).dropWhile Char.isDigit = rest := by
  rw [List.takeWhile_append_of_pos hdigits, List.dropWhile_append_of_pos hdigits]
  cases rest with
  | nil => exact ⟨List.append_nil digits, rfl⟩
  | cons c rest =>
    have hc : ¬c.isDigit = true := Bool.eq_false_iff.1 (hrest c rfl).1
    rw [List.takeWhile_cons_of_neg hc, List.dropWhile_cons_of_neg hc, List.append_nil]
    exact ⟨rfl, rfl⟩

/-- Nothing follows the whole part of an integer. -/
theorem readNumberEnd_integer (hrest : EndsNumber rest) {negative : Bool}
    (h : ¬(negative = true ∧ natOf digits = 0)) :
    readNumberEnd negative digits rest =
      some (.integer (if negative then -(natOf digits : Int) else natOf digits), rest) := by
  have hfraction : readFraction? rest = some ([], rest) := by
    unfold readFraction?
    split
    · exact absurd rfl (hrest '.' rfl).2.1
    · rfl
  have hexponent : readExponent? rest = some (none, rest) := by
    cases rest with
    | nil => rfl
    | cons c rest =>
      obtain ⟨-, -, hlower, hupper⟩ := hrest c rfl
      rw [readExponent?, if_neg (not_or.2 ⟨hlower, hupper⟩)]
  unfold readNumberEnd
  simp [hfraction, hexponent, h]

end

/-- A number that does not begin with a zero is its sign and a row of digits. -/
theorem readNumber_of_digit {c : Char} (hdigit : c.isDigit = true) (hzero : c ≠ '0')
    (s : List Char) :
    readNumber (c :: s) =
        readNumberEnd false ((c :: s).takeWhile Char.isDigit) ((c :: s).dropWhile Char.isDigit) ∧
      readNumber ('-' :: c :: s) =
        readNumberEnd true ((c :: s).takeWhile Char.isDigit) ((c :: s).dropWhile Char.isDigit) := by
  have hsign : c ≠ '-' := by
    rintro rfl
    exact absurd hdigit (by decide)
  constructor
  · unfold readNumber
    simp [hsign, hzero, hdigit]
  · unfold readNumber
    simp [hzero, hdigit]

/-- The digits of a number are read back, and so they are behind a sign. -/
theorem readNumber_toDigits (n : Nat) {rest : List Char} (hrest : EndsNumber rest) :
    readNumber (Nat.toDigits 10 n ++ rest) = some (.integer n, rest) ∧
      (n ≠ 0 → readNumber ('-' :: (Nat.toDigits 10 n ++ rest)) = some (.integer (-n), rest)) := by
  obtain ⟨c, s, hs, hdigit, hzero⟩ := exists_cons_toDigits n
  by_cases hc : c = '0'
  · obtain ⟨rfl, rfl⟩ := hzero hc
    refine ⟨?_, fun h => absurd rfl h⟩
    have hnext : ¬rest.head?.any Char.isDigit = true := by
      cases rest with
      | nil => exact Bool.false_ne_true
      | cons d rest => exact Bool.eq_false_iff.1 (hrest d rfl).1
    show (if rest.head?.any Char.isDigit then none else readNumberEnd false ['0'] rest) = _
    rw [if_neg hnext, readNumberEnd_integer hrest (by decide)]
    rfl
  · have hdigits : ∀ d ∈ Nat.toDigits 10 n, d.isDigit = true :=
      fun d hd => Nat.isDigit_of_mem_toDigits (by decide) (by decide) hd
    obtain ⟨htake, hdrop⟩ := takeWhile_isDigit hdigits hrest
    have hread := readNumber_of_digit hdigit hc (s ++ rest)
    rw [← List.cons_append, ← hs, htake, hdrop] at hread
    constructor
    · rw [hread.1, readNumberEnd_integer hrest (by simp), natOf_toDigits]
      rfl
    · intro hn
      rw [hread.2, readNumberEnd_integer hrest (by rw [natOf_toDigits]; exact fun h => hn h.2),
        natOf_toDigits]
      rfl

theorem readNumber_writeInteger (n : Int) {rest : List Char} (hrest : EndsNumber rest) :
    readNumber (writeInteger n ++ rest) = some (.integer n, rest) := by
  cases n with
  | ofNat n => exact (readNumber_toDigits n hrest).1
  | negSucc n => exact (readNumber_toDigits (n + 1) hrest).2 (Nat.succ_ne_zero n)

/-! ## Values -/

/-- A value without decimal fractions. -/
inductive IsWhole : Json → Prop
  | null : IsWhole .null
  | boolean (b : Bool) : IsWhole (.boolean b)
  | integer (n : Int) : IsWhole (.integer n)
  | string (s : String) : IsWhole (.string s)
  | array {items : List Json} (h : ∀ v ∈ items, IsWhole v) : IsWhole (.array items)
  | object {fields : List (String × Json)} (h : ∀ e ∈ fields, IsWhole e.2) :
    IsWhole (.object fields)

/-- The written form of a value is read back in one step more than it has characters, and what
follows it is left. -/
def ReadsBack (v : Json) : Prop :=
  ∀ (n : Nat) (rest : List Char), v.write.length ≤ n → EndsNumber rest →
    readValue (n + 1) (v.write ++ rest) = some (v, rest)

theorem skipSpaces_cons {c : Char} (h : isSpace c = false) (s : List Char) :
    skipSpaces (c :: s) = c :: s :=
  List.dropWhile_cons_of_neg (Bool.eq_false_iff.1 h)

/-- What a number begins with is nothing else. -/
theorem ne_of_beginsNumber {c d : Char} (hc : c = '-' ∨ c.isDigit = true)
    (hd : d ≠ '-' ∧ d.isDigit = false) : c ≠ d := by
  rintro rfl
  rcases hc with hminus | hdigit
  · exact hd.1 hminus
  · rw [hd.2] at hdigit
    nomatch hdigit

theorem isSpace_of_beginsNumber {c : Char} (hc : c = '-' ∨ c.isDigit = true) :
    isSpace c = false := by
  have h₁ : c ≠ ' ' := ne_of_beginsNumber hc (by decide)
  have h₂ : c ≠ '\n' := ne_of_beginsNumber hc (by decide)
  have h₃ : c ≠ '\t' := ne_of_beginsNumber hc (by decide)
  have h₄ : c ≠ '\r' := ne_of_beginsNumber hc (by decide)
  simp [isSpace, h₁, h₂, h₃, h₄]

/-- A value that begins as a number is read as one. -/
theorem readValue_number {c : Char} (hc : c = '-' ∨ c.isDigit = true) (n : Nat) (s : List Char) :
    readValue (n + 1) (c :: s) = readNumber (c :: s) := by
  rw [readValue, skipSpaces_cons (isSpace_of_beginsNumber hc)]
  split
  all_goals
    first
    | rfl
    | (rename_i heq; exact absurd (List.cons.inj heq).1 (ne_of_beginsNumber hc (by decide)))

theorem exists_cons_writeInteger (n : Int) :
    ∃ c s, writeInteger n = c :: s ∧ (c = '-' ∨ c.isDigit = true) := by
  cases n with
  | ofNat n =>
    obtain ⟨c, s, hs, hdigit, -⟩ := exists_cons_toDigits n
    exact ⟨c, s, hs, Or.inr hdigit⟩
  | negSucc n => exact ⟨_, _, rfl, Or.inl rfl⟩

/-- A written value begins with a character that is not passed over and closes nothing. -/
theorem exists_cons_write {v : Json} (h : IsWhole v) :
    ∃ c s, v.write = c :: s ∧ isSpace c = false ∧ c ≠ ']' := by
  cases h with
  | null => exact ⟨_, _, rfl, by decide, by decide⟩
  | boolean b =>
    cases b with
    | false => exact ⟨_, _, rfl, by decide, by decide⟩
    | true => exact ⟨_, _, rfl, by decide, by decide⟩
  | integer n =>
    obtain ⟨c, s, hs, hc⟩ := exists_cons_writeInteger n
    rw [write, hs]
    exact ⟨c, s, rfl, isSpace_of_beginsNumber hc, ne_of_beginsNumber hc (by decide)⟩
  | string s => exact ⟨_, _, rfl, by decide, by decide⟩
  | array => exact ⟨_, _, rfl, by decide, by decide⟩
  | object => exact ⟨_, _, rfl, by decide, by decide⟩

theorem readsBack_integer (k : Int) : ReadsBack (.integer k) := by
  intro n rest _ hrest
  obtain ⟨c, s, hs, hc⟩ := exists_cons_writeInteger k
  have hnumber := readNumber_writeInteger k hrest
  rw [write]
  rw [hs, List.cons_append] at hnumber ⊢
  rw [readValue_number hc, hnumber]

theorem quoteChars_append (s rest : List Char) :
    quoteChars s ++ rest = '"' :: (s.flatMap escapeChar ++ '"' :: rest) := by
  rw [quoteChars, List.cons_append, List.cons_append, List.append_assoc]
  rfl

theorem readsBack_string (s : String) : ReadsBack (.string s) := by
  intro n rest _ _
  obtain ⟨parts, hread, hjoin⟩ := readParts_escaped s.toList rest
  rw [write, quoteChars_append]
  show (readParts (s.toList.flatMap escapeChar ++ '"' :: rest)).map _ = some (string s, rest)
  rw [hread, Option.map_some]
  dsimp only
  rw [hjoin]
  dsimp only
  rw [String.ofList_toList]

theorem exists_cons_writeItems {items : List Json} (h : ∀ v ∈ items, IsWhole v)
    (hne : items ≠ []) : ∃ c s, writeItems items = c :: s ∧ isSpace c = false ∧ c ≠ ']' := by
  cases items with
  | nil => exact absurd rfl hne
  | cons v items =>
    obtain ⟨c, s, hs, hc⟩ := exists_cons_write (h v (List.mem_cons_self ..))
    cases items with
    | nil => exact ⟨c, s, hs, hc⟩
    | cons w items =>
      rw [writeItems, hs]
      exact ⟨c, _, rfl, hc⟩

theorem exists_cons_writeFields {fields : List (String × Json)} (hne : fields ≠ []) :
    ∃ s, writeFields fields = '"' :: s := by
  cases fields with
  | nil => exact absurd rfl hne
  | cons e fields =>
    cases fields with
    | nil => exact ⟨_, rfl⟩
    | cons f fields => exact ⟨_, rfl⟩

/-- The items of an array are read back, if each of them is. -/
theorem readItems_write {items : List Json} (hread : ∀ v ∈ items, ReadsBack v) (hne : items ≠ [])
    {n : Nat} (hn : (writeItems items).length ≤ n) (rest : List Char) :
    readItems (n + 2) (writeItems items ++ ']' :: rest) = some (items, rest) := by
  induction items generalizing n with
  | nil => exact absurd rfl hne
  | cons v items ih =>
    obtain ⟨hv, hitems⟩ := List.forall_mem_cons.1 hread
    cases items with
    | nil =>
      have hvalue := hv n (']' :: rest) hn (endsNumber_cons (by decide) rest)
      rw [writeItems, readItems, hvalue]
      rfl
    | cons w items =>
      rw [writeItems, List.length_append, List.length_cons] at hn
      obtain ⟨m, rfl⟩ : ∃ m, n = m + 1 := ⟨n - 1, by omega⟩
      have hvalue := hv (m + 1) (',' :: (writeItems (w :: items) ++ ']' :: rest)) (by omega)
        (endsNumber_cons (by decide) _)
      have hmore := ih hitems (List.cons_ne_nil w items) (n := m) (by omega)
      rw [writeItems, List.append_assoc, List.cons_append, readItems, hvalue]
      show (readItems (m + 2) (writeItems (w :: items) ++ ']' :: rest)).bind _ = _
      rw [hmore]
      rfl

/-- A field whose value ends an object, or is followed by more fields. -/
theorem readFields_field {v : Json} (hv : ReadsBack v) (k : String) {n : Nat}
    (hn : v.write.length ≤ n) (rest : List Char) :
    readFields (n + 2) (quoteChars k.toList ++ ':' :: (v.write ++ '}' :: rest)) =
        some ([(some k, v)], rest) ∧
      readFields (n + 2) (quoteChars k.toList ++ ':' :: (v.write ++ ',' :: rest)) =
        (readFields (n + 1) rest).map fun read => ((some k, v) :: read.1, read.2) := by
  constructor
  · obtain ⟨parts, hkey, hjoin⟩ := readParts_escaped k.toList (':' :: (v.write ++ '}' :: rest))
    have hvalue := hv n ('}' :: rest) hn (endsNumber_cons (by decide) rest)
    rw [quoteChars_append]
    show (readParts (_ ++ '"' :: ':' :: (v.write ++ '}' :: rest))).bind _ = _
    rw [hkey, Option.bind_some]
    show (readValue (n + 1) (v.write ++ '}' :: rest)).bind _ = _
    rw [hvalue, Option.bind_some, hjoin, Option.map_some, String.ofList_toList]
    rfl
  · obtain ⟨parts, hkey, hjoin⟩ := readParts_escaped k.toList (':' :: (v.write ++ ',' :: rest))
    have hvalue := hv n (',' :: rest) hn (endsNumber_cons (by decide) rest)
    rw [quoteChars_append]
    show (readParts (_ ++ '"' :: ':' :: (v.write ++ ',' :: rest))).bind _ = _
    rw [hkey, Option.bind_some]
    show (readValue (n + 1) (v.write ++ ',' :: rest)).bind _ = _
    rw [hvalue, Option.bind_some, hjoin, Option.map_some, String.ofList_toList]
    show (readFields (n + 1) rest).bind _ = _
    cases readFields (n + 1) rest <;> rfl

/-- The fields of an object are read back, if each value is: their names are texts. -/
theorem readFields_write {fields : List (String × Json)} (hread : ∀ e ∈ fields, ReadsBack e.2)
    (hne : fields ≠ []) {n : Nat} (hn : (writeFields fields).length ≤ n) (rest : List Char) :
    readFields (n + 2) (writeFields fields ++ '}' :: rest) =
      some (fields.map fun e => (some e.1, e.2), rest) := by
  induction fields generalizing n with
  | nil => exact absurd rfl hne
  | cons e fields ih =>
    obtain ⟨k, v⟩ := e
    obtain ⟨hv, hfields⟩ := List.forall_mem_cons.1 hread
    replace hv : ReadsBack v := hv
    cases fields with
    | nil =>
      rw [writeFields, List.length_append, List.length_cons] at hn
      rw [writeFields, List.append_assoc, List.cons_append]
      exact (readFields_field hv k (by omega) rest).1
    | cons f fields =>
      rw [writeFields, List.length_append, List.length_append, List.length_cons,
        List.length_cons] at hn
      obtain ⟨m, rfl⟩ : ∃ m, n = m + 1 := ⟨n - 1, by omega⟩
      have hmore := ih hfields (List.cons_ne_nil f fields) (n := m) (by omega)
      rw [writeFields, List.append_assoc, List.append_assoc, List.cons_append, List.cons_append,
        (readFields_field hv k (by omega) _).2, hmore]
      rfl

/-- A list is read back item by item. -/
theorem mapM_map_eq_some {α β : Type} {f : α → β} {g : β → Option α} (h : ∀ x, g (f x) = some x)
    (xs : List α) : (xs.map f).mapM g = some xs := by
  have hcomp : g ∘ f = fun x => pure (id x) := funext h
  rw [List.mapM_map, hcomp, List.mapM_pure, List.map_id]
  rfl

theorem objectOf_names (fields : List (String × Json)) :
    objectOf (fields.map fun e => (some e.1, e.2)) = .object fields := by
  have hnames (g : Option String × Json → Option (String × Json))
      (hg : ∀ e, g (some e.1, e.2) = some e) :
      (fields.map fun e => (some e.1, e.2)).mapM g = some fields := mapM_map_eq_some hg fields
  rw [objectOf, hnames _ fun _ => rfl]

/-- What does not begin with its closing bracket is an array of items. -/
theorem readValue_bracket {c : Char} (hspace : isSpace c = false) (hc : c ≠ ']') (n : Nat)
    (s : List Char) :
    readValue (n + 1) ('[' :: c :: s) =
      (readItems n (c :: s)).map fun read => (.array read.1, read.2) := by
  rw [readValue, skipSpaces_cons (by decide)]
  simp only [skipSpaces_cons hspace]
  split
  · rename_i heq
    exact absurd (List.cons.inj heq).1 hc
  · rfl

theorem readsBack_array {items : List Json} (hitems : ∀ v ∈ items, IsWhole v)
    (hread : ∀ v ∈ items, ReadsBack v) : ReadsBack (.array items) := by
  intro n rest hn _
  rw [write, List.cons_append, List.cons_append, List.append_assoc]
  by_cases hnil : items = []
  · rw [hnil]
    rfl
  · rw [write, List.cons_append, List.length_cons, List.length_append, List.length_singleton] at hn
    obtain ⟨m, rfl⟩ : ∃ m, n = m + 2 := ⟨n - 2, by omega⟩
    have hback := readItems_write hread hnil (n := m) (by omega) rest
    obtain ⟨c, s, hs, hspace, hc⟩ := exists_cons_writeItems hitems hnil
    rw [hs, List.cons_append] at hback
    rw [hs, List.cons_append, List.singleton_append, readValue_bracket hspace hc, hback]
    rfl

theorem readsBack_object {fields : List (String × Json)} (hread : ∀ e ∈ fields, ReadsBack e.2) :
    ReadsBack (.object fields) := by
  intro n rest hn _
  rw [write, List.cons_append, List.cons_append, List.append_assoc]
  by_cases hnil : fields = []
  · rw [hnil]
    rfl
  · rw [write, List.cons_append, List.length_cons, List.length_append, List.length_singleton] at hn
    obtain ⟨m, rfl⟩ : ∃ m, n = m + 2 := ⟨n - 2, by omega⟩
    have hback := readFields_write hread hnil (n := m) (by omega) rest
    obtain ⟨s, hs⟩ := exists_cons_writeFields hnil
    rw [hs, List.cons_append] at hback
    rw [hs, List.cons_append, List.singleton_append]
    show (readFields (m + 2) ('"' :: (s ++ '}' :: rest))).map _ = _
    rw [hback, Option.map_some]
    dsimp only
    rw [objectOf_names]

theorem IsWhole.readsBack {v : Json} (h : IsWhole v) : ReadsBack v := by
  induction h with
  | null => exact fun n rest _ _ => rfl
  | boolean b =>
    cases b with
    | false => exact fun n rest _ _ => rfl
    | true => exact fun n rest _ _ => rfl
  | integer k => exact readsBack_integer k
  | string s => exact readsBack_string s
  | array hitems ih => exact readsBack_array hitems ih
  | object _ ih => exact readsBack_object ih

/-- The written form of a value without decimal fractions is read as that value. -/
theorem read_write {v : Json} (h : IsWhole v) : read v.write = some v := by
  have hread := h.readsBack v.write.length [] (Nat.le_refl _) fun c hc => nomatch hc
  rw [List.append_nil] at hread
  rw [read, hread]
  rfl

end Waymark.Json
