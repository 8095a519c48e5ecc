import Waymark.Script.Imports
/-!
# Type-only imports

A statement that imports or re-exports types only has no effect when the module
runs, and is taken out before the module's imports are looked at.  It begins a line
with `import type` or `export type` and runs through its quoted specifier, a
semicolon and the end of the line.

## Main results

* `append_of_typeStatement?` — what is taken out and what is left are the text.
-/

namespace Waymark.Script

/-- A quoted specifier at the start of a text: the quote and the text, and what follows. -/
def quotedText? (s : List Char) : Option (List Char × List Char) :=
  (quoted? [] s).map fun (m, rest) => (m.text, rest)

/-- The word `from` and the quoted specifier after it, at the start of a text. -/
def fromClause? (s : List Char) : Option (List Char × List Char) :=
  match List.isPrefixOf? "from".toList s with
  | none => none
  | some rest =>
    (quotedText? (rest.dropWhile Text.isBlank)).map fun (quoted, after) =>
      ("from".toList ++ rest.takeWhile Text.isBlank ++ quoted, after)

/-- The text through the first `from` clause that begins a word, with no semicolon before it. -/
def throughFrom? (prev : Option Char) (s : List Char) : Option (List Char × List Char) :=
  match if Text.isWordAt prev then none else fromClause? s with
  | some found => some found
  | none =>
    match s with
    | [] => none
    | c :: rest =>
      if c = ';' then none
      else (throughFrom? (some c) rest).map fun (taken, after) => (c :: taken, after)

/-- Whether a character is a blank within a line. -/
def isInlineBlank (c : Char) : Bool := c = ' ' || c = '\t'

/-- One given character at the start of a text, if it stands there. -/
def optional (c : Char) (s : List Char) : List Char × List Char :=
  match s with
  | d :: rest => if d = c then ([c], rest) else ([], d :: rest)
  | [] => ([], [])

theorem append_optional (c : Char) (s : List Char) :
    (optional c s).1 ++ (optional c s).2 = s := by
  unfold optional
  split
  · split
    · rename_i h
      simp [h]
    · rfl
  · rfl

/-- What ends a statement: blanks, a semicolon, blanks in its line and the end of the line. -/
def statementEnd (s : List Char) : List Char × List Char :=
  let semicolon := optional ';' (s.dropWhile Text.isBlank)
  let cr := optional '\r' (semicolon.2.dropWhile isInlineBlank)
  let lf := optional '\n' cr.2
  (s.takeWhile Text.isBlank ++ semicolon.1 ++ semicolon.2.takeWhile isInlineBlank ++ cr.1 ++ lf.1,
    lf.2)

theorem append_statementEnd (s : List Char) : (statementEnd s).1 ++ (statementEnd s).2 = s := by
  simp only [statementEnd, List.append_assoc, append_optional,
    List.takeWhile_append_dropWhile]

/-- The word `import` or `export`, blanks, `type` and blanks at the start of a text. -/
def typeKeywords? (s : List Char) : Option (List Char × List Char) := do
  let (word, rest) ← [importWord, exportWord].findSome? fun word =>
    (List.isPrefixOf? word s).map (word, ·)
  let after ← List.isPrefixOf? "type".toList (rest.dropWhile Text.isBlank)
  if rest.takeWhile Text.isBlank ≠ [] ∧ after.takeWhile Text.isBlank ≠ [] then
    some (word ++ rest.takeWhile Text.isBlank ++ "type".toList ++ after.takeWhile Text.isBlank,
      after.dropWhile Text.isBlank)
  else none

/-- The type-only statement at the start of a line: what is taken out and what is left. -/
def typeStatement? (s : List Char) : Option (List Char × List Char) := do
  let (keywords, rest) ← typeKeywords? (s.dropWhile Text.isBlank)
  let (clause, rest) ← throughFrom? keywords.getLast? rest
  let (ending, rest) := statementEnd rest
  some (s.takeWhile Text.isBlank ++ keywords ++ clause ++ ending, rest)

/-- What a clause takes and what it leaves make up the text. -/
theorem append_of_fromClause? {s taken after : List Char}
    (h : fromClause? s = some (taken, after)) : s = taken ++ after := by
  unfold fromClause? at h
  split at h
  · simp at h
  · rename_i rest hp
    simp only [quotedText?, Option.map_map, Option.map_eq_some_iff, Function.comp] at h
    obtain ⟨⟨m, r⟩, hq, heq⟩ := h
    simp only [Prod.mk.injEq] at heq
    obtain ⟨rfl, rfl⟩ := heq
    have := text_quoted? hq
    simp only [List.nil_append] at this
    rw [Text.eq_append_of_isPrefixOf? hp, List.append_assoc, List.append_assoc, ← this,
      List.takeWhile_append_dropWhile]

/-- The same of what stands before the clause. -/
theorem append_of_throughFrom? {prev : Option Char} {s taken after : List Char}
    (h : throughFrom? prev s = some (taken, after)) : s = taken ++ after := by
  fun_induction throughFrom? prev s generalizing taken after with
  | case1 prev s found hf =>
    split at hf
    · simp at hf
    · exact append_of_fromClause? (hf.trans h)
  | case2 => simp at h
  | case3 => simp at h
  | case4 prev c rest hf hc ih =>
    simp only [Option.map_eq_some_iff] at h
    obtain ⟨⟨t, a⟩, ht, heq⟩ := h
    simp only [Prod.mk.injEq] at heq
    obtain ⟨rfl, rfl⟩ := heq
    simp [ih ht]

/-- The same of the keywords, which take something. -/
theorem append_of_typeKeywords? {s taken after : List Char}
    (h : typeKeywords? s = some (taken, after)) : s = taken ++ after ∧ taken ≠ [] := by
  simp only [typeKeywords?, bind, Option.bind_eq_some_iff] at h
  obtain ⟨⟨word, rest⟩, hw, r, hr, h⟩ := h
  obtain ⟨w, -, hw⟩ := List.exists_of_findSome?_eq_some hw
  simp only [Option.map_eq_some_iff, Prod.mk.injEq] at hw
  obtain ⟨_, hp, rfl, rfl⟩ := hw
  split at h
  · simp only [Option.some.injEq, Prod.mk.injEq] at h
    obtain ⟨rfl, rfl⟩ := h
    refine ⟨?_, by simp⟩
    simp only [List.append_assoc, List.takeWhile_append_dropWhile]
    rw [← Text.eq_append_of_isPrefixOf? hr, List.takeWhile_append_dropWhile,
      Text.eq_append_of_isPrefixOf? hp]
  · simp at h

/-- The same of a whole statement. -/
theorem append_of_typeStatement? {s taken after : List Char}
    (h : typeStatement? s = some (taken, after)) : s = taken ++ after ∧ taken ≠ [] := by
  simp only [typeStatement?, bind, Option.bind_eq_some_iff] at h
  obtain ⟨⟨keywords, r₁⟩, hk, ⟨clause, r₂⟩, hc, h⟩ := h
  simp only [Option.some.injEq, Prod.mk.injEq] at h
  obtain ⟨rfl, rfl⟩ := h
  obtain ⟨hk, hne⟩ := append_of_typeKeywords? hk
  refine ⟨?_, by simp [hne]⟩
  simp only [List.append_assoc, append_statementEnd]
  rw [← append_of_throughFrom? hc, ← hk, List.takeWhile_append_dropWhile]

/-- The type-only statement at the start of a text, if a line starts there. -/
def typeStatementAfter? (prev : Option Char) (s : List Char) : Option (List Char × List Char) :=
  if prev.all (· = '\n') then typeStatement? s else none

/-- The same of one behind a given character. -/
theorem append_of_typeStatementAfter? {prev : Option Char} {s taken after : List Char}
    (h : typeStatementAfter? prev s = some (taken, after)) : s = taken ++ after ∧ taken ≠ [] := by
  unfold typeStatementAfter? at h
  split at h
  · exact append_of_typeStatement? h
  · simp at h

/-- Takes the type-only statements out of a text that follows the character `prev`. -/
def dropTypesFrom (prev : Option Char) (s : List Char) : List Char :=
  match s with
  | [] => []
  | c :: rest =>
    match _h : typeStatementAfter? prev (c :: rest) with
    | some (taken, after) => dropTypesFrom taken.getLast? after
    | none => c :: dropTypesFrom (some c) rest
termination_by s.length
decreasing_by
  · obtain ⟨hs, hne⟩ := append_of_typeStatementAfter? _h
    have := List.length_pos_iff.2 hne
    rw [hs, List.length_append]
    omega
  · simp

/-- The module without its type-only statements. -/
def dropTypeImports (source : List Char) : List Char := dropTypesFrom none source

end Waymark.Script
