import Waymark.Text.Blank
import Waymark.Text.Word
/-!
# Imports in module text

Imports are found by their shape alone, without parsing the module: text in a
string or a comment that looks like an import is one.  Three shapes count, tried in
this order at the start of a word:

* `import` or `export`, anything without quotes, semicolons and parentheses, and
  `from` before the quoted specifier;
* `import(` before the quoted specifier;
* `import` before the quoted specifier.

## Main results

* `text_mentionAt?` — an import found is exactly the text it was found in.
* `text_scan` — the pieces of a module, put together again, are the module.
-/

namespace Waymark.Script

/-! ## Mentions -/

/-- An import as it stands in the text: everything before the opening quote, the specifier, and
the quotes around it. -/
structure Mention where
  lead : List Char
  openQuote : Char
  specifier : List Char
  closeQuote : Char
  deriving DecidableEq, Repr

namespace Mention

/-- The text of an import. -/
def text (m : Mention) : List Char := m.lead ++ m.openQuote :: m.specifier ++ [m.closeQuote]

/-- Whether the import is a call and so evaluated when it is reached. -/
def isDynamic (m : Mention) : Bool := ['('].isSuffixOf (Text.trimEnd m.lead)

/-- The import with another specifier.  Its opening quote is used on both sides. -/
def withSpecifier (m : Mention) (specifier : List Char) : List Char :=
  m.lead ++ m.openQuote :: specifier ++ [m.openQuote]

end Mention

/-- Whether a character is a quote. -/
def isQuote (c : Char) : Bool := c = '"' || c = '\''

/-- Whether a character may stand in a specifier. -/
def inSpecifier (c : Char) : Bool := !(isQuote c || c = '\r' || c = '\n')

/-- Whether a character may stand between a keyword and `from`. -/
def inClause (c : Char) : Bool := !(isQuote c || c = ';' || c = '(' || c = ')')

/-- The quoted specifier at the start of a text that follows `lead`. -/
def quoted? (lead s : List Char) : Option (Mention × List Char) :=
  match s with
  | [] => none
  | q :: s =>
    match s.dropWhile inSpecifier with
    | [] => none
    | close :: rest =>
      if isQuote q && isQuote close && !(s.takeWhile inSpecifier).isEmpty then
        some (⟨lead, q, s.takeWhile inSpecifier, close⟩, rest)
      else none

theorem text_quoted? {lead s rest : List Char} {m : Mention}
    (h : quoted? lead s = some (m, rest)) : lead ++ s = m.text ++ rest := by
  unfold quoted? at h
  split at h
  · simp at h
  · rename_i q s
    split at h
    · simp at h
    · rename_i close after hafter
      split at h
      · simp only [Option.some.injEq, Prod.mk.injEq] at h
        obtain ⟨rfl, rfl⟩ := h
        simp only [Mention.text, List.append_assoc, List.cons_append, List.nil_append]
        rw [← hafter, List.takeWhile_append_dropWhile]
      · simp at h

/-! ## Shapes -/

/-- Whether a clause ends in the word `from`, blanks after it allowed. -/
def endsInFrom (clause : List Char) : Bool :=
  match Text.dropSuffix? "from".toList (Text.trimEnd clause) with
  | some front => !Text.isWordAt front.getLast?
  | none => false

/-- The import at the start of a text that begins with `keyword` and has a `from` clause. -/
def clauseImport? (keyword s : List Char) : Option (Mention × List Char) :=
  match List.isPrefixOf? keyword s with
  | none => none
  | some rest =>
    if !Text.isWordAt rest.head? && (rest.dropWhile inClause).head?.any isQuote &&
        endsInFrom (rest.takeWhile inClause) then
      quoted? (keyword ++ rest.takeWhile inClause) (rest.dropWhile inClause)
    else none

/-- The word that begins an import. -/
def importWord : List Char := "import".toList

/-- The word that begins a re-export. -/
def exportWord : List Char := "export".toList

/-- The import at the start of a text that is a call. -/
def callImport? (s : List Char) : Option (Mention × List Char) :=
  match List.isPrefixOf? importWord s with
  | none => none
  | some rest =>
    match rest.dropWhile Text.isBlank with
    | '(' :: inner =>
      quoted? (importWord ++ rest.takeWhile Text.isBlank ++ '(' :: inner.takeWhile Text.isBlank)
        (inner.dropWhile Text.isBlank)
    | _ => none

/-- The import at the start of a text that names no bindings. -/
def bareImport? (s : List Char) : Option (Mention × List Char) :=
  match List.isPrefixOf? importWord s with
  | none => none
  | some rest =>
    quoted? (importWord ++ rest.takeWhile Text.isBlank) (rest.dropWhile Text.isBlank)

/-- The import at the start of a text. -/
def mentionAt? (s : List Char) : Option (Mention × List Char) :=
  (clauseImport? importWord s).or <| (clauseImport? exportWord s).or <|
    (callImport? s).or (bareImport? s)

/-- A mention and what is left behind it make up the text. -/
theorem text_clauseImport? {keyword s rest : List Char} {m : Mention}
    (h : clauseImport? keyword s = some (m, rest)) : s = m.text ++ rest := by
  unfold clauseImport? at h
  split at h
  · simp at h
  · rename_i after hp
    split at h
    · rw [Text.eq_append_of_isPrefixOf? hp, ← text_quoted? h, List.append_assoc,
        List.takeWhile_append_dropWhile]
    · simp at h

/-- The same of a dynamic import. -/
theorem text_callImport? {s rest : List Char} {m : Mention}
    (h : callImport? s = some (m, rest)) : s = m.text ++ rest := by
  unfold callImport? at h
  split at h
  · simp at h
  · rename_i after hp
    split at h
    · rename_i inner hinner
      rw [Text.eq_append_of_isPrefixOf? hp, ← text_quoted? h]
      simp only [List.append_assoc, List.cons_append, List.takeWhile_append_dropWhile]
      rw [← hinner, List.takeWhile_append_dropWhile]
    · simp at h

/-- The same of an import without clause. -/
theorem text_bareImport? {s rest : List Char} {m : Mention}
    (h : bareImport? s = some (m, rest)) : s = m.text ++ rest := by
  unfold bareImport? at h
  split at h
  · simp at h
  · rename_i after hp
    rw [Text.eq_append_of_isPrefixOf? hp, ← text_quoted? h, List.append_assoc,
      List.takeWhile_append_dropWhile]

/-- The same of a mention of any form. -/
theorem text_mentionAt? {s rest : List Char} {m : Mention}
    (h : mentionAt? s = some (m, rest)) : s = m.text ++ rest := by
  simp only [mentionAt?, Option.or_eq_some_iff] at h
  rcases h with h | ⟨_, h | ⟨_, h | ⟨_, h⟩⟩⟩
  · exact text_clauseImport? h
  · exact text_clauseImport? h
  · exact text_callImport? h
  · exact text_bareImport? h

/-! ## Scanning -/

/-- A piece of a module: a character, or an import. -/
inductive Piece where
  | char (c : Char)
  | mention (m : Mention)
  deriving DecidableEq, Repr

namespace Piece

/-- The text of a piece. -/
def text : Piece → List Char
  | char c => [c]
  | mention m => m.text

/-- The import that a piece is, if it is one. -/
def mention? : Piece → Option Mention
  | char _ => none
  | mention m => some m

end Piece

/-- The import at the start of a text, which must be the start of a word. -/
def mentionAfter? (prev : Option Char) (s : List Char) : Option (Mention × List Char) :=
  if Text.isWordAt prev then none else mentionAt? s

/-- The same behind a given character. -/
theorem text_mentionAfter? {prev : Option Char} {s rest : List Char} {m : Mention}
    (h : mentionAfter? prev s = some (m, rest)) : s = m.text ++ rest := by
  unfold mentionAfter? at h
  split at h
  · simp at h
  · exact text_mentionAt? h

/-- A mention takes characters, so that the scan ends. -/
theorem length_text_pos (m : Mention) : 0 < m.text.length := by
  simp only [Mention.text, List.length_append, List.length_cons]
  omega

/-- The pieces of a text that follows the character `prev`. -/
def scanFrom (prev : Option Char) (s : List Char) : List Piece :=
  match s with
  | [] => []
  | c :: rest =>
    match _h : mentionAfter? prev (c :: rest) with
    | some (m, after) => .mention m :: scanFrom (some m.closeQuote) after
    | none => .char c :: scanFrom (some c) rest
termination_by s.length
decreasing_by
  · have hlen := congrArg List.length (text_mentionAfter? _h)
    have := length_text_pos m
    simp only [List.length_append] at hlen
    omega
  · simp

/-- The pieces of a module. -/
def scan (source : List Char) : List Piece := scanFrom none source

theorem text_scanFrom (prev : Option Char) (s : List Char) :
    (scanFrom prev s).flatMap Piece.text = s := by
  fun_induction scanFrom prev s with
  | case1 => simp
  | case2 prev c rest m after h ih =>
    simp [Piece.text, ih, ← text_mentionAfter? h]
  | case3 prev c rest h ih => simp [Piece.text, ih]

/-- The pieces of a scan make up the source. -/
theorem text_scan (source : List Char) : (scan source).flatMap Piece.text = source :=
  text_scanFrom none source

/-- The imports of a module in order. -/
def mentions (source : List Char) : List Mention := (scan source).filterMap Piece.mention?

/-- The module with every import replaced. -/
def replaceMentions (f : Mention → List Char) (source : List Char) : List Char :=
  (scan source).flatMap fun
    | .char c => [c]
    | .mention m => f m

/-- A source whose mentions are replaced with themselves is unchanged. -/
theorem replaceMentions_text (source : List Char) :
    replaceMentions Mention.text source = source := by
  have h : (fun p : Piece => match p with | .char c => [c] | .mention m => m.text) =
      Piece.text := by
    funext p
    cases p <;> rfl
  rw [replaceMentions, h, text_scan]

end Waymark.Script
