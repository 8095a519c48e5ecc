import Mathlib.Data.List.TakeWhile
import Waymark.Proofs.Text.Pieces
import Waymark.Script.Imports
/-!
# Imports, line by line

No import reaches over the end of a line that ends in a semicolon: what stands between
the words of an import holds no semicolon, and a specifier holds no line feed.  So the
imports of a text of such lines are those of its lines, one line after the other.

## Main results

* `mentionAt?_append` — a line feed behind a line ends what an import in it can be.
* `scanFrom_append` — a line is scanned as if nothing came behind it.
* `mentions_lines` — the imports of lines are the imports of each of them.
* `inSpecifier_of_mem_mentions` — no specifier that is found holds a quote or a line end.
-/

namespace Waymark.Script

/-- A text that ends in a semicolon. -/
def EndsLine (s : List Char) : Prop := ∃ front, s = front ++ [';']

theorem endsLine_of_getLast? {s : List Char} (h : s.getLast? = some ';') : EndsLine s :=
  List.getLast?_eq_some_iff.1 h

theorem EndsLine.of_append {a b : List Char} (h : EndsLine (a ++ b)) (hb : b ≠ []) :
    EndsLine b := by
  obtain ⟨front, hfront⟩ := h
  obtain ⟨rest, last, rfl⟩ := List.eq_nil_or_concat b |>.resolve_left hb
  rw [List.concat_eq_append, ← List.append_assoc] at hfront
  obtain ⟨-, hlast⟩ := List.append_inj' hfront rfl
  exact ⟨rest, by rw [List.concat_eq_append, hlast]⟩

/-- A text that is cut before its last semicolon is cut alike whatever follows it. -/
theorem EndsLine.cut {s : List Char} (h : EndsLine s) {p : Char → Bool} (hp : p ';' = false)
    (t : List Char) : (s ++ t).takeWhile p = s.takeWhile p ∧
      (s ++ t).dropWhile p = s.dropWhile p ++ t ∧ EndsLine (s.dropWhile p) := by
  obtain ⟨front, rfl⟩ := h
  have hdrop (t : List Char) : (front ++ ';' :: t).dropWhile p =
      front.dropWhile p ++ ';' :: t := by
    rw [List.dropWhile_append]
    split
    · rename_i hnil
      rw [List.isEmpty_iff.1 hnil, List.dropWhile_cons_of_neg (by simp [hp])]
      rfl
    · rfl
  have htake (t : List Char) : (front ++ ';' :: t).takeWhile p = front.takeWhile p := by
    rw [List.takeWhile_append]
    split
    · rename_i hall
      rw [List.takeWhile_cons_of_neg (by simp [hp]), List.append_nil]
      exact ((List.takeWhile_prefix p).eq_of_length hall).symm
    · rfl
  rw [List.append_assoc]
  refine ⟨(htake t).trans (htake []).symm, ?_, front.dropWhile p, hdrop []⟩
  rw [List.singleton_append, hdrop t, hdrop [], List.append_assoc]
  rfl

/-! ## One import -/

section
variable {s : List Char} (t : List Char)

/-- What is found in a line, with what follows it in the text. -/
def before (t : List Char) (found : Mention × List Char) : Mention × List Char :=
  (found.1, found.2 ++ '\n' :: t)

theorem quoted?_append (lead s : List Char) :
    quoted? lead (s ++ '\n' :: t) = (quoted? lead s).map (before t) := by
  cases s with
  | nil =>
    have hquote : isQuote '\n' = false := by decide
    unfold quoted?
    dsimp only [List.nil_append]
    split
    · rfl
    · rw [hquote]
      rfl
  | cons q s =>
    unfold quoted?
    dsimp only [List.cons_append]
    have hline : ('\n' :: t).dropWhile inSpecifier = '\n' :: t := by
      rw [List.dropWhile_cons_of_neg (by decide)]
    have htake : ('\n' :: t).takeWhile inSpecifier = [] := by
      rw [List.takeWhile_cons_of_neg (by decide)]
    rw [List.dropWhile_append, List.takeWhile_append, hline, htake]
    cases hdrop : s.dropWhile inSpecifier with
    | nil =>
      have hquote : isQuote '\n' = false := by decide
      simp [hquote]
    | cons close rest =>
      have hshort : (s.takeWhile inSpecifier).length ≠ s.length := by
        have hlength := congrArg List.length (List.takeWhile_append_dropWhile (p := inSpecifier)
          (l := s))
        rw [List.length_append, hdrop, List.length_cons] at hlength
        omega
      rw [if_neg hshort, List.isEmpty_cons, if_neg Bool.false_ne_true]
      show (if _ then _ else none) = Option.map (before t) (if _ then _ else none)
      split
      · rfl
      · rfl

/-- A word without line feed stands in front of a line if it does in the text. -/
theorem isPrefixOf?_line {word : List Char} (hword : '\n' ∉ word) (s : List Char) :
    List.isPrefixOf? word (s ++ '\n' :: t) =
      (List.isPrefixOf? word s).map (· ++ '\n' :: t) := by
  by_cases hfront : word <+: s
  · obtain ⟨rest, rfl⟩ := hfront
    rw [List.append_assoc, Text.isPrefixOf?_append, Text.isPrefixOf?_append]
    rfl
  · rw [Text.isPrefixOf?_eq_none hfront,
      Text.isPrefixOf?_eq_none (fun h => hfront ((Text.isPrefix_append_iff hword).1 h))]
    rfl

/-- What stands in a line behind a word without semicolon ends the line. -/
theorem EndsLine.of_isPrefixOf? {word rest : List Char} (hword : ';' ∉ word) (h : EndsLine s)
    (hrest : List.isPrefixOf? word s = some rest) : EndsLine rest := by
  obtain rfl := Text.eq_append_of_isPrefixOf? hrest
  apply h.of_append
  rintro rfl
  obtain ⟨front, hfront⟩ := h
  rw [List.append_nil] at hfront
  rw [hfront] at hword
  simp at hword

theorem clauseImport?_append {word : List Char} (hline : '\n' ∉ word) (hword : ';' ∉ word)
    (h : EndsLine s) :
    clauseImport? word (s ++ '\n' :: t) = (clauseImport? word s).map (before t) := by
  unfold clauseImport?
  rw [isPrefixOf?_line t hline]
  cases hrest : List.isPrefixOf? word s with
  | none => rfl
  | some rest =>
    obtain ⟨htake, hdrop, front, hends⟩ :=
      (h.of_isPrefixOf? hword hrest).cut (show inClause ';' = false by decide) ('\n' :: t)
    have hhead : (rest ++ '\n' :: t).head? = rest.head? := by
      obtain ⟨front, rfl⟩ := h.of_isPrefixOf? hword hrest
      cases front with
      | nil => rfl
      | cons c front => rfl
    have hnext : (rest.dropWhile inClause ++ '\n' :: t).head? =
        (rest.dropWhile inClause).head? := by
      rw [hends]
      cases front with
      | nil => rfl
      | cons c front => rfl
    dsimp only [Option.map_some]
    rw [htake, hdrop, hhead, hnext, quoted?_append]
    split
    · rfl
    · rfl

theorem callImport?_append (h : EndsLine s) :
    callImport? (s ++ '\n' :: t) = (callImport? s).map (before t) := by
  unfold callImport?
  rw [isPrefixOf?_line t (show '\n' ∉ importWord by decide)]
  cases hrest : List.isPrefixOf? importWord s with
  | none => rfl
  | some rest =>
    obtain ⟨htake, hdrop, hends⟩ := (h.of_isPrefixOf? (show ';' ∉ importWord by decide) hrest).cut
      (show Text.isBlank ';' = false by decide) ('\n' :: t)
    dsimp only [Option.map_some]
    rw [htake, hdrop]
    cases hinner : rest.dropWhile Text.isBlank with
    | nil =>
      obtain ⟨front, hfront⟩ := hends
      rw [hinner] at hfront
      exact absurd hfront.symm (List.append_ne_nil_of_right_ne_nil front (List.cons_ne_nil _ _))
    | cons c inner =>
      rw [hinner] at hends
      by_cases hopen : c = '('
      · subst hopen
        have hne : inner ≠ [] := by
          rintro rfl
          obtain ⟨front, hfront⟩ := hends
          have hlast := congrArg List.getLast? hfront
          rw [List.getLast?_append] at hlast
          cases hlast
        obtain ⟨htake', hdrop', -⟩ := (hends.of_append (a := ['(']) hne).cut
          (show Text.isBlank ';' = false by decide) ('\n' :: t)
        show quoted? (_ ++ '(' :: (inner ++ '\n' :: t).takeWhile Text.isBlank)
          ((inner ++ '\n' :: t).dropWhile Text.isBlank) = _
        rw [htake', hdrop', quoted?_append]
        rfl
      · simp [hopen]

theorem bareImport?_append (h : EndsLine s) :
    bareImport? (s ++ '\n' :: t) = (bareImport? s).map (before t) := by
  unfold bareImport?
  rw [isPrefixOf?_line t (show '\n' ∉ importWord by decide)]
  cases hrest : List.isPrefixOf? importWord s with
  | none => rfl
  | some rest =>
    obtain ⟨htake, hdrop, -⟩ := (h.of_isPrefixOf? (show ';' ∉ importWord by decide) hrest).cut
      (show Text.isBlank ';' = false by decide) ('\n' :: t)
    dsimp only [Option.map_some]
    rw [htake, hdrop, quoted?_append]

/-- No import in a line reaches over its end. -/
theorem mentionAt?_append (h : EndsLine s) :
    mentionAt? (s ++ '\n' :: t) = (mentionAt? s).map (before t) := by
  unfold mentionAt?
  rw [clauseImport?_append t (by decide) (by decide) h,
    clauseImport?_append t (by decide) (by decide) h, callImport?_append t h,
    bareImport?_append t h, Option.map_or, Option.map_or, Option.map_or]

theorem mentionAfter?_newline (prev : Option Char) : mentionAfter? prev ('\n' :: t) = none := by
  have hnone : mentionAt? ('\n' :: t) = none := rfl
  unfold mentionAfter?
  rw [hnone, ite_self]

end

/-! ## Lines -/

/-- A line is scanned as if nothing came behind it, and what comes behind it from its start. -/
theorem scanFrom_append (prev : Option Char) {s : List Char} (h : s = [] ∨ EndsLine s)
    (t : List Char) : scanFrom prev (s ++ '\n' :: t) =
      scanFrom prev s ++ .char '\n' :: scanFrom (some '\n') t := by
  fun_induction scanFrom prev s with
  | case1 prev =>
    rw [List.nil_append, List.nil_append, scanFrom]
    split
    · rename_i m after hmention
      rw [mentionAfter?_newline] at hmention
      cases hmention
    · rfl
  | case2 prev c rest m after hmention ih =>
    have hends := h.resolve_left (List.cons_ne_nil c rest)
    have hafter : after = [] ∨ EndsLine after := by
      by_cases hnil : after = []
      · exact Or.inl hnil
      · rw [text_mentionAfter? hmention] at hends
        exact Or.inr (hends.of_append hnil)
    have hmention' : mentionAfter? prev (c :: (rest ++ '\n' :: t)) =
        some (m, after ++ '\n' :: t) := by
      unfold mentionAfter? at hmention ⊢
      split at hmention
      · cases hmention
      · rename_i hword
        rw [if_neg hword, ← List.cons_append, mentionAt?_append t hends, hmention]
        rfl
    rw [List.cons_append, scanFrom]
    split
    · rename_i heq
      obtain ⟨rfl, rfl⟩ := Prod.mk.inj (Option.some.inj (hmention'.symm.trans heq))
      rw [ih hafter]
      rfl
    · rename_i heq
      rw [hmention'] at heq
      cases heq
  | case3 prev c rest hmention ih =>
    have hends := h.resolve_left (List.cons_ne_nil c rest)
    have hrest : rest = [] ∨ EndsLine rest := by
      by_cases hnil : rest = []
      · exact Or.inl hnil
      · exact Or.inr (EndsLine.of_append (a := [c]) hends hnil)
    have hmention' : mentionAfter? prev (c :: (rest ++ '\n' :: t)) = none := by
      unfold mentionAfter? at hmention ⊢
      split at hmention
      · rename_i hword
        rw [if_pos hword]
      · rename_i hword
        rw [if_neg hword, ← List.cons_append, mentionAt?_append t hends, hmention]
        rfl
    rw [List.cons_append, scanFrom]
    split
    · rename_i heq
      rw [hmention'] at heq
      cases heq
    · rw [ih hrest]
      rfl

/-- A new line begins like a text. -/
theorem scanFrom_newline (s : List Char) : scanFrom (some '\n') s = scan s := by
  have hword : Text.isWordAt (some '\n') = Text.isWordAt none := by decide
  unfold scan
  cases s with
  | nil => simp only [scanFrom]
  | cons c s =>
    rw [scanFrom, scanFrom]
    unfold mentionAfter?
    rw [hword]

/-- The imports of lines that end in semicolons are the imports of each of them. -/
theorem mentions_lines {lines : List (List Char)} (h : ∀ line ∈ lines, EndsLine line) :
    mentions (Text.joinPieces '\n' lines) = lines.flatMap mentions := by
  induction lines with
  | nil => simp [Text.joinPieces, mentions, scan, scanFrom]
  | cons line lines ih =>
    have hline := h line (List.mem_cons_self ..)
    have hlines := ih fun other hother => h other (List.mem_cons_of_mem _ hother)
    cases lines with
    | nil =>
      rw [List.flatMap_cons, List.flatMap_nil, List.append_nil]
      rfl
    | cons next lines =>
      rw [List.flatMap_cons, ← hlines, Text.joinPieces, mentions, scan,
        scanFrom_append none (Or.inr hline), scanFrom_newline, List.filterMap_append]
      rfl

/-! ## Specifiers -/

theorem inSpecifier_of_quoted? {lead s rest : List Char} {m : Mention}
    (h : quoted? lead s = some (m, rest)) {c : Char} (hc : c ∈ m.specifier) :
    inSpecifier c = true := by
  unfold quoted? at h
  split at h
  · cases h
  · split at h
    · cases h
    · split at h
      · obtain ⟨rfl, -⟩ := Prod.mk.inj (Option.some.inj h)
        exact List.mem_takeWhile_imp hc
      · cases h

theorem inSpecifier_of_mentionAt? {s rest : List Char} {m : Mention}
    (h : mentionAt? s = some (m, rest)) {c : Char} (hc : c ∈ m.specifier) :
    inSpecifier c = true := by
  have hclause {word : List Char} (h : clauseImport? word s = some (m, rest)) :
      inSpecifier c = true := by
    unfold clauseImport? at h
    split at h
    · cases h
    · split at h
      · exact inSpecifier_of_quoted? h hc
      · cases h
  simp only [mentionAt?, Option.or_eq_some_iff] at h
  rcases h with h | ⟨-, h | ⟨-, h | ⟨-, h⟩⟩⟩
  · exact hclause h
  · exact hclause h
  · unfold callImport? at h
    split at h
    · cases h
    · split at h
      · exact inSpecifier_of_quoted? h hc
      · cases h
  · unfold bareImport? at h
    split at h
    · cases h
    · exact inSpecifier_of_quoted? h hc

/-- No specifier that is found holds a quote or a line end. -/
theorem inSpecifier_of_mem_mentions {s : List Char} {m : Mention} (h : m ∈ mentions s) {c : Char}
    (hc : c ∈ m.specifier) : inSpecifier c = true := by
  have hscan (prev : Option Char) (s : List Char) (h : .mention m ∈ scanFrom prev s) :
      inSpecifier c = true := by
    fun_induction scanFrom prev s with
    | case1 => exact absurd h List.not_mem_nil
    | case2 prev d rest m' after hmention ih =>
      rcases List.mem_cons.1 h with heq | h
      · obtain rfl := Piece.mention.inj heq
        unfold mentionAfter? at hmention
        split at hmention
        · cases hmention
        · exact inSpecifier_of_mentionAt? hmention hc
      · exact ih h
    | case3 prev d rest hmention ih =>
      rcases List.mem_cons.1 h with heq | h
      · cases heq
      · exact ih h
  obtain ⟨piece, hpiece, hmention⟩ := List.mem_filterMap.1 h
  cases piece with
  | char d => cases hmention
  | mention m' =>
    obtain rfl := Option.some.inj hmention
    exact hscan none s hpiece

end Waymark.Script
