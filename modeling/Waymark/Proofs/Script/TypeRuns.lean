import Mathlib.Data.List.TakeWhile
import Waymark.Proofs.Text.Pieces
import Waymark.Script.TypeImports
/-!
# How far a type-only statement runs

What begins as a type-only statement runs through the first `from` clause that no semicolon stands
before, over as many lines as it takes.  A text that holds no `from` clause is either run over or,
with a semicolon in it, stops the run; names before a `from` clause do not change where it ends.

A `from` clause ends in its line, so that no clause begins in a text that holds none and ends
behind the line.

## Main results

* `throughFrom?_append` — a text without `from` clause is run over, or stops the run.
* `throughFrom?_skip` — so is a text without the letter that `from` begins with.
* `throughFrom?_clause` — a run ends behind the specifier of the first `from` clause.
* `throughFrom?_quoted` — a quoted specifier alone holds no `from` clause.
* `dropTypesFrom_line` — a line that is no type-only statement is kept.
-/

namespace Waymark.Script

/-! ## Blanks -/

/-- The code points of all blanks. -/
def blankCodes : List Nat :=
  Text.blankRanges.flatMap fun (low, high) => List.range' low (high + 1 - low)

theorem mem_blankCodes {c : Char} (h : Text.isBlank c = true) : c.toNat ∈ blankCodes := by
  unfold Text.isBlank Text.inRanges at h
  obtain ⟨⟨low, high⟩, hrange, hin⟩ := List.any_eq_true.1 h
  rw [Bool.and_eq_true, decide_eq_true_eq, decide_eq_true_eq] at hin
  refine List.mem_flatMap.2 ⟨(low, high), hrange, ?_⟩
  rw [List.mem_range'_1]
  omega

/-- What holds of all blanks is decided over their code points. -/
theorem forall_blank {p : Char → Bool} (h : blankCodes.all (fun n => p (Char.ofNat n)) = true)
    {c : Char} (hc : Text.isBlank c = true) : p c = true := by
  have hp := List.all_eq_true.1 h c.toNat (mem_blankCodes hc)
  rwa [Char.ofNat_toNat] at hp

theorem isWord_of_isBlank {c : Char} (h : Text.isBlank c = true) : Text.isWord c = false := by
  simpa using forall_blank (p := fun c => !Text.isWord c) (by decide +kernel) h

theorem inClause_of_isBlank {c : Char} (h : Text.isBlank c = true) : inClause c = true :=
  forall_blank (by decide) h

theorem isQuote_of_inClause {c : Char} (h : inClause c = true) : isQuote c = false := by
  unfold inClause at h
  simp only [Bool.not_eq_true', Bool.or_eq_false_iff] at h
  exact h.1.1.1

theorem dropWhile_isBlank_append {s : List Char} (t : List Char)
    (h : ∀ c ∈ s, Text.isBlank c = true) :
    (s ++ t).dropWhile Text.isBlank = t.dropWhile Text.isBlank :=
  List.dropWhile_append_of_pos h

theorem takeWhile_isBlank_append {s : List Char} (t : List Char)
    (h : ∀ c ∈ s, Text.isBlank c = true) :
    (s ++ t).takeWhile Text.isBlank = s ++ t.takeWhile Text.isBlank :=
  List.takeWhile_append_of_pos h

/-- A text that no blank stands in front of. -/
def Begins (s : List Char) : Prop := ∀ c ∈ s.head?, Text.isBlank c = false

theorem Begins.takeWhile {s : List Char} (h : Begins s) : s.takeWhile Text.isBlank = [] := by
  cases s with
  | nil => rfl
  | cons c s => exact List.takeWhile_cons_of_neg (by simp [h c rfl])

theorem Begins.dropWhile {s : List Char} (h : Begins s) : s.dropWhile Text.isBlank = s := by
  cases s with
  | nil => rfl
  | cons c s => exact List.dropWhile_cons_of_neg (by simp [h c rfl])

/-! ## Where no clause begins -/

/-- The word that a `from` clause begins with. -/
def fromWord : List Char := "from".toList

theorem fromClause?_word (s : List Char) : fromClause? (fromWord ++ s) =
    (quotedText? (s.dropWhile Text.isBlank)).map fun (quoted, after) =>
      (fromWord ++ s.takeWhile Text.isBlank ++ quoted, after) := by
  unfold fromClause?
  rw [show "from".toList = fromWord from rfl, Text.isPrefixOf?_append]

theorem fromClause?_of_not_prefix {s : List Char} (h : ¬fromWord <+: s) : fromClause? s = none := by
  unfold fromClause?
  rw [show "from".toList = fromWord from rfl, Text.isPrefixOf?_eq_none h]

theorem fromClause?_of_head {c : Char} (hc : c ≠ 'f') (s : List Char) :
    fromClause? (c :: s) = none := by
  apply fromClause?_of_not_prefix
  rintro ⟨rest, hrest⟩
  exact hc (List.cons.inj hrest).1.symm

theorem quotedText?_eq_none {s : List Char} : quotedText? s = none ↔ quoted? [] s = none :=
  Option.map_eq_none_iff

/-- There is no quoted specifier where there is no quote. -/
theorem quotedText?_of_head {s : List Char} (h : ∀ c ∈ s.head?, isQuote c = false) :
    quotedText? s = none := by
  rw [quotedText?_eq_none]
  cases s with
  | nil => rfl
  | cons q s =>
    unfold quoted?
    dsimp only
    split
    · rfl
    · simp [h q rfl]

/-- The end of a line, or of the text, with no quote behind it. -/
structure AtEnd (t : List Char) : Prop where
  head : ∀ c ∈ t.head?, c = '\r' ∨ c = '\n'
  next : ∀ c ∈ (t.dropWhile Text.isBlank).head?, isQuote c = false

theorem AtEnd.dropWhile_inSpecifier {t : List Char} (h : AtEnd t) :
    t.dropWhile inSpecifier = t ∧ t.takeWhile inSpecifier = [] := by
  cases t with
  | nil => exact ⟨rfl, rfl⟩
  | cons c t =>
    have hc : inSpecifier c = false := by
      rcases h.head c rfl with rfl | rfl
      · decide
      · decide
    exact ⟨List.dropWhile_cons_of_neg (by simp [hc]), List.takeWhile_cons_of_neg (by simp [hc])⟩

theorem AtEnd.isQuote {c : Char} {t : List Char} (h : AtEnd (c :: t)) : isQuote c = false := by
  rcases h.head c rfl with rfl | rfl
  · decide
  · decide

/-- A quoted specifier does not end behind its line. -/
theorem quoted?_atEnd {lead s t : List Char} (ht : AtEnd t) (hne : s ≠ [])
    (h : quoted? lead s = none) : quoted? lead (s ++ t) = none := by
  cases s with
  | nil => exact absurd rfl hne
  | cons q s =>
    obtain ⟨hdrop, htake⟩ := ht.dropWhile_inSpecifier
    unfold quoted? at h ⊢
    dsimp only [List.cons_append] at h ⊢
    rw [List.dropWhile_append, List.takeWhile_append, hdrop, htake]
    cases hend : s.dropWhile inSpecifier with
    | nil =>
      dsimp only [List.isEmpty_nil, if_pos]
      cases t with
      | nil => rfl
      | cons c t => simp [ht.isQuote]
    | cons close rest =>
      have hshort : (s.takeWhile inSpecifier).length ≠ s.length := by
        have hlength := congrArg List.length (List.takeWhile_append_dropWhile (p := inSpecifier)
          (l := s))
        rw [List.length_append, hend, List.length_cons] at hlength
        omega
      rw [hend] at h
      dsimp only [List.isEmpty_cons, List.cons_append] at h ⊢
      rw [if_neg hshort]
      split at h
      · cases h
      · rename_i hnot
        rw [if_neg Bool.false_ne_true]
        dsimp only
        rw [if_neg hnot]

/-- A `from` clause does not end behind its line. -/
theorem fromClause?_atEnd {s t : List Char} (ht : AtEnd t) (h : fromClause? s = none) :
    fromClause? (s ++ t) = none := by
  by_cases hfrom : fromWord <+: s
  · obtain ⟨rest, rfl⟩ := hfrom
    rw [fromClause?_word, Option.map_eq_none_iff] at h
    rw [List.append_assoc, fromClause?_word, Option.map_eq_none_iff, List.dropWhile_append]
    split
    · exact quotedText?_of_head ht.next
    · rename_i hne
      rw [quotedText?_eq_none] at h ⊢
      exact quoted?_atEnd ht (by simpa using hne) h
  · apply fromClause?_of_not_prefix
    cases t with
    | nil => rwa [List.append_nil]
    | cons c t =>
      have hc : c ∉ fromWord := by
        rcases ht.head c rfl with rfl | rfl
        · decide
        · decide
      rwa [Text.isPrefix_append_iff hc]

/-! ## Runs -/

/-- What is found behind a text that was run over. -/
def behind (s : List Char) (found : List Char × List Char) : List Char × List Char :=
  (s ++ found.1, found.2)

/-- A run goes on behind a character that no clause begins with. -/
theorem throughFrom?_cons {prev : Option Char} {c : Char} {s : List Char}
    (h : Text.isWordAt prev = true ∨ fromClause? (c :: s) = none) (hc : c ≠ ';') :
    throughFrom? prev (c :: s) = (throughFrom? (some c) s).map (behind [c]) := by
  have hnone : (if Text.isWordAt prev then none else fromClause? (c :: s)) = none := by
    rcases h with h | h
    · rw [if_pos h]
    · rw [h, ite_self]
  rw [throughFrom?, hnone]
  dsimp only
  rw [if_neg hc]
  rfl

theorem map_behind (c : Char) (s : List Char) (found : Option (List Char × List Char)) :
    (found.map (behind s)).map (behind [c]) = found.map (behind (c :: s)) := by
  rw [Option.map_map]
  rfl

theorem getLast?_cons_or (c : Char) (s : List Char) (prev : Option Char) :
    (c :: s).getLast?.or prev = s.getLast?.or (some c) := by
  rw [List.getLast?_cons]
  cases s.getLast? with
  | none => rfl
  | some d => rfl

/-- A text without the letter that `from` begins with is run over. -/
theorem throughFrom?_skip {prev : Option Char} {s : List Char} (hf : 'f' ∉ s) (hs : ';' ∉ s)
    (t : List Char) : throughFrom? prev (s ++ t) =
      (throughFrom? (s.getLast?.or prev) t).map (behind s) := by
  induction s generalizing prev with
  | nil =>
    rw [List.nil_append, List.getLast?_nil, Option.none_or]
    cases throughFrom? prev t with
    | none => rfl
    | some found => rfl
  | cons c s ih =>
    rw [List.mem_cons, not_or] at hf hs
    rw [List.cons_append, throughFrom?_cons (.inr (fromClause?_of_head (Ne.symm hf.1) _))
      (Ne.symm hs.1), ih hf.2 hs.2, map_behind, getLast?_cons_or]

/-- A text that holds no `from` clause is run over, unless a semicolon in it stops the run. -/
theorem throughFrom?_append {prev : Option Char} {s t : List Char} (ht : AtEnd t)
    (h : throughFrom? prev s = none) : throughFrom? prev (s ++ t) =
      if ';' ∈ s then none else (throughFrom? (s.getLast?.or prev) t).map (behind s) := by
  induction s generalizing prev with
  | nil =>
    rw [List.nil_append, List.getLast?_nil, Option.none_or, if_neg List.not_mem_nil]
    cases throughFrom? prev t with
    | none => rfl
    | some found => rfl
  | cons c s ih =>
    have hstart : Text.isWordAt prev = true ∨ fromClause? (c :: s) = none := by
      rw [throughFrom?] at h
      split at h
      · cases h
      · rename_i hnone
        split at hnone
        · rename_i hword
          exact .inl hword
        · exact .inr hnone
    have hstart' : Text.isWordAt prev = true ∨ fromClause? (c :: (s ++ t)) = none :=
      hstart.imp_right fun hnone => fromClause?_atEnd ht hnone
    by_cases hc : c = ';'
    · subst hc
      have hnone : (if Text.isWordAt prev then none else fromClause? (';' :: (s ++ t))) = none := by
        rcases hstart' with h | h
        · rw [if_pos h]
        · rw [h, ite_self]
      rw [List.cons_append, if_pos (List.mem_cons_self ..), throughFrom?, hnone]
      exact if_pos rfl
    · have hrest : throughFrom? (some c) s = none := by
        rw [throughFrom?_cons hstart hc, Option.map_eq_none_iff] at h
        exact h
      rw [List.cons_append, throughFrom?_cons hstart' hc, ih hrest]
      have hmem : ';' ∈ c :: s ↔ ';' ∈ s := by
        rw [List.mem_cons]
        exact or_iff_right (Ne.symm hc)
      by_cases hs : ';' ∈ s
      · rw [if_pos hs, if_pos (hmem.2 hs)]
        rfl
      · rw [if_neg hs, if_neg fun h => hs (hmem.1 h), map_behind, getLast?_cons_or]

/-- Only whether a word goes before it decides over a run. -/
theorem throughFrom?_congr {prev prev' : Option Char}
    (h : Text.isWordAt prev = Text.isWordAt prev') (s : List Char) :
    throughFrom? prev s = throughFrom? prev' s := by
  cases s with
  | nil => rw [throughFrom?, throughFrom?, h]
  | cons c s => rw [throughFrom?, throughFrom?, h]

/-! ## Where a run ends -/

/-- A `from` clause, up to its specifier. -/
theorem fromClause?_of_quoted {gap rest quotedText after : List Char}
    (hgap : ∀ c ∈ gap, Text.isBlank c = true) (hrest : Begins rest)
    (h : quotedText? rest = some (quotedText, after)) :
    fromClause? (fromWord ++ gap ++ rest) = some (fromWord ++ gap ++ quotedText, after) := by
  rw [List.append_assoc, fromClause?_word, dropWhile_isBlank_append _ hgap, hrest.dropWhile, h,
    takeWhile_isBlank_append _ hgap, hrest.takeWhile, List.append_nil]
  rfl

/-- No clause begins in front of the word `from` where no quote stands before it. -/
theorem fromClause?_front {front : List Char} (hfront : ∀ c ∈ front, isQuote c = false)
    (hne : front ≠ []) (rest : List Char) : fromClause? (front ++ fromWord ++ rest) = none := by
  rw [List.append_assoc]
  by_cases hfrom : fromWord <+: front
  · obtain ⟨more, rfl⟩ := hfrom
    rw [List.append_assoc, fromClause?_word, Option.map_eq_none_iff]
    apply quotedText?_of_head
    -- Behind the blanks there is a character of the names, or the second `from`.
    intro c hc
    rw [List.dropWhile_append] at hc
    split at hc
    · obtain rfl : 'f' = c := Option.some.inj hc
      decide
    · have hmem : c ∈ more.dropWhile Text.isBlank := by
        rename_i hmore
        cases hdrop : more.dropWhile Text.isBlank with
        | nil => simp [hdrop] at hmore
        | cons d next =>
          rw [hdrop] at hc
          obtain rfl := Option.some.inj hc
          exact List.mem_cons_self ..
      exact hfront c (List.mem_append_right _ ((List.dropWhile_suffix _).subset hmem))
  · apply fromClause?_of_not_prefix
    -- The word does not begin inside of itself.
    rintro ⟨left, hleft⟩
    cases front with
    | nil => exact hne rfl
    | cons c front =>
      have hsplit : c :: front ++ (fromWord ++ rest) =
          c :: (front ++ 'f' :: ("rom".toList ++ rest)) := rfl
      rw [hsplit] at hleft
      obtain ⟨rfl, htail⟩ := List.cons.inj hleft
      have hf : 'f' ∉ "rom".toList := by decide
      have hprefix := (Text.isPrefix_append_iff hf).1 ⟨left, htail⟩
      exact hfrom (List.cons_prefix_cons.2 ⟨rfl, hprefix⟩)

/-- A run over names ends behind the specifier of the first `from` clause. -/
theorem throughFrom?_clause {prev : Option Char} {front gap rest quotedText after : List Char}
    (hfront : ∀ c ∈ front, inClause c = true)
    (hword : Text.isWordAt (front.getLast?.or prev) = false)
    (hgap : ∀ c ∈ gap, Text.isBlank c = true) (hrest : Begins rest)
    (h : quotedText? rest = some (quotedText, after)) :
    throughFrom? prev (front ++ (fromWord ++ gap ++ rest)) =
      some (front ++ (fromWord ++ gap ++ quotedText), after) := by
  induction front generalizing prev with
  | nil =>
    rw [List.getLast?_nil, Option.none_or] at hword
    unfold throughFrom?
    rw [List.nil_append, hword, if_neg Bool.false_ne_true, fromClause?_of_quoted hgap hrest h]
    rfl
  | cons c front ih =>
    have hquotes : ∀ d ∈ c :: front, isQuote d = false := fun d hd =>
      isQuote_of_inClause (hfront d hd)
    have hnone : fromClause? (c :: (front ++ (fromWord ++ gap ++ rest))) = none := by
      have hfront' := fromClause?_front hquotes (List.cons_ne_nil c front) (gap ++ rest)
      rw [List.append_assoc, ← List.append_assoc fromWord] at hfront'
      exact hfront'
    have hc : c ≠ ';' := by
      rintro rfl
      have hclause := hfront ';' (List.mem_cons_self ..)
      revert hclause
      decide
    rw [List.cons_append, throughFrom?_cons (.inr hnone) hc,
      ih (fun d hd => hfront d (List.mem_cons_of_mem _ hd)) (getLast?_cons_or c front prev ▸ hword)]
    rfl

/-! ## Quotes -/

/-- A quoted specifier, with what follows it. -/
theorem quoted?_eq {q : Char} {x : List Char} (hq : isQuote q = true) (hne : x ≠ [])
    (hx : ∀ c ∈ x, inSpecifier c = true) (lead rest : List Char) :
    quoted? lead (q :: (x ++ q :: rest)) = some (⟨lead, q, x, q⟩, rest) := by
  have hstop : ¬inSpecifier q = true := by simp [inSpecifier, hq]
  unfold quoted?
  dsimp only
  rw [List.dropWhile_append_of_pos hx, List.dropWhile_cons_of_neg hstop,
    List.takeWhile_append_of_pos hx, List.takeWhile_cons_of_neg hstop, List.append_nil]
  simp [hq, hne]

/-- What a quoted specifier consists of. -/
theorem quotes_of_quoted? {lead s rest : List Char} {m : Mention}
    (h : quoted? lead s = some (m, rest)) : m.lead = lead ∧ isQuote m.openQuote = true ∧
      isQuote m.closeQuote = true ∧ ∀ c ∈ m.specifier, inSpecifier c = true := by
  unfold quoted? at h
  split at h
  · cases h
  · split at h
    · cases h
    · split at h
      · rename_i hquotes
        rw [Bool.and_eq_true, Bool.and_eq_true] at hquotes
        obtain ⟨rfl, -⟩ := Prod.mk.inj (Option.some.inj h)
        exact ⟨rfl, hquotes.1.1, hquotes.1.2, fun c hc => List.mem_takeWhile_imp hc⟩
      · cases h

/-- A `from` clause takes two quotes. -/
theorem fromClause?_of_countP {s : List Char} (h : s.countP isQuote ≤ 1) :
    fromClause? s = none := by
  by_cases hfrom : fromWord <+: s
  · obtain ⟨rest, rfl⟩ := hfrom
    rw [fromClause?_word, Option.map_eq_none_iff, quotedText?_eq_none]
    cases hquoted : quoted? [] (rest.dropWhile Text.isBlank) with
    | none => rfl
    | some found =>
      obtain ⟨m, after⟩ := found
      obtain ⟨-, hopen, hclose, -⟩ := quotes_of_quoted? hquoted
      have htext := text_quoted? hquoted
      have hle : (rest.dropWhile Text.isBlank).countP isQuote ≤ rest.countP isQuote :=
        (List.dropWhile_sublist _).countP_le
      rw [List.nil_append] at htext
      rw [htext, Mention.text] at hle
      simp only [List.countP_append, List.countP_cons, hopen, hclose, if_true] at h hle
      omega
  · exact fromClause?_of_not_prefix hfrom

theorem throughFrom?_of_countP {prev : Option Char} {s : List Char} (h : s.countP isQuote ≤ 1) :
    throughFrom? prev s = none := by
  induction s generalizing prev with
  | nil =>
    unfold throughFrom?
    rw [fromClause?_of_countP h, ite_self]
  | cons c s ih =>
    have hs : s.countP isQuote ≤ 1 := Nat.le_trans (List.sublist_cons_self c s).countP_le h
    unfold throughFrom?
    rw [fromClause?_of_countP h, ite_self]
    dsimp only
    split
    · rfl
    · rw [ih hs]
      rfl

/-- A quoted specifier holds no `from` clause. -/
theorem throughFrom?_quoted {prev : Option Char} {q : Char} {x rest : List Char}
    (hq : isQuote q = true) (hx : ∀ c ∈ x, inSpecifier c = true) (hrest : rest.countP isQuote = 0) :
    throughFrom? prev (q :: (x ++ q :: rest)) = none := by
  have hnone : x.countP isQuote = 0 := by
    rw [List.countP_eq_zero]
    intro c hc hquote
    have hin := hx c hc
    simp [inSpecifier, hquote] at hin
  have hf : q ≠ 'f' := by
    rintro rfl
    revert hq
    decide
  have hsemicolon : q ≠ ';' := by
    rintro rfl
    revert hq
    decide
  rw [throughFrom?_cons (.inr (fromClause?_of_head hf _)) hsemicolon, throughFrom?_of_countP]
  · rfl
  · rw [List.countP_append, List.countP_cons, hnone, hrest, if_pos hq]

/-! ## Taking statements out -/

theorem dropTypesFrom_newline (s : List Char) :
    dropTypesFrom (some '\n') s = dropTypesFrom none s := by
  cases s with
  | nil => rw [dropTypesFrom, dropTypesFrom]
  | cons c s =>
    rw [dropTypesFrom, dropTypesFrom]
    rfl

/-- A type-only statement is taken out. -/
theorem dropTypesFrom_statement {s taken after : List Char}
    (h : typeStatement? s = some (taken, after)) :
    dropTypesFrom none s = dropTypesFrom taken.getLast? after := by
  have hafter : typeStatementAfter? none s = some (taken, after) := h
  cases s with
  | nil => cases h
  | cons c s =>
    rw [dropTypesFrom]
    split
    · rename_i heq
      obtain ⟨rfl, rfl⟩ := Prod.mk.inj (Option.some.inj (hafter.symm.trans heq))
      rfl
    · rename_i heq
      rw [hafter] at heq
      cases heq

theorem dropTypesFrom_cons {prev : Option Char} {c : Char} {s : List Char}
    (h : typeStatementAfter? prev (c :: s) = none) :
    dropTypesFrom prev (c :: s) = c :: dropTypesFrom (some c) s := by
  rw [dropTypesFrom]
  split
  · rename_i heq
    rw [h] at heq
    cases heq
  · rfl

/-- What stands inside of a line is kept. -/
theorem dropTypesFrom_append {c : Char} (hc : c ≠ '\n') {s : List Char} (hs : '\n' ∉ s)
    (t : List Char) : dropTypesFrom (some c) (s ++ t) =
      s ++ dropTypesFrom ((c :: s).getLast?) t := by
  induction s generalizing c with
  | nil => rfl
  | cons d s ih =>
    have hnone : typeStatementAfter? (some c) (d :: (s ++ t)) = none := by
      unfold typeStatementAfter?
      exact if_neg (by simpa using hc)
    rw [List.mem_cons, not_or] at hs
    rw [List.cons_append, dropTypesFrom_cons hnone, ih (Ne.symm hs.1) hs.2]
    rfl

/-- A line that is no type-only statement is kept. -/
theorem dropTypesFrom_line {line t : List Char} (hne : line ≠ []) (hline : '\n' ∉ line)
    (h : typeStatement? (line ++ '\n' :: t) = none) :
    dropTypesFrom none (line ++ '\n' :: t) = line ++ '\n' :: dropTypesFrom none t := by
  cases line with
  | nil => exact absurd rfl hne
  | cons c line =>
    rw [List.mem_cons, not_or] at hline
    have hlast : ((c :: line).getLast?).all (· = '\n') = false := by
      cases hend : (c :: line).getLast? with
      | none => simp at hend
      | some d =>
        have hmem := List.mem_of_getLast? hend
        have hd : d ≠ '\n' := by
          rintro rfl
          rcases List.mem_cons.1 hmem with heq | hmem
          · exact hline.1 heq
          · exact hline.2 hmem
        simpa using hd
    have hend : typeStatementAfter? (c :: line).getLast? ('\n' :: t) = none := by
      unfold typeStatementAfter?
      rw [hlast]
      rfl
    have hstart : typeStatementAfter? none (c :: (line ++ '\n' :: t)) = none := h
    rw [List.cons_append, dropTypesFrom_cons hstart, dropTypesFrom_append (Ne.symm hline.1) hline.2,
      dropTypesFrom_cons hend, dropTypesFrom_newline]
    rfl

/-- So is the last line, with no line feed behind it. -/
theorem dropTypesFrom_last {line : List Char} (hne : line ≠ []) (hline : '\n' ∉ line)
    (h : typeStatement? line = none) : dropTypesFrom none line = line := by
  cases line with
  | nil => exact absurd rfl hne
  | cons c line =>
    rw [List.mem_cons, not_or] at hline
    have hrest := dropTypesFrom_append (Ne.symm hline.1) hline.2 []
    rw [List.append_nil, dropTypesFrom, List.append_nil] at hrest
    have hstart : typeStatementAfter? none (c :: line) = none := h
    rw [dropTypesFrom_cons hstart, hrest]

end Waymark.Script
