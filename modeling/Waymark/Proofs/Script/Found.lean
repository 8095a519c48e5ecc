import Waymark.Proofs.Script.ServedUrl
import Waymark.Proofs.Script.TypeRuns
/-!
# Imports that are found

An import that begins a line is found, whatever stands before it: no import that begins further
up ends inside of it, because a specifier does not reach over the end of a line and nothing before
a specifier holds a quote.  What begins further up and reaches into it ends with it, and has its
specifier.

## Main results

* `quotes_of_mentionAt?` — nothing before a specifier holds a quote.
* `scanFrom_finds` — an import that begins a line is found, maybe as the end of a longer one.
* `compile_serves` — its module is reported, and the import is written with the URL of the module.
-/

namespace Waymark.Script

/-! ## What an import consists of -/

theorem notQuote_of_blanks {s : List Char} {c : Char} (h : c ∈ s.takeWhile Text.isBlank) :
    isQuote c = false :=
  isQuote_of_inClause (inClause_of_isBlank (List.mem_takeWhile_imp h))

/-- What an import consists of: nothing before the specifier holds a quote, and the specifier
stands between quotes. -/
theorem quotes_of_mentionAt? {s rest : List Char} {m : Mention}
    (h : mentionAt? s = some (m, rest)) : (∀ c ∈ m.lead, isQuote c = false) ∧
      isQuote m.openQuote = true ∧ isQuote m.closeQuote = true ∧
      ∀ c ∈ m.specifier, inSpecifier c = true := by
  have himport : ∀ c ∈ importWord, isQuote c = false := Text.forall_mem_of_all (by decide)
  have hclause {word : List Char} (hword : ∀ c ∈ word, isQuote c = false)
      (h : clauseImport? word s = some (m, rest)) : (∀ c ∈ m.lead, isQuote c = false) ∧
        isQuote m.openQuote = true ∧ isQuote m.closeQuote = true ∧
        ∀ c ∈ m.specifier, inSpecifier c = true := by
    unfold clauseImport? at h
    split at h
    · cases h
    · split at h
      · obtain ⟨hlead, hquotes⟩ := quotes_of_quoted? h
        refine ⟨?_, hquotes⟩
        rw [hlead]
        intro c hc
        rcases List.mem_append.1 hc with hc | hc
        · exact hword c hc
        · exact isQuote_of_inClause (List.mem_takeWhile_imp hc)
      · cases h
  simp only [mentionAt?, Option.or_eq_some_iff] at h
  rcases h with h | ⟨-, h | ⟨-, h | ⟨-, h⟩⟩⟩
  · exact hclause himport h
  · exact hclause (Text.forall_mem_of_all (by decide)) h
  · unfold callImport? at h
    split at h
    · cases h
    · split at h
      · obtain ⟨hlead, hquotes⟩ := quotes_of_quoted? h
        refine ⟨?_, hquotes⟩
        rw [hlead]
        intro c hc
        rcases List.mem_append.1 hc with hc | hc
        · rcases List.mem_append.1 hc with hc | hc
          · exact himport c hc
          · exact notQuote_of_blanks hc
        · rcases List.mem_cons.1 hc with rfl | hc
          · decide
          · exact notQuote_of_blanks hc
      · cases h
  · unfold bareImport? at h
    split at h
    · cases h
    · obtain ⟨hlead, hquotes⟩ := quotes_of_quoted? h
      refine ⟨?_, hquotes⟩
      rw [hlead]
      intro c hc
      rcases List.mem_append.1 hc with hc | hc
      · exact himport c hc
      · exact notQuote_of_blanks hc

theorem mentionAt?_of_mentionAfter? {prev : Option Char} {s : List Char}
    {found : Mention × List Char} (h : mentionAfter? prev s = some found) :
    mentionAt? s = some found := by
  unfold mentionAfter? at h
  split at h
  · cases h
  · exact h

/-! ## Imports that begin a line -/

/-- Two texts of which neither part before a quote holds a quote are cut at it alike. -/
theorem append_cons_inj {p : Char → Bool} {a b x y : List Char} {c d : Char}
    (ha : ∀ e ∈ a, p e = false) (hb : ∀ e ∈ b, p e = false) (hc : p c = true) (hd : p d = true)
    (h : a ++ c :: x = b ++ d :: y) : a = b ∧ c = d ∧ x = y := by
  induction a generalizing b with
  | nil =>
    cases b with
    | nil => exact ⟨rfl, List.cons.inj h⟩
    | cons e b =>
      obtain ⟨rfl, -⟩ := List.cons.inj h
      rw [hb c (List.mem_cons_self ..)] at hc
      cases hc
  | cons e a ih =>
    cases b with
    | nil =>
      obtain ⟨rfl, -⟩ := List.cons.inj h
      rw [ha e (List.mem_cons_self ..)] at hd
      cases hd
    | cons e' b =>
      obtain ⟨rfl, hrest⟩ := List.cons.inj h
      obtain ⟨hfront, hback⟩ := ih (fun e he => ha e (List.mem_cons_of_mem _ he))
        (fun e he => hb e (List.mem_cons_of_mem _ he)) hrest
      exact ⟨congrArg (e :: ·) hfront, hback⟩

/-- A mention that reaches over the end of a line into an import behind it ends with this import:
it has its specifier, and everything else of it before that. -/
theorem eq_of_overlap {pre lead spec post tail after : List Char} {q : Char} {m : Mention}
    (hm : (∀ c ∈ m.lead, isQuote c = false) ∧ isQuote m.openQuote = true ∧
      isQuote m.closeQuote = true ∧ ∀ c ∈ m.specifier, inSpecifier c = true)
    (hlead : ∀ c ∈ lead, isQuote c = false) (hq : isQuote q = true)
    (hspec : ∀ c ∈ spec, inSpecifier c = true) (hpre : pre.getLast? = some '\n')
    (htext : m.text = pre ++ tail) (htail : tail ++ after = lead ++ q :: (spec ++ q :: post)) :
    m = ⟨pre ++ lead, q, spec, q⟩ := by
  obtain ⟨hnone, hopen, hclose, hin⟩ := hm
  have hnotQuote {x : List Char} (hx : ∀ c ∈ x, inSpecifier c = true) :
      ∀ c ∈ x, isQuote c = false := by
    intro c hc
    have hc := hx c hc
    simp only [inSpecifier, Bool.not_eq_true', Bool.or_eq_false_iff] at hc
    exact hc.1.1
  -- The end of the line lies before the specifier.
  obtain ⟨front, hfront, htail'⟩ : ∃ front, m.lead = pre ++ front ∧
      tail = front ++ m.openQuote :: (m.specifier ++ [m.closeQuote]) := by
    have hsplit : m.lead ++ m.openQuote :: (m.specifier ++ [m.closeQuote]) = pre ++ tail := by
      rw [← htext, Mention.text, List.append_assoc, List.cons_append]
    rcases List.append_eq_append_iff.1 hsplit with ⟨front, hpre', hfront⟩ | ⟨front, hlead', hfront⟩
    · cases hempty : front.getLast? with
      | none =>
        rw [List.getLast?_eq_none_iff] at hempty
        subst hempty
        exact ⟨[], by rw [hpre', List.append_nil, List.append_nil], hfront.symm⟩
      | some c =>
        rw [hpre', List.getLast?_append, hempty] at hpre
        obtain rfl := Option.some.inj hpre
        have hmem : '\n' ∈ m.openQuote :: (m.specifier ++ [m.closeQuote]) := by
          rw [hfront]
          exact List.mem_append_left _ (List.mem_of_getLast? hempty)
        rw [List.mem_cons, List.mem_append, List.mem_singleton] at hmem
        rcases hmem with heq | hmem | heq
        · rw [← heq] at hopen
          exact absurd hopen (by decide)
        · exact absurd (hin '\n' hmem) (by decide)
        · rw [← heq] at hclose
          exact absurd hclose (by decide)
    · exact ⟨front, hlead', hfront⟩
  have hfrontQuote : ∀ c ∈ front, isQuote c = false := fun c hc =>
    hnone c (hfront ▸ List.mem_append_right _ hc)
  rw [htail', List.append_assoc, List.cons_append, List.append_assoc] at htail
  obtain ⟨rfl, hquote, hrest⟩ := append_cons_inj hfrontQuote hlead hopen hq htail
  obtain ⟨hspecifier, hquote', -⟩ :=
    append_cons_inj (hnotQuote hin) (hnotQuote hspec) hclose hq hrest
  obtain ⟨mlead, mopen, mspecifier, mclose⟩ := m
  dsimp only at hfront hquote hspecifier hquote'
  rw [hfront, hquote, hspecifier, hquote']

theorem scanFrom_mention {prev : Option Char} {s after : List Char} {m : Mention}
    (h : mentionAfter? prev s = some (m, after)) :
    scanFrom prev s = .mention m :: scanFrom (some m.closeQuote) after := by
  cases s with
  | nil =>
    have hlength := congrArg List.length (text_mentionAfter? h)
    have hpos := length_text_pos m
    rw [List.length_nil, List.length_append] at hlength
    omega
  | cons c s =>
    rw [scanFrom]
    split
    · rename_i heq
      obtain ⟨rfl, rfl⟩ := Prod.mk.inj (Option.some.inj (h.symm.trans heq))
      rfl
    · rename_i heq
      rw [h] at heq
      cases heq

theorem scanFrom_char {prev : Option Char} {c : Char} {s : List Char}
    (h : mentionAfter? prev (c :: s) = none) :
    scanFrom prev (c :: s) = .char c :: scanFrom (some c) s := by
  rw [scanFrom]
  split
  · rename_i heq
    rw [h] at heq
    cases heq
  · rfl

/-- The end of a text of lines. -/
def EndsLines (s : List Char) : Prop := s.getLast? = some '\n'

theorem EndsLines.of_append {s t : List Char} (h : EndsLines (s ++ t)) (ht : t ≠ []) :
    EndsLines t := by
  unfold EndsLines at h ⊢
  rw [List.getLast?_append] at h
  cases hlast : t.getLast? with
  | none => exact absurd (List.getLast?_eq_none_iff.1 hlast) ht
  | some c =>
    rw [hlast] at h
    exact h

/-- An import that begins a line, or the text, is found, maybe as the end of a longer one. -/
theorem scanFrom_finds {lead spec post : List Char} {q : Char}
    (hlead : ∀ c ∈ lead, isQuote c = false) (hq : isQuote q = true)
    (hspec : ∀ c ∈ spec, inSpecifier c = true)
    (hfound : mentionAt? (lead ++ q :: (spec ++ q :: post)) = some (⟨lead, q, spec, q⟩, post))
    (pre : List Char) {prev : Option Char} (hpre : pre ≠ [] → EndsLines pre)
    (hprev : pre = [] → Text.isWordAt prev = false) :
    ∃ before front after, scanFrom prev (pre ++ (lead ++ q :: (spec ++ q :: post))) =
      before ++ .mention ⟨front ++ lead, q, spec, q⟩ :: after := by
  induction hn : pre.length using Nat.strong_induction_on generalizing pre prev with
  | _ n ih =>
    cases pre with
    | nil =>
      have hmention : mentionAfter? prev (lead ++ q :: (spec ++ q :: post)) =
          some (⟨lead, q, spec, q⟩, post) := by
        rw [mentionAfter?, hprev rfl, if_neg Bool.false_ne_true, hfound]
      exact ⟨[], [], _, scanFrom_mention hmention⟩
    | cons c pre =>
      have hends := hpre (List.cons_ne_nil c pre)
      cases hmention : mentionAfter? prev (c :: pre ++ (lead ++ q :: (spec ++ q :: post))) with
      | none =>
        have hends' : pre ≠ [] → EndsLines pre := fun hne => EndsLines.of_append (s := [c]) hends hne
        have hprev' : pre = [] → Text.isWordAt (some c) = false := by
          rintro rfl
          obtain rfl := Option.some.inj hends
          decide
        obtain ⟨before, front, after, hscan⟩ :=
          ih pre.length (by simp [← hn]) pre hends' hprev' rfl
        refine ⟨.char c :: before, front, after, ?_⟩
        rw [List.cons_append] at hmention ⊢
        rw [scanFrom_char hmention, hscan, List.cons_append]
      | some found =>
        obtain ⟨m, rest⟩ := found
        have hm := quotes_of_mentionAt? (mentionAt?_of_mentionAfter? hmention)
        have htext := text_mentionAfter? hmention
        rcases List.append_eq_append_iff.1 htext with ⟨tail, hreach, htail⟩ | ⟨more, hmore, hrest⟩
        · -- The import found reaches over the end of the line.
          obtain rfl := eq_of_overlap hm hlead hq hspec hends hreach htail.symm
          exact ⟨[], c :: pre, _, scanFrom_mention hmention⟩
        · -- The import found ends before.
          have hpos := length_text_pos m
          have hshorter : more.length < n := by
            rw [← hn, hmore, List.length_append]
            omega
          have hends' : more ≠ [] → EndsLines more := fun hne =>
            EndsLines.of_append (hmore ▸ hends) hne
          have hprev' : more = [] → Text.isWordAt (some m.closeQuote) = false := by
            rintro rfl
            rw [hmore, List.append_nil, EndsLines, Mention.text, List.getLast?_concat] at hends
            obtain hclose := Option.some.inj hends
            rw [hclose]
            decide
          obtain ⟨before, front, after, hscan⟩ := ih more.length hshorter more hends' hprev' rfl
          refine ⟨.mention m :: before, front, after, ?_⟩
          rw [scanFrom_mention hmention, hrest, hscan, List.cons_append]

/-! ## What is written for an import -/

/-- An import is in what was compiled: the module it means is reported and stands in it with the
URL under which it is served, or it means none and is there as it was. -/
def IsServed (options : Options) (importer : Specifier) (output : Output)
    (lead : List Char) (q : Char) (spec : List Char) : Prop :=
  match resolve options.importMap importer (String.ofList spec) with
  | some dep => dep ∈ output.deps ∧
      lead ++ q :: (servedUrl options dep).toList ++ [q] <:+: output.code.toList
  | none => lead ++ q :: spec ++ [q] <:+: output.code.toList

/-- The blanks at the end of a text are cut off. -/
theorem trimEnd_gap {front gap : List Char} {c : Char} (hc : Text.isBlank c = false)
    (hgap : ∀ d ∈ gap, Text.isBlank d = true) :
    Text.trimEnd (front ++ c :: gap) = front ++ [c] := by
  have hreverse : (front ++ c :: gap).reverse = gap.reverse ++ c :: front.reverse := by simp
  unfold Text.trimEnd Text.dropEndWhile
  rw [hreverse, dropWhile_isBlank_append _ (by simpa using hgap),
    List.dropWhile_cons_of_neg (by simp [hc])]
  simp

/-- Behind a word there is no call. -/
theorem isDynamic_of_lead {front word gap spec : List Char} {c q close : Char} (hc : c ≠ '(')
    (hblank : Text.isBlank c = false) (hgap : ∀ d ∈ gap, Text.isBlank d = true) :
    Mention.isDynamic ⟨front ++ (word ++ c :: gap), q, spec, close⟩ = false := by
  unfold Mention.isDynamic
  rw [← List.append_assoc, trimEnd_gap hblank hgap, Bool.eq_false_iff, Ne,
    List.isSuffixOf_iff_suffix]
  rintro ⟨rest, hrest⟩
  obtain ⟨-, hlast⟩ := List.append_inj' hrest rfl
  exact hc (List.cons.inj hlast).1.symm

/-- An import that is found is in what is compiled. -/
theorem compile_serves {options : Options} {importer : Specifier} {source : String}
    {before after : List Piece} {front lead spec : List Char} {q : Char}
    (hscan : scan (dropTypeImports source.toList) =
      before ++ .mention ⟨front ++ lead, q, spec, q⟩ :: after)
    (hstatic : Mention.isDynamic ⟨front ++ lead, q, spec, q⟩ = false) :
    IsServed options importer (compile options importer source) lead q spec := by
  have hmention : (⟨front ++ lead, q, spec, q⟩ : Mention) ∈
      mentions (dropTypeImports source.toList) := by
    unfold mentions
    rw [hscan]
    exact List.mem_filterMap.2
      ⟨_, List.mem_append_right _ (List.mem_cons_self ..), rfl⟩
  have hcode {written : List Char}
      (h : rewriteMention options importer ⟨front ++ lead, q, spec, q⟩ = front ++ written) :
      written <:+: (compile options importer source).code.toList := by
    refine ⟨before.flatMap (rewritePiece options importer) ++ front,
      after.flatMap (rewritePiece options importer), ?_⟩
    rw [toList_code_compile, hscan, List.flatMap_append, List.flatMap_cons]
    show _ = _ ++ (rewriteMention options importer ⟨front ++ lead, q, spec, q⟩ ++ _)
    rw [h]
    simp only [List.append_assoc]
  unfold IsServed
  cases hresolve : resolve options.importMap importer (String.ofList spec) with
  | none =>
    apply hcode
    have hmeans : resolveMention options importer ⟨front ++ lead, q, spec, q⟩ = none := hresolve
    rw [rewriteMention, hmeans]
    simp [Mention.text]
  | some dep =>
    have hmeans : resolveMention options importer ⟨front ++ lead, q, spec, q⟩ = some dep := hresolve
    refine ⟨mem_deps_compile.2 ⟨_, hmention, hmeans⟩, hcode ?_⟩
    rw [rewriteMention, hmeans]
    dsimp only
    rw [hstatic, if_neg Bool.false_ne_true]
    simp [Mention.withSpecifier]

end Waymark.Script
