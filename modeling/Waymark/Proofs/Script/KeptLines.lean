import Waymark.Proofs.Script.Found
import Waymark.Proofs.Script.TakenOut
/-!
# Lines that are kept

Each import in a line that is kept is found, and it is written with the URL of what it means, which
is reported.  A line with a value is lost in two ways: the default binding of an import is named
`type`, or a declaration that is not closed runs over the line.

## Main results

* `finds_source` — each import of a module is found.
* `serves_kept` — each import in a line that is kept is in what is compiled.
* `values_kept_eq_iff` — when no line with a value is lost.
* `compile_keeps_iff` — what is kept is compiled, and no import is lost exactly if neither way
  loses one.
* `compile_loses_import` — a declaration without semicolon that takes the import behind it away.
-/

namespace Waymark.Script

/-! ## Imports that are kept -/

theorem endsInFrom_names {names gap : List Char} (hnames : Text.isWordAt names.getLast? = false)
    (hgap : ∀ c ∈ gap, Text.isBlank c = true) :
    endsInFrom (names ++ (fromWord ++ gap)) = true := by
  have htrim : Text.trimEnd (names ++ (fromWord ++ gap)) = names ++ "from".toList := by
    have hsplit : names ++ (fromWord ++ gap) = (names ++ "fro".toList) ++ 'm' :: gap := by
      simp [fromWord]
    rw [hsplit, trimEnd_gap (by decide) hgap]
    simp
  unfold endsInFrom
  rw [htrim, Text.dropSuffix?_append]
  dsimp only
  rw [hnames]
  rfl

theorem endsInFrom_gap {gap : List Char} (hgap : IsGap gap) : endsInFrom gap = false := by
  have htrim : Text.trimEnd gap = [] := by
    unfold Text.trimEnd Text.dropEndWhile
    rw [List.dropWhile_eq_nil_iff.2 (by simpa using hgap.blank)]
    rfl
  unfold endsInFrom
  rw [htrim]
  rfl

/-- The import of names at the start of a text. -/
theorem mentionAt?_names {word names gap : List Char} {spec : Quoted}
    (hword : word = importWord ∨ word = exportWord) (hnames : IsNames names) (hgap : IsGap gap)
    (hspec : spec.IsSpecifier) (rest : List Char) :
    mentionAt? (word ++ names ++ (fromWord ++ gap) ++ spec.before rest) =
      some (⟨word ++ names ++ (fromWord ++ gap), spec.quote, spec.text, spec.quote⟩, rest) := by
  have hclause : ∀ c ∈ names ++ (fromWord ++ gap), inClause c = true := by
    intro c hc
    rcases List.mem_append.1 hc with hc | hc
    · exact (hnames.inside c hc).1
    · rcases List.mem_append.1 hc with hc | hc
      · exact Text.forall_mem_of_all (P := (inClause · = true)) (by decide) c hc
      · exact inClause_of_isBlank (hgap.blank c hc)
  have htake : (names ++ (fromWord ++ gap) ++ spec.before rest).takeWhile inClause =
      names ++ (fromWord ++ gap) := by
    rw [List.takeWhile_append_of_pos hclause, Quoted.before, List.takeWhile_cons_of_neg hspec.notInClause,
      List.append_nil]
  have hdrop : (names ++ (fromWord ++ gap) ++ spec.before rest).dropWhile inClause =
      spec.before rest := by
    rw [List.dropWhile_append_of_pos hclause, Quoted.before, List.dropWhile_cons_of_neg hspec.notInClause]
  have hhead : Text.isWordAt (names ++ (fromWord ++ gap) ++ spec.before rest).head? = false := by
    have hhead := hnames.head
    cases names with
    | nil => exact absurd rfl hnames.ne_nil
    | cons c names => exact hhead
  have hquote : (spec.before rest).head?.any isQuote = true := hspec.quote
  have hfound (word : List Char) :
      clauseImport? word (word ++ (names ++ (fromWord ++ gap) ++ spec.before rest)) =
        some (⟨word ++ (names ++ (fromWord ++ gap)), spec.quote, spec.text, spec.quote⟩, rest) := by
    unfold clauseImport?
    rw [Text.isPrefixOf?_append]
    dsimp only
    rw [htake, hdrop, hhead, hquote, endsInFrom_names hnames.last hgap.blank, hspec.quoted?]
    rfl
  unfold mentionAt?
  rw [List.append_assoc word, List.append_assoc word]
  rcases hword with rfl | rfl
  · rw [hfound, Option.some_or]
  · have hnone : clauseImport? importWord (exportWord ++ (names ++ (fromWord ++ gap) ++
        spec.before rest)) = none := rfl
    rw [hnone, Option.none_or, hfound, Option.some_or]

/-- The import for its effects at the start of a text. -/
theorem mentionAt?_effect {gap : List Char} {spec : Quoted} (hgap : IsGap gap)
    (hspec : spec.IsSpecifier) (rest : List Char) :
    mentionAt? (importWord ++ gap ++ spec.before rest) =
      some (⟨importWord ++ gap, spec.quote, spec.text, spec.quote⟩, rest) := by
  have hclause : ∀ c ∈ gap, inClause c = true := fun c hc =>
    inClause_of_isBlank (hgap.blank c hc)
  have htake : (gap ++ spec.before rest).takeWhile inClause = gap := by
    rw [List.takeWhile_append_of_pos hclause, Quoted.before, List.takeWhile_cons_of_neg hspec.notInClause,
      List.append_nil]
  have hblank : (gap ++ spec.before rest).dropWhile Text.isBlank = spec.before rest := by
    rw [dropWhile_isBlank_append _ hgap.blank, (hspec.begins rest).dropWhile]
  have htakeBlank : (gap ++ spec.before rest).takeWhile Text.isBlank = gap := by
    rw [takeWhile_isBlank_append _ hgap.blank, (hspec.begins rest).takeWhile, List.append_nil]
  have himport : clauseImport? importWord (importWord ++ (gap ++ spec.before rest)) = none := by
    unfold clauseImport?
    rw [Text.isPrefixOf?_append]
    dsimp only
    rw [htake, endsInFrom_gap hgap, Bool.and_false, if_neg Bool.false_ne_true]
  have hexport : clauseImport? exportWord (importWord ++ (gap ++ spec.before rest)) = none := rfl
  have hcall : callImport? (importWord ++ (gap ++ spec.before rest)) = none := by
    have hopen : spec.quote ≠ '(' := by
      intro hopen
      exact absurd hspec.quote (by rw [hopen]; decide)
    unfold callImport?
    rw [Text.isPrefixOf?_append]
    dsimp only
    rw [hblank]
    unfold Quoted.before
    split
    · rename_i heq
      exact absurd (List.cons.inj heq).1 hopen
    · rfl
  unfold mentionAt?
  rw [List.append_assoc, himport, hexport, hcall, Option.none_or, Option.none_or, Option.none_or]
  unfold bareImport?
  rw [Text.isPrefixOf?_append]
  dsimp only
  rw [hblank, htakeBlank, hspec.quoted?]

/-- What is found of a complete import, and that it is no call. -/
theorem Statement.IsComplete.mentionAt? {s : Statement} (h : s.IsComplete) {lead : List Char}
    {spec : Quoted} (himport : s.import? = some (lead, spec)) :
    spec.IsSpecifier ∧ (∀ c ∈ lead, isQuote c = false) ∧
      (∃ closed, s.text = lead ++ spec.before (semicolon closed)) ∧
      (∀ rest, Script.mentionAt? (lead ++ spec.before rest) =
        some (⟨lead, spec.quote, spec.text, spec.quote⟩, rest)) ∧
      ∀ front, Mention.isDynamic ⟨front ++ lead, spec.quote, spec.text, spec.quote⟩ = false := by
  cases s with
  | effect gap spec closed =>
    obtain ⟨rfl, rfl⟩ := Prod.mk.inj (Option.some.inj himport)
    refine ⟨h.2, ?_, ⟨closed, rfl⟩, mentionAt?_effect h.1 h.2, fun front => ?_⟩
    · intro c hc
      rcases List.mem_append.1 hc with hc | hc
      · exact Text.forall_mem_of_all (P := (isQuote · = false)) (by decide) c hc
      · exact isQuote_of_inClause (inClause_of_isBlank (h.1.blank c hc))
    · have hlead : importWord ++ gap = "impor".toList ++ 't' :: gap := rfl
      rw [hlead]
      exact isDynamic_of_lead (by decide) (by decide) h.1.blank
  | clause word names gap spec closed =>
    obtain ⟨rfl, rfl⟩ := Prod.mk.inj (Option.some.inj himport)
    obtain ⟨hword, hnames, hgap, hspec⟩ := h
    refine ⟨hspec, ?_, ⟨closed, ?_⟩, mentionAt?_names hword hnames hgap hspec, fun front => ?_⟩
    · intro c hc
      rcases List.mem_append.1 hc with hc | hc
      · exact isQuote_of_inClause ((hnames.clause hword).1 c hc)
      · rcases List.mem_append.1 hc with hc | hc
        · exact Text.forall_mem_of_all (P := (isQuote · = false)) (by decide) c hc
        · exact isQuote_of_inClause (inClause_of_isBlank (hgap.blank c hc))
    · simp only [Statement.text, List.append_assoc]
    · have hlead : word ++ names ++ (fromWord ++ gap) =
          (word ++ names ++ "fro".toList) ++ 'm' :: gap := by simp [fromWord]
      rw [hlead]
      exact isDynamic_of_lead (by decide) (by decide) hgap.blank
  | declared gap gap' body => cases himport

/-! ## Lines that are kept -/

theorem kept_sublist (lines : List Line) : (kept lines).Sublist lines := by
  fun_induction kept lines with
  | case1 => exact .slnil
  | case2 line rest after hbehind ih =>
    exact (ih.trans (suffix_of_behind? hbehind).sublist).cons line
  | case3 line rest hbehind ih => exact ih.cons_cons line

theorem IsModule.kept {lines : List Line} (h : IsModule lines) : IsModule (kept lines) := by
  fun_induction Script.kept lines with
  | case1 => trivial
  | case2 line rest after hbehind ih => exact ih (h.2.2.of_suffix (suffix_of_behind? hbehind))
  | case3 line rest hbehind ih =>
    refine ⟨h.1, ?_, ih h.2.2⟩
    rcases h.2.1 with hending | hending | ⟨hending, rfl⟩
    · exact .inl hending
    · exact .inr (.inl hending)
    · exact .inr (.inr ⟨hending, by rw [Script.kept]⟩)

/-- The lines before another one end with a line feed. -/
theorem IsModule.endsLines {before after : List Line} {line : Line}
    (h : IsModule (before ++ line :: after)) (hne : before ≠ []) : EndsLines (source before) := by
  induction before with
  | nil => exact absurd rfl hne
  | cons first before ih =>
    cases before with
    | nil =>
      rcases h.2.1 with hending | hending | ⟨-, hnil⟩
      · rw [EndsLines, source_cons, hending, List.getLast?_append]
        rfl
      · rw [EndsLines, source_cons, hending, List.getLast?_append]
        rfl
      · exact absurd hnil (List.cons_ne_nil line after)
    | cons second before =>
      have hends := ih h.2.2 (List.cons_ne_nil second before)
      rw [EndsLines] at hends ⊢
      rw [source_cons, List.getLast?_append, List.getLast?_append, hends, Option.some_or,
        Option.some_or]

/-- Each import of a module is found, maybe as the end of a longer one. -/
theorem finds_source {lines : List Line} (h : IsModule lines) {line : Line} (hline : line ∈ lines)
    {lead : List Char} {spec : Quoted} (himport : line.statement.import? = some (lead, spec)) :
    ∃ before front after, scan (source lines) =
      before ++ .mention ⟨front ++ lead, spec.quote, spec.text, spec.quote⟩ :: after := by
  obtain ⟨before, after, rfl⟩ := List.append_of_mem hline
  have hcomplete : line.statement.IsComplete := (h.of_suffix ⟨before, rfl⟩).1
  obtain ⟨hspec, hlead, ⟨closed, htext⟩, hfound, -⟩ := hcomplete.mentionAt? himport
  have hsource : source (before ++ line :: after) = source before ++ (lead ++ spec.quote ::
      (spec.text ++ spec.quote :: (semicolon closed ++ (line.ending ++ source after)))) := by
    rw [source_append, source_cons, htext, List.append_assoc, spec.before_append, Quoted.before]
  have hends : source before ≠ [] → EndsLines (source before) := by
    intro hne
    apply h.endsLines
    rintro rfl
    exact hne rfl
  rw [hsource]
  exact scanFrom_finds hlead hspec.quote hspec.inside (hfound _) (source before) hends
    fun _ => rfl

/-- Each import in a line that is kept is in what is compiled. -/
theorem serves_kept {lines : List Line} (h : IsModule lines) (options : Options)
    (importer : Specifier) {line : Line} (hline : line ∈ kept lines) {lead : List Char}
    {spec : Quoted} (himport : line.statement.import? = some (lead, spec)) :
    IsServed options importer (compile options importer (String.ofList (source lines)))
      lead spec.quote spec.text := by
  obtain ⟨before, front, after, hscan⟩ := finds_source h.kept hline himport
  have hcomplete : line.statement.IsComplete := by
    obtain ⟨above, below, hkept⟩ := List.append_of_mem hline
    exact (h.kept.of_suffix ⟨above, hkept.symm⟩).1
  obtain ⟨-, -, -, -, hstatic⟩ := hcomplete.mentionAt? himport
  rw [← dropTypeImports_source h, ← String.toList_ofList (l := source lines)] at hscan
  exact compile_serves hscan (hstatic front)

/-! ## Imports that are lost -/

/-- A line that goes with a declaration above it: this declaration holds no semicolon, and none
stands between it and the next `from` clause, which is in the line or further down. -/
def IsRunOver (lines : List Line) (line : Line) : Prop :=
  ∃ before declared run last after, lines = before ++ declared :: (run ++ last :: after) ∧
    declared.statement.isOpen = true ∧
    (∀ l ∈ run, l.statement.holdsFrom = false ∧ ';' ∉ l.statement.text) ∧
    last.statement.holdsFrom = true ∧ line ∈ run ++ [last]

/-- The lines of a module that have a value. -/
def values (lines : List Line) : List Line := lines.filter (·.statement.isValue)

theorem behindFrom_eq_some {lines after : List Line} :
    behindFrom lines = some after ↔ ∃ run last, lines = run ++ last :: after ∧
      (∀ l ∈ run, l.statement.holdsFrom = false ∧ ';' ∉ l.statement.text) ∧
      last.statement.holdsFrom = true := by
  constructor
  · intro h
    induction lines with
    | nil => cases h
    | cons line lines ih =>
      rw [behindFrom] at h
      split at h
      · rename_i hfrom
        obtain rfl := Option.some.inj h
        exact ⟨[], line, rfl, List.forall_mem_nil _, hfrom⟩
      · rename_i hfrom
        split at h
        · cases h
        · rename_i hsemicolon
          obtain ⟨run, last, rfl, hrun, hlast⟩ := ih h
          exact ⟨line :: run, last, rfl,
            List.forall_mem_cons.2 ⟨⟨Bool.eq_false_iff.2 hfrom, hsemicolon⟩, hrun⟩, hlast⟩
  · rintro ⟨run, last, rfl, hrun, hlast⟩
    induction run with
    | nil => rw [List.nil_append, behindFrom, if_pos hlast]
    | cons line run ih =>
      obtain ⟨⟨hfrom, hsemicolon⟩, hrun⟩ := List.forall_mem_cons.1 hrun
      rw [List.cons_append, behindFrom, hfrom, if_neg Bool.false_ne_true, if_neg hsemicolon, ih hrun]

theorem behindFrom_append {before lines after : List Line}
    (h : behindFrom (before ++ lines) = some after) :
    (∃ rest, rest <:+ before ∧ after = rest ++ lines) ∨ behindFrom lines = some after := by
  induction before with
  | nil => exact .inr h
  | cons line before ih =>
    rw [List.cons_append, behindFrom] at h
    split at h
    · exact .inl ⟨before, List.suffix_cons line before, (Option.some.inj h).symm⟩
    · split at h
      · cases h
      · refine (ih h).imp_left ?_
        rintro ⟨rest, hrest, hafter⟩
        exact ⟨rest, hrest.trans (List.suffix_cons line before), hafter⟩

theorem behind?_append {line : Line} {before lines after : List Line}
    (h : line.behind? (before ++ lines) = some after) :
    (∃ rest, rest <:+ before ∧ after = rest ++ lines) ∨ behindFrom lines = some after := by
  unfold Line.behind? at h
  split at h
  · cases h
  · split at h
    · exact .inl ⟨before, List.suffix_refl _, (Option.some.inj h).symm⟩
    · cases h
  · split at h
    · cases h
    · exact behindFrom_append h

/-- Lines that a declaration runs over are gone whatever stands above them. -/
theorem kept_append_sublist {lines after : List Line} (hfrom : behindFrom lines = some after)
    (hkept : (kept lines).Sublist after) (before : List Line) :
    (kept (before ++ lines)).Sublist (before ++ after) := by
  -- A line above may take several others with it, so the induction is on how many are left.
  induction hn : before.length using Nat.strong_induction_on generalizing before with
  | _ n ih =>
    cases before with
    | nil => exact hkept
    | cons line before =>
      rw [List.cons_append, kept]
      split
      · rename_i more hbehind
        rcases behind?_append hbehind with ⟨rest, hrest, rfl⟩ | hmore
        · have hlength := hrest.length_le
          have hsublist := ih rest.length (by simp [← hn]; omega) rest rfl
          exact hsublist.trans ((hrest.sublist.cons line).append_right after)
        · obtain rfl : after = more := Option.some.inj (hfrom.symm.trans hmore)
          exact (kept_sublist after).trans (List.sublist_append_right _ _)
      · exact (ih before.length (by simp [← hn]) before rfl).cons_cons line

theorem isLedByType_of_mem_kept {lines : List Line} {line : Line} (h : line ∈ kept lines) :
    line.statement.isLedByType = false := by
  fun_induction kept lines with
  | case1 => cases h
  | case2 first rest after hbehind ih => exact ih h
  | case3 first rest hbehind ih =>
    rcases List.mem_cons.1 h with rfl | h
    · unfold Line.behind? at hbehind
      split at hbehind
      · rename_i heq
        rw [heq]
        rfl
      · split at hbehind
        · cases hbehind
        · rename_i hled
          exact Bool.eq_false_iff.2 hled
      · rename_i heq
        rw [heq]
        rfl
    · exact ih h

/-- Where a line is taken out, its names begin with the word `type`, or it declares a type and runs
over the lines that go with it. -/
theorem cases_of_behind? {line : Line} {rest after : List Line}
    (h : line.behind? rest = some after) :
    line.statement.isLedByType = true ∧ after = rest ∨
      line.statement.isOpen = true ∧ behindFrom rest = some after := by
  unfold Line.behind? at h
  split at h
  · cases h
  · split at h
    · rename_i hled
      exact .inl ⟨hled, (Option.some.inj h).symm⟩
    · cases h
  · rename_i heq
    split at h
    · cases h
    · rename_i hsemicolon
      rw [heq] at hsemicolon ⊢
      exact .inr ⟨by simpa [Statement.isOpen] using hsemicolon, h⟩

theorem behind?_of_isOpen {line : Line} (h : line.statement.isOpen = true) (rest : List Line) :
    line.behind? rest = behindFrom rest ∧ behindFrom (line :: rest) = behindFrom rest := by
  obtain ⟨statement, ending⟩ := line
  cases statement with
  | effect gap spec closed => cases h
  | clause word names gap spec closed => cases h
  | declared gap gap' body =>
    have hsemicolon : ';' ∉ (Statement.declared gap gap' body).text := by
      simpa [Statement.isOpen] using h
    exact ⟨if_neg hsemicolon, (if_neg Bool.false_ne_true).trans (if_neg hsemicolon)⟩

theorem isValue_of_isOpen {s : Statement} (h : s.isOpen = true) : s.isValue = false := by
  cases s with
  | effect gap spec closed => cases h
  | clause word names gap spec closed => cases h
  | declared gap gap' body => rfl

theorem IsRunOver.of_cons {first : Line} {rest : List Line} {line : Line}
    (h : IsRunOver rest line) : IsRunOver (first :: rest) line := by
  obtain ⟨before, declared, run, last, after, rfl, h⟩ := h
  exact ⟨first :: before, declared, run, last, after, rfl, h⟩

theorem IsRunOver.of_suffix {lines rest : List Line} (hrest : rest <:+ lines) {line : Line}
    (h : IsRunOver rest line) : IsRunOver lines line := by
  obtain ⟨above, rfl⟩ := hrest
  induction above with
  | nil => exact h
  | cons first above ih => exact ih.of_cons

/-- A value in a line that a declaration runs over is lost. -/
theorem length_values_kept_lt {lines : List Line} {line : Line} (h : IsRunOver lines line)
    (hvalue : line.statement.isValue = true) :
    (values (kept lines)).length < (values lines).length := by
  obtain ⟨before, declared, run, last, after, rfl, hopen, hrun, hlast, hline⟩ := h
  obtain ⟨hbehind, hfrom⟩ := behind?_of_isOpen hopen (run ++ last :: after)
  have hafter : behindFrom (run ++ last :: after) = some after :=
    behindFrom_eq_some.2 ⟨run, last, rfl, hrun, hlast⟩
  have hkept : kept (declared :: (run ++ last :: after)) = kept after := by
    rw [kept]
    split
    · rename_i heq
      rw [hbehind, hafter] at heq
      rw [Option.some.inj heq]
    · rename_i heq
      rw [hbehind, hafter] at heq
      cases heq
  have hsublist := kept_append_sublist (hfrom.trans hafter) (hkept ▸ kept_sublist after) before
  have hle := hsublist.countP_le (p := (·.statement.isValue))
  have hlost : 0 < (run ++ [last]).countP (·.statement.isValue) :=
    List.countP_pos_iff.2 ⟨line, hline, hvalue⟩
  -- Nothing of what is run over is in what is kept, whatever the lines above do.
  have hsplit : run ++ last :: after = run ++ [last] ++ after := by simp
  unfold values
  rw [← List.countP_eq_length_filter, ← List.countP_eq_length_filter]
  rw [hsplit] at hle ⊢
  simp only [List.countP_append, List.countP_cons] at hle hlost ⊢
  omega

/-- No value of a module is lost exactly if no line with one has names led by the word `type`, and
no declaration runs over one. -/
theorem values_kept_eq_iff (lines : List Line) : values (kept lines) = values lines ↔
    ∀ line ∈ lines, line.statement.isValue = true →
      line.statement.isLedByType = false ∧ ¬IsRunOver lines line := by
  constructor
  · intro h line hline hvalue
    constructor
    · have hmem : line ∈ values (kept lines) := h ▸ List.mem_filter.2 ⟨hline, hvalue⟩
      exact isLedByType_of_mem_kept (List.mem_filter.1 hmem).1
    · intro hover
      have hlt := length_values_kept_lt hover hvalue
      rw [h] at hlt
      exact Nat.lt_irrefl _ hlt
  · intro h
    fun_induction kept lines with
    | case1 => rfl
    | case2 line rest after hbehind ih =>
      have hsuffix := suffix_of_behind? hbehind
      rw [ih fun l hl hvalue =>
        ⟨(h l (List.mem_cons_of_mem _ (hsuffix.subset hl)) hvalue).1, fun hover =>
          (h l (List.mem_cons_of_mem _ (hsuffix.subset hl)) hvalue).2
            (hover.of_suffix (hsuffix.trans (List.suffix_cons line rest)))⟩]
      rcases cases_of_behind? hbehind with ⟨hled, rfl⟩ | ⟨hopen, hafter⟩
      · refine (List.filter_cons_of_neg fun hvalue => ?_).symm
        have hnotLed := (h line (List.mem_cons_self ..) hvalue).1
        rw [hled] at hnotLed
        cases hnotLed
      · -- All lines that go with the declaration are run over, so none of them has a value.
        obtain ⟨run, last, rfl, hrun, hlast⟩ := behindFrom_eq_some.1 hafter
        have hsplit : line :: (run ++ last :: after) = line :: (run ++ [last]) ++ after := by simp
        have hnone : values (line :: (run ++ [last])) = [] := by
          refine List.filter_eq_nil_iff.2 fun l hl hvalue => ?_
          rcases List.mem_cons.1 hl with rfl | hgone
          · rw [isValue_of_isOpen hopen] at hvalue
            cases hvalue
          · exact (h l (hsplit ▸ List.mem_append_left _ hl) hvalue).2
              ⟨[], line, run, last, after, rfl, hopen, hrun, hlast, hgone⟩
        unfold values at hnone ⊢
        rw [hsplit, List.filter_append, hnone, List.nil_append]
    | case3 line rest hbehind ih =>
      have hrest : values (kept rest) = values rest := ih fun l hl hvalue =>
        ⟨(h l (List.mem_cons_of_mem _ hl) hvalue).1, fun hover =>
          (h l (List.mem_cons_of_mem _ hl) hvalue).2 hover.of_cons⟩
      unfold values at hrest ⊢
      rw [List.filter_cons, List.filter_cons, hrest]

/-! ## What is compiled -/

/-- A module whose lines are statements is compiled as its lines that are kept, each import of which
is written with the URL of what it means, which is reported.  No line with a value is lost exactly
if the names of none begin with the word `type`, and no declaration runs over one. -/
theorem compile_keeps_iff {lines : List Line} (h : IsModule lines) (options : Options)
    (importer : Specifier) :
    dropTypeImports (source lines) = source (kept lines) ∧
      (∀ line ∈ kept lines, ∀ lead spec, line.statement.import? = some (lead, spec) →
        IsServed options importer (compile options importer (String.ofList (source lines)))
          lead spec.quote spec.text) ∧
      (values (kept lines) = values lines ↔
        ∀ line ∈ lines, line.statement.isValue = true →
          line.statement.isLedByType = false ∧ ¬IsRunOver lines line) :=
  ⟨dropTypeImports_source h, fun _ hline _ _ himport => serves_kept h options importer hline himport,
    values_kept_eq_iff lines⟩

/-- An import of names from `./a.ts` in a line. -/
def importOf (names : String) : Line :=
  ⟨.clause importWord names.toList [' '] ⟨'"', "./a.ts".toList⟩ false, ['\n']⟩

/-- A type in a line. -/
def typeOf (body : String) : Line := ⟨.declared [' '] [' '] body.toList, ['\n']⟩

/-- What a compiler is told where no module has a version yet. -/
def initialOptions : Options := ⟨false, ImportMap.empty, 10, Dict.empty⟩

/-- Behind a declaration that a semicolon closes, an import is kept. -/
theorem compile_keeps_iff_closed :
    IsModule [typeOf "N = string;", importOf " { a } "] ∧
      kept [typeOf "N = string;", importOf " { a } "] =
        [typeOf "N = string;", importOf " { a } "] ∧
      IsServed initialOptions "./m.ts" (compile initialOptions "./m.ts"
          (String.ofList (source [typeOf "N = string;", importOf " { a } "])))
        "import { a } from ".toList '"' "./a.ts".toList := by
  have hmodule : IsModule [typeOf "N = string;", importOf " { a } "] := by decide +kernel
  have hkept : kept [typeOf "N = string;", importOf " { a } "] =
      [typeOf "N = string;", importOf " { a } "] := by
    decide +kernel
  have hline : importOf " { a } " ∈ kept [typeOf "N = string;", importOf " { a } "] := by
    rw [hkept]
    exact List.mem_cons_of_mem _ (List.mem_cons_self ..)
  have himport : (importOf " { a } ").statement.import? =
      some ("import { a } from ".toList, ⟨'"', "./a.ts".toList⟩) := by decide +kernel
  have hserved := (compile_keeps_iff hmodule initialOptions "./m.ts").2.1 _ hline _ _ himport
  exact ⟨hmodule, hkept, hserved⟩

/-- An import is lost behind a declaration without semicolon, and one of a default binding named
`type` is lost anywhere. -/
theorem compile_loses_import :
    (IsModule [typeOf "N = string", importOf " { a } "] ∧
      (importOf " { a } ").statement.isValue = true ∧
      source [typeOf "N = string", importOf " { a } "] =
        "export type N = string\nimport { a } from \"./a.ts\"\n".toList ∧
      compile initialOptions "./m.ts"
        (String.ofList (source [typeOf "N = string", importOf " { a } "])) = ⟨"", []⟩) ∧
    (IsModule [importOf " type "] ∧
      (importOf " type ").statement.isValue = true ∧
      source [importOf " type "] = "import type from \"./a.ts\"\n".toList ∧
      compile initialOptions "./m.ts" (String.ofList (source [importOf " type "])) = ⟨"", []⟩) ∧
    resolve initialOptions.importMap "./m.ts" "./a.ts" = some "./a.ts" := by
  refine ⟨⟨?_, ?_, ?_, ?_⟩, ⟨?_, ?_, ?_, ?_⟩, ?_⟩
  all_goals decide +kernel

end Waymark.Script
