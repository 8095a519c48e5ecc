import Waymark.Proofs.Script.Statements
/-!
# Lines that are taken out

The pattern of a type-only statement is looked for where a line begins.  Its clause runs over
everything but a semicolon: over the ends of lines, and over quotes that hold no `from` clause.  So
it ends in the line itself if that has a `from` clause, and else in the next line that has one.
What is left of a module are its other lines, unchanged.

## Main results

* `throughFrom?_source` — a run through lines ends behind the first `from` clause.
* `typeStatement?_source` — what is taken out where a line begins.
* `dropTypeImports_source` — what is left of a module is its lines that are kept.
-/

namespace Waymark.Script

/-! ## Runs through lines -/

theorem Quoted.before_append (spec : Quoted) (s t : List Char) :
    spec.before s ++ t = spec.before (s ++ t) := by
  simp [Quoted.before]

theorem Quoted.IsSpecifier.quoted? {spec : Quoted} (h : spec.IsSpecifier) (lead rest : List Char) :
    quoted? lead (spec.before rest) = some (⟨lead, spec.quote, spec.text, spec.quote⟩, rest) :=
  quoted?_eq h.quote h.ne_nil h.inside lead rest

theorem Quoted.IsSpecifier.quotedText? {spec : Quoted} (h : spec.IsSpecifier) (rest : List Char) :
    quotedText? (spec.before rest) = some (spec.before [], rest) := by
  unfold Script.quotedText?
  rw [h.quoted?]
  simp [Mention.text, Quoted.before]

theorem Quoted.IsSpecifier.notInClause {spec : Quoted} (h : spec.IsSpecifier) :
    ¬inClause spec.quote = true := by
  intro hin
  have hquote := h.quote
  rw [isQuote_of_inClause hin] at hquote
  cases hquote

theorem Quoted.IsSpecifier.begins {spec : Quoted} (h : spec.IsSpecifier) (rest : List Char) :
    Begins (spec.before rest) := by
  intro c hc
  obtain rfl := Option.some.inj hc
  by_contra hblank
  exact h.notInClause (inClause_of_isBlank (by simpa using hblank))

theorem notMem_of_blank {s : List Char} (h : ∀ c ∈ s, Text.isBlank c = true) {d : Char}
    (hd : Text.isBlank d = false) : d ∉ s := by
  intro hmem
  rw [h d hmem] at hd
  cases hd

/-- A statement without `from` clause holds nothing that looks like one. -/
theorem throughFrom?_text {s : Statement} (h : s.IsComplete) (hfrom : s.holdsFrom = false) :
    throughFrom? none s.text = none := by
  cases s with
  | effect gap spec closed =>
    obtain ⟨hgap, hspec⟩ := h
    have hf : 'f' ∉ importWord ++ gap := by
      rw [List.mem_append, not_or]
      exact ⟨by decide, notMem_of_blank hgap.blank (by decide)⟩
    have hsemicolon : ';' ∉ importWord ++ gap := by
      rw [List.mem_append, not_or]
      exact ⟨by decide, notMem_of_blank hgap.blank (by decide)⟩
    have hcount : (semicolon closed).countP isQuote = 0 := by
      cases closed with
      | true => decide
      | false => decide
    rw [Statement.text, throughFrom?_skip hf hsemicolon, Quoted.before,
      throughFrom?_quoted hspec.quote hspec.inside hcount]
    rfl
  | clause word names gap spec closed => cases hfrom
  | declared gap gap' body =>
    obtain ⟨hgap, -, hgap', hne', hbody⟩ := h
    have hnone {d : Char} (hd : Text.isBlank d = false) (hwords : d ∉ exportWord ++ typeWord) :
        d ∉ exportWord ++ gap ++ typeWord ++ gap' := by
      simp only [List.mem_append, not_or] at hwords ⊢
      exact ⟨⟨⟨hwords.1, notMem_of_blank hgap.blank hd⟩, hwords.2⟩,
        notMem_of_blank hgap'.blank hd⟩
    have hlast : Text.isWordAt ((exportWord ++ gap ++ typeWord ++ gap').getLast?.or none) =
        Text.isWordAt none := by
      rw [List.getLast?_append, List.getLast?_eq_some_getLast hne']
      exact isWord_of_isBlank (hgap'.blank _ (List.getLast_mem hne'))
    rw [Statement.text, throughFrom?_skip (hnone (by decide) (by decide))
      (hnone (by decide) (by decide)), throughFrom?_congr hlast, hbody.noFrom]
    rfl

/-- What a run through the text of lines finds, where the lines behind the next `from` clause are
known. -/
def RunsTo (found : Option (List Char × List Char)) : Option (List Line) → Prop
  | none => found = none
  | some rest => ∃ taken closed ending, IsEnding ending rest ∧
      found = some (taken, semicolon closed ++ (ending ++ source rest))

theorem RunsTo.behind {found : Option (List Char × List Char)} {rest : Option (List Line)}
    (h : RunsTo found rest) (s : List Char) : RunsTo (found.map (Script.behind s)) rest := by
  cases rest with
  | none =>
    have hnone : found = none := h
    rw [hnone]
    rfl
  | some rest =>
    obtain ⟨taken, closed, ending, hending, hfound⟩ := h
    rw [hfound]
    exact ⟨s ++ taken, closed, ending, hending, rfl⟩

/-- A run over names goes through the clause behind them, to the end of their statement. -/
theorem throughFrom?_names {front gap : List Char} {spec : Quoted} {closed : Bool}
    (hfront : ∀ c ∈ front, inClause c = true) (hlast : Text.isWordAt front.getLast? = false)
    (hgap : IsGap gap) (hspec : spec.IsSpecifier) {ending : List Char} {rest : List Line}
    (hending : IsEnding ending rest) :
    RunsTo (throughFrom? none (front ++ (fromWord ++ gap ++
      spec.before (semicolon closed ++ (ending ++ source rest))))) (some rest) := by
  refine ⟨_, closed, ending, hending, throughFrom?_clause hfront ?_ hgap.blank (hspec.begins _)
    (hspec.quotedText? _)⟩
  rwa [Option.or_none]

theorem IsNames.clause {names : List Char} (h : IsNames names) {word : List Char}
    (hword : word = importWord ∨ word = exportWord) :
    (∀ c ∈ word ++ names, inClause c = true) ∧ Text.isWordAt (word ++ names).getLast? = false := by
  constructor
  · intro c hc
    rcases List.mem_append.1 hc with hc | hc
    · rcases hword with rfl | rfl
      · exact Text.forall_mem_of_all (P := (inClause · = true)) (by decide) c hc
      · exact Text.forall_mem_of_all (P := (inClause · = true)) (by decide) c hc
    · exact (h.inside c hc).1
  · have hlast := h.last
    rw [List.getLast?_eq_some_getLast h.ne_nil] at hlast
    rwa [List.getLast?_append, List.getLast?_eq_some_getLast h.ne_nil, Option.some_or]

/-- A run through lines ends behind the first `from` clause, unless a semicolon stands before it. -/
theorem throughFrom?_source {lines : List Line} (h : IsModule lines) :
    RunsTo (throughFrom? none (source lines)) (behindFrom lines) := by
  induction lines with
  | nil => rfl
  | cons line rest ih =>
    have hending := h.ending
    rw [source, List.flatMap_cons, List.append_assoc]
    show RunsTo (throughFrom? none (line.statement.text ++ (line.ending ++ source rest))) _
    cases hfrom : line.statement.holdsFrom with
    | true =>
      rw [behindFrom, if_pos hfrom]
      cases hstatement : line.statement with
      | effect gap spec closed =>
        rw [hstatement] at hfrom
        cases hfrom
      | declared gap gap' body =>
        rw [hstatement] at hfrom
        cases hfrom
      | clause word names gap spec closed =>
        have hcomplete := h.1
        rw [hstatement] at hcomplete
        obtain ⟨hword, hnames, hgap, hspec⟩ := hcomplete
        obtain ⟨hclause, hlast⟩ := hnames.clause hword
        rw [Statement.text, List.append_assoc (word ++ names), List.append_assoc (fromWord ++ gap),
          spec.before_append]
        exact throughFrom?_names hclause hlast hgap hspec hending
    | false =>
      rw [behindFrom, hfrom, if_neg Bool.false_ne_true,
        throughFrom?_append hending.atEnd (throughFrom?_text h.1 hfrom)]
      split
      · rfl
      · rw [hending.throughFrom?]
        exact ((ih h.2.2).behind _).behind _

/-! ## What is taken out -/

theorem typeKeywords?_word {word : List Char} (hword : word = importWord ∨ word = exportWord)
    (s : List Char) :
    typeKeywords? (word ++ s) = (typeGap? s).map fun (gap, rest) => (word ++ gap, rest) := by
  have hfind : [importWord, exportWord].findSome? (fun keyword =>
      (List.isPrefixOf? keyword (word ++ s)).map (keyword, ·)) = some (word, s) := by
    rcases hword with rfl | rfl
    · rw [List.findSome?_cons, Text.isPrefixOf?_append]
      rfl
    · have hnone : List.isPrefixOf? importWord (exportWord ++ s) = none := rfl
      rw [List.findSome?_cons, hnone, Option.map_none, List.findSome?_cons,
        Text.isPrefixOf?_append]
      rfl
  unfold typeKeywords? typeGap?
  rw [hfind, show "type".toList = typeWord from rfl]
  dsimp only [bind, Option.bind]
  cases List.isPrefixOf? typeWord (s.dropWhile Text.isBlank) with
  | none => rfl
  | some after =>
    dsimp only
    split
    · rw [Option.map_some]
      simp only [List.append_assoc]
    · rfl

/-- The word `type` with blanks around it is cut off alike whatever follows, if that begins no
other word. -/
theorem typeGap?_append (s : List Char) {t : List Char} (ht : t.head? = some 'f') :
    typeGap? (s ++ t) = (typeGap? s).map fun (gap, rest) => (gap, rest ++ t) := by
  obtain ⟨t, rfl⟩ : ∃ rest, t = 'f' :: rest := by
    cases t with
    | nil => cases ht
    | cons c t => exact ⟨t, by rw [Option.some.inj ht]⟩
  have hdrop (s : List Char) : (s ++ 'f' :: t).dropWhile Text.isBlank =
      s.dropWhile Text.isBlank ++ 'f' :: t := by
    rw [List.dropWhile_append]
    split
    · rename_i hnil
      rw [List.isEmpty_iff.1 hnil, List.dropWhile_cons_of_neg (by decide), List.nil_append]
    · rfl
  have htake (s : List Char) : (s ++ 'f' :: t).takeWhile Text.isBlank =
      s.takeWhile Text.isBlank := by
    rw [List.takeWhile_append]
    split
    · rename_i hall
      rw [List.takeWhile_cons_of_neg (by decide), List.append_nil]
      exact ((List.takeWhile_prefix _).eq_of_length hall).symm
    · rfl
  have hprefix (s : List Char) : List.isPrefixOf? typeWord (s ++ 'f' :: t) =
      (List.isPrefixOf? typeWord s).map (· ++ 'f' :: t) := by
    by_cases hfront : typeWord <+: s
    · obtain ⟨rest, rfl⟩ := hfront
      rw [List.append_assoc, Text.isPrefixOf?_append, Text.isPrefixOf?_append]
      rfl
    · rw [Text.isPrefixOf?_eq_none hfront,
        Text.isPrefixOf?_eq_none fun h => hfront ((Text.isPrefix_append_iff (by decide)).1 h)]
      rfl
  unfold typeGap?
  rw [hdrop, htake, hprefix]
  cases List.isPrefixOf? typeWord (s.dropWhile Text.isBlank) with
  | none => rfl
  | some after =>
    dsimp only [Option.map_some]
    rw [hdrop, htake]
    split
    · rfl
    · rfl

theorem split_of_typeGap? {s gap rest : List Char} (h : typeGap? s = some (gap, rest)) :
    s = gap ++ rest ∧ ∃ c, gap.getLast? = some c ∧ Text.isBlank c = true := by
  unfold typeGap? at h
  split at h
  · cases h
  · rename_i after hafter
    split at h
    · rename_i hblanks
      obtain ⟨rfl, rfl⟩ := Prod.mk.inj (Option.some.inj h)
      constructor
      · rw [List.append_assoc, List.takeWhile_append_dropWhile, List.append_assoc,
          ← Text.eq_append_of_isPrefixOf? hafter, List.takeWhile_append_dropWhile]
      · refine ⟨_, ?_, List.mem_takeWhile_imp (List.getLast_mem hblanks.2)⟩
        rw [List.getLast?_append, List.getLast?_eq_some_getLast hblanks.2, Option.some_or]
    · cases h

theorem typeGap?_before {gap : List Char} {spec : Quoted} (hgap : IsGap gap)
    (hspec : spec.IsSpecifier) (rest : List Char) : typeGap? (gap ++ spec.before rest) = none := by
  have hprefix : ¬typeWord <+: spec.before rest := by
    rintro ⟨tail, htail⟩
    obtain hquote : 't' = spec.quote := (List.cons.inj htail).1
    exact absurd hspec.quote (by rw [← hquote]; decide)
  unfold typeGap?
  rw [dropWhile_isBlank_append _ hgap.blank, (hspec.begins rest).dropWhile,
    Text.isPrefixOf?_eq_none hprefix]

theorem typeGap?_declared {gap gap' body : List Char} (hgap : IsGap gap ∧ gap ≠ [])
    (hgap' : IsGap gap' ∧ gap' ≠ []) (hbody : IsDeclared body) (rest : List Char) :
    typeGap? (gap ++ (typeWord ++ (gap' ++ (body ++ rest)))) =
      some (gap ++ typeWord ++ gap', body ++ rest) := by
  have hword : Begins (typeWord ++ (gap' ++ (body ++ rest))) := by
    intro d hd
    obtain rfl : 't' = d := Option.some.inj hd
    decide
  have hfirst : Begins (body ++ rest) := by
    intro d hd
    have hbegins := hbody.begins
    cases body with
    | nil => cases hbegins
    | cons c body =>
      obtain rfl := Option.some.inj hd
      simpa using hbegins
  unfold typeGap?
  rw [dropWhile_isBlank_append _ hgap.1.blank, hword.dropWhile, Text.isPrefixOf?_append,
    takeWhile_isBlank_append _ hgap.1.blank, hword.takeWhile, List.append_nil]
  dsimp only
  rw [takeWhile_isBlank_append _ hgap'.1.blank, hfirst.takeWhile, List.append_nil,
    dropWhile_isBlank_append _ hgap'.1.blank, hfirst.dropWhile, if_pos ⟨hgap.2, hgap'.2⟩]

theorem semicolon_mem_declared {gap gap' body : List Char} (hgap : IsGap gap) (hgap' : IsGap gap') :
    ';' ∈ (Statement.declared gap gap' body).text ↔ ';' ∈ body := by
  have hgapNone : ';' ∉ gap := notMem_of_blank hgap.blank (by decide)
  have hgapNone' : ';' ∉ gap' := notMem_of_blank hgap'.blank (by decide)
  have hwords : ';' ∉ exportWord ∧ ';' ∉ typeWord := by decide
  simp only [Statement.text, List.mem_append, hgapNone, hgapNone', hwords.1, hwords.2, false_or]

/-- The type-only statement that a keyword begins, if one does. -/
theorem typeStatement?_word {word : List Char} (hword : word = importWord ∨ word = exportWord)
    (s : List Char) : typeStatement? (word ++ s) = (typeGap? s).bind fun (gap, rest) =>
      (throughFrom? none rest).map fun (clause, after) =>
        (word ++ gap ++ clause ++ (statementEnd after).1, (statementEnd after).2) := by
  have hbegins : Begins (word ++ s) := by
    intro c hc
    rcases hword with rfl | rfl
    · obtain rfl : 'i' = c := Option.some.inj hc
      decide
    · obtain rfl : 'e' = c := Option.some.inj hc
      decide
  unfold typeStatement?
  rw [hbegins.takeWhile, hbegins.dropWhile, typeKeywords?_word hword]
  cases hgap : typeGap? s with
  | none => rfl
  | some found =>
    obtain ⟨gap, rest⟩ := found
    obtain ⟨-, c, hlast, hblank⟩ := split_of_typeGap? hgap
    have hprev : Text.isWordAt (word ++ gap).getLast? = Text.isWordAt none := by
      rw [List.getLast?_append, hlast]
      exact isWord_of_isBlank hblank
    dsimp only [Option.map_some, bind, Option.bind]
    rw [throughFrom?_congr hprev]
    cases throughFrom? none rest with
    | none => rfl
    | some found => rfl

/-- What is taken out where a line begins, where the lines behind it are known. -/
def TakesTo (found : Option (List Char × List Char)) : Option (List Line) → Prop
  | none => found = none
  | some after => IsModule after ∧ ∃ taken, found = some (taken, source after) ∧
      (taken.getLast? = some '\n' ∨ after = [])

theorem takesTo_of_runsTo {word s gap rest : List Char}
    (hword : word = importWord ∨ word = exportWord) (hgap : typeGap? s = some (gap, rest))
    {after : Option (List Line)} (h : RunsTo (throughFrom? none rest) after) :
    TakesTo (typeStatement? (word ++ s)) after := by
  rw [typeStatement?_word hword, hgap]
  dsimp only [Option.bind]
  cases after with
  | none =>
    have hnone : throughFrom? none rest = none := h
    rw [hnone]
    rfl
  | some after =>
    obtain ⟨clause, closed, ending, hending, hfound⟩ := h
    rw [hfound, Option.map_some]
    dsimp only
    rw [hending.statementEnd]
    refine ⟨hending.module, _, rfl, ?_⟩
    rcases hending.cases with rfl | rfl | ⟨-, hnil⟩
    · left
      rw [List.getLast?_append, List.getLast?_append]
      rfl
    · left
      rw [List.getLast?_append, List.getLast?_append]
      rfl
    · exact .inr hnil

/-- What is taken out where a line begins: the line with those that go with it, or nothing. -/
theorem typeStatement?_source {line : Line} {rest : List Line} (h : IsModule (line :: rest)) :
    TakesTo (typeStatement? (source (line :: rest))) (line.behind? rest) := by
  have hending := h.ending
  have hcomplete := h.1
  rw [source, List.flatMap_cons, List.append_assoc]
  show TakesTo (typeStatement? (line.statement.text ++ (line.ending ++ source rest))) _
  unfold Line.behind?
  cases hstatement : line.statement with
  | effect gap spec closed =>
    rw [hstatement] at hcomplete
    obtain ⟨hgap, hspec⟩ := hcomplete
    rw [Statement.text, List.append_assoc importWord, List.append_assoc, List.append_assoc,
      spec.before_append, typeStatement?_word (.inl rfl), typeGap?_before hgap hspec]
    rfl
  | clause word names gap spec closed =>
    rw [hstatement] at hcomplete
    obtain ⟨hword, hnames, hgap, hspec⟩ := hcomplete
    have htext : (Statement.clause word names gap spec closed).text ++
        (line.ending ++ source rest) = word ++ (names ++ (fromWord ++ gap ++
          spec.before (semicolon closed ++ (line.ending ++ source rest)))) := by
      rw [← spec.before_append]
      simp only [Statement.text, List.append_assoc]
    have happend := typeGap?_append names (t := fromWord ++ gap ++
      spec.before (semicolon closed ++ (line.ending ++ source rest))) rfl
    have hisLed : (Statement.clause word names gap spec closed).isLedByType =
        (typeGap? names).isSome := rfl
    rw [htext]
    obtain hled | ⟨⟨front, more⟩, hled⟩ := Option.eq_none_or_eq_some (typeGap? names)
    · rw [hled, Option.map_none] at happend
      rw [if_neg (by simp [hisLed, hled]), typeStatement?_word hword, happend]
      rfl
    · rw [hled, Option.map_some] at happend
      rw [if_pos (by simp [hisLed, hled])]
      -- The run begins behind the word `type` and ends with the clause of this very line.
      apply takesTo_of_runsTo hword happend
      obtain ⟨hsplit, -⟩ := split_of_typeGap? hled
      have hclause : ∀ c ∈ more, inClause c = true := fun c hc =>
        (hnames.inside c (hsplit ▸ List.mem_append_right _ hc)).1
      have hlast : Text.isWordAt more.getLast? = false := by
        cases hmore : more.getLast? with
        | none => rfl
        | some c =>
          have hword := hnames.last
          rwa [hsplit, List.getLast?_append, hmore, Option.some_or] at hword
      exact throughFrom?_names hclause hlast hgap hspec hending
  | declared gap gap' body =>
    rw [hstatement] at hcomplete
    obtain ⟨hgap, hne, hgap', hne', hbody⟩ := hcomplete
    have hrun : RunsTo (throughFrom? none (body ++ (line.ending ++ source rest)))
        (if ';' ∈ (Statement.declared gap gap' body).text then none else behindFrom rest) := by
      rw [throughFrom?_append hending.atEnd hbody.noFrom]
      by_cases hclosed : ';' ∈ body
      · rw [if_pos hclosed, if_pos ((semicolon_mem_declared hgap hgap').2 hclosed)]
        rfl
      · rw [if_neg hclosed, if_neg fun h => hclosed ((semicolon_mem_declared hgap hgap').1 h),
          hending.throughFrom?]
        exact ((throughFrom?_source h.2.2).behind _).behind _
    have htext : (Statement.declared gap gap' body).text ++ (line.ending ++ source rest) =
        exportWord ++ (gap ++ (typeWord ++ (gap' ++ (body ++ (line.ending ++ source rest))))) := by
      simp only [Statement.text, List.append_assoc]
    rw [htext]
    exact takesTo_of_runsTo (.inr rfl) (typeGap?_declared ⟨hgap, hne⟩ ⟨hgap', hne'⟩ hbody _) hrun

/-! ## What is left -/

theorem source_append (before after : List Line) :
    source (before ++ after) = source before ++ source after := List.flatMap_append

theorem source_cons (line : Line) (rest : List Line) :
    source (line :: rest) = line.statement.text ++ (line.ending ++ source rest) := by
  rw [source, List.flatMap_cons, List.append_assoc]
  rfl

theorem Quoted.IsSpecifier.line {spec : Quoted} (h : spec.IsSpecifier) (closed : Bool) :
    '\n' ∉ spec.before (semicolon closed) := by
  have hquote : '\n' ≠ spec.quote := by
    intro hquote
    exact absurd h.quote (by rw [← hquote]; decide)
  have htext : '\n' ∉ spec.text := fun hmem => absurd (h.inside _ hmem) (by decide)
  have hsemicolon : '\n' ∉ semicolon closed := by
    cases closed with
    | true => decide
    | false => decide
  simp only [Quoted.before, List.mem_cons, List.mem_append, not_or]
  exact ⟨hquote, htext, hquote, hsemicolon⟩

/-- A statement stands in one line. -/
theorem Statement.IsComplete.line {s : Statement} (h : s.IsComplete) : '\n' ∉ s.text := by
  have hwords : '\n' ∉ importWord ∧ '\n' ∉ exportWord ∧ '\n' ∉ typeWord ∧ '\n' ∉ fromWord := by
    decide
  cases s with
  | effect gap spec closed =>
    simp only [Statement.text, List.mem_append, not_or]
    exact ⟨⟨hwords.1, h.1.notMem⟩, h.2.line closed⟩
  | clause word names gap spec closed =>
    obtain ⟨hword, hnames, hgap, hspecifier⟩ := h
    simp only [Statement.text, List.mem_append, not_or]
    refine ⟨⟨?_, fun hmem => (hnames.inside _ hmem).2 rfl⟩, ⟨hwords.2.2.2, hgap.notMem⟩,
      hspecifier.line closed⟩
    rcases hword with rfl | rfl
    · exact hwords.1
    · exact hwords.2.1
  | declared gap gap' body =>
    obtain ⟨hgap, -, hgap', -, hbody⟩ := h
    simp only [Statement.text, List.mem_append, not_or]
    exact ⟨⟨⟨⟨hwords.2.1, hgap.notMem⟩, hwords.2.2.1⟩, hgap'.notMem⟩, hbody.line⟩

/-- A line in which no statement is taken out is kept. -/
theorem IsEnding.dropTypesFrom {ending : List Char} {rest : List Line} (h : IsEnding ending rest)
    {text : List Char} (hne : text ≠ []) (hline : '\n' ∉ text)
    (hnone : typeStatement? (text ++ (ending ++ source rest)) = none) :
    dropTypesFrom none (text ++ (ending ++ source rest)) =
      text ++ (ending ++ Script.dropTypesFrom none (source rest)) := by
  rcases h.cases with rfl | rfl | ⟨rfl, rfl⟩
  · exact dropTypesFrom_line hne hline hnone
  · have hreturn : '\n' ∉ text ++ ['\r'] := by
      rw [List.mem_append, not_or]
      exact ⟨hline, by decide⟩
    have hsplit (t : List Char) : text ++ (['\r', '\n'] ++ t) = text ++ ['\r'] ++ '\n' :: t := by
      simp
    rw [hsplit] at hnone ⊢
    rw [hsplit]
    exact dropTypesFrom_line (List.append_ne_nil_of_left_ne_nil hne _) hreturn hnone
  · have hsource : text ++ ([] ++ source []) = text := by
      rw [List.nil_append]
      exact List.append_nil _
    rw [hsource] at hnone ⊢
    rw [dropTypesFrom_last hne hline hnone]
    show _ = text ++ ([] ++ Script.dropTypesFrom none [])
    rw [Script.dropTypesFrom, List.nil_append, List.append_nil]

/-- What is left of a module is its lines that are kept. -/
theorem dropTypeImports_source {lines : List Line} (h : IsModule lines) :
    dropTypeImports (source lines) = source (kept lines) := by
  show dropTypesFrom none (source lines) = source (kept lines)
  fun_induction kept lines with
  | case1 =>
    show dropTypesFrom none [] = []
    rw [dropTypesFrom]
  | case2 line rest after hbehind ih =>
    have htakes := typeStatement?_source h
    rw [hbehind] at htakes
    obtain ⟨hmodule, taken, hstatement, hlast⟩ := htakes
    rw [dropTypesFrom_statement hstatement, ← ih hmodule]
    rcases hlast with hlast | rfl
    · rw [hlast, dropTypesFrom_newline]
    · show dropTypesFrom taken.getLast? [] = dropTypesFrom none []
      rw [dropTypesFrom, dropTypesFrom]
  | case3 line rest hbehind ih =>
    have hnone := typeStatement?_source h
    rw [hbehind] at hnone
    have hnone : typeStatement? (source (line :: rest)) = none := hnone
    rw [source_cons] at hnone
    rw [source_cons, source_cons, ← ih h.2.2]
    obtain ⟨c, tail, htext, -⟩ := h.1.begins
    exact h.ending.dropTypesFrom (htext ▸ List.cons_ne_nil c tail) h.1.line hnone

end Waymark.Script
