import Waymark.Proofs.Script.TypeRuns
/-!
# Modules of one statement a line

A module whose lines are imports, re-exports and type-only statements, with semicolons or without.
Such a line is taken out in two cases: its names begin with the word `type` between blanks, or an
earlier line declares a type, holds no semicolon, and none stands between it and the next `from`
clause.  In the second case all lines up to this clause go, whatever they are.

## Main results

* `kept` — the lines of a module that are kept.
* `IsEnding.atEnd` — what follows a statement does not go on with it.
* `IsEnding.statementEnd` — the end of a statement is the end of its line.
-/

namespace Waymark.Script

/-! ## Statements -/

/-- The word that begins a type-only statement behind `import` or `export`. -/
def typeWord : List Char := "type".toList

/-- The word `type` and the blanks around it at the start of a text, and what follows. -/
def typeGap? (s : List Char) : Option (List Char × List Char) :=
  match List.isPrefixOf? typeWord (s.dropWhile Text.isBlank) with
  | none => none
  | some after =>
    if s.takeWhile Text.isBlank ≠ [] ∧ after.takeWhile Text.isBlank ≠ [] then
      some (s.takeWhile Text.isBlank ++ typeWord ++ after.takeWhile Text.isBlank,
        after.dropWhile Text.isBlank)
    else none

/-- A specifier between two quotes of one kind. -/
structure Quoted where
  quote : Char
  text : List Char
  deriving DecidableEq, Repr

/-- The text of a quoted specifier and what follows it. -/
def Quoted.before (spec : Quoted) (rest : List Char) : List Char :=
  spec.quote :: (spec.text ++ spec.quote :: rest)

/-- A semicolon, if there is one. -/
def semicolon (closed : Bool) : List Char := if closed then [';'] else []

/-- A statement that stands in a line of its own. -/
inductive Statement where
  /-- An import for its effects: the blanks behind `import`, and the specifier. -/
  | effect (gap : List Char) (spec : Quoted) (closed : Bool)
  /-- An import or a re-export of names: the keyword, the names, and behind `from` the specifier. -/
  | clause (word names gap : List Char) (spec : Quoted) (closed : Bool)
  /-- A type that is declared: what stands behind `export` and `type`, with any semicolons. -/
  | declared (gap gap' body : List Char)
  deriving DecidableEq, Repr

namespace Statement

/-- The text of a statement. -/
def text : Statement → List Char
  | effect gap spec closed => importWord ++ gap ++ spec.before (semicolon closed)
  | clause word names gap spec closed =>
    word ++ names ++ (fromWord ++ gap ++ spec.before (semicolon closed))
  | declared gap gap' body => exportWord ++ gap ++ typeWord ++ gap' ++ body

/-- Whether a statement has a `from` clause. -/
def holdsFrom : Statement → Bool
  | clause .. => true
  | _ => false

/-- Whether the names of a statement begin with the word `type` between blanks. -/
def isLedByType : Statement → Bool
  | clause _ names _ _ _ => (typeGap? names).isSome
  | _ => false

/-- Whether a statement has a value: an import of types only has none, but in an import `type` is
the name of the default binding where nothing or a comma follows it. -/
def isValue : Statement → Bool
  | effect .. => true
  | clause word names _ _ _ =>
    match typeGap? names with
    | none => true
    | some (_, rest) => word = importWord && rest.head?.all (· = ',')
  | declared .. => false

/-- Whether a statement declares a type and holds no semicolon. -/
def isOpen : Statement → Bool
  | declared gap gap' body => ';' ∉ (declared gap gap' body).text
  | _ => false

/-- What stands before the specifier of a statement, and the specifier. -/
def import? : Statement → Option (List Char × Quoted)
  | effect gap spec _ => some (importWord ++ gap, spec)
  | clause word names gap spec _ => some (word ++ names ++ (fromWord ++ gap), spec)
  | declared .. => none

end Statement

/-- Blanks within a line. -/
def IsGap (gap : List Char) : Prop := ∀ c ∈ gap, Text.isBlank c = true ∧ c ≠ '\n'

/-- A text that can stand between quotes as a specifier. -/
structure Quoted.IsSpecifier (spec : Quoted) : Prop where
  quote : isQuote spec.quote = true
  ne_nil : spec.text ≠ []
  inside : ∀ c ∈ spec.text, inSpecifier c = true

/-- Names between a keyword and `from`, each of which is a word of its own. -/
structure IsNames (names : List Char) : Prop where
  inside : ∀ c ∈ names, inClause c = true ∧ c ≠ '\n'
  ne_nil : names ≠ []
  head : Text.isWordAt names.head? = false
  last : Text.isWordAt names.getLast? = false

/-- What can stand behind `export type`: a declaration in one line, in which nothing that looks like
a `from` clause stands, as it may in the text of a literal type. -/
structure IsDeclared (body : List Char) : Prop where
  line : '\n' ∉ body
  begins : body.head?.any (!Text.isBlank ·) = true
  noFrom : throughFrom? none body = none

/-- A statement that is complete. -/
def Statement.IsComplete : Statement → Prop
  | .effect gap spec _ => IsGap gap ∧ spec.IsSpecifier
  | .clause word names gap spec _ =>
    (word = importWord ∨ word = exportWord) ∧ IsNames names ∧ IsGap gap ∧ spec.IsSpecifier
  | .declared gap gap' body =>
    IsGap gap ∧ gap ≠ [] ∧ IsGap gap' ∧ gap' ≠ [] ∧ IsDeclared body

instance (gap : List Char) : Decidable (IsGap gap) :=
  List.decidableBAll (fun c => Text.isBlank c = true ∧ c ≠ '\n') gap

instance (spec : Quoted) : Decidable spec.IsSpecifier :=
  decidable_of_iff (isQuote spec.quote = true ∧ spec.text ≠ [] ∧
      spec.text.all inSpecifier = true)
    ⟨fun ⟨quote, ne_nil, inside⟩ => ⟨quote, ne_nil, List.all_eq_true.1 inside⟩,
      fun h => ⟨h.quote, h.ne_nil, List.all_eq_true.2 h.inside⟩⟩

instance (names : List Char) : Decidable (IsNames names) :=
  have := List.decidableBAll (fun c => inClause c = true ∧ c ≠ '\n') names
  decidable_of_iff ((∀ c ∈ names, inClause c = true ∧ c ≠ '\n') ∧ names ≠ [] ∧
      Text.isWordAt names.head? = false ∧ Text.isWordAt names.getLast? = false)
    ⟨fun ⟨inside, ne_nil, head, last⟩ => ⟨inside, ne_nil, head, last⟩,
      fun h => ⟨h.inside, h.ne_nil, h.head, h.last⟩⟩

instance (body : List Char) : Decidable (IsDeclared body) :=
  decidable_of_iff ('\n' ∉ body ∧ body.head?.any (!Text.isBlank ·) = true ∧
      throughFrom? none body = none)
    ⟨fun ⟨line, begins, noFrom⟩ => ⟨line, begins, noFrom⟩, fun h => ⟨h.line, h.begins, h.noFrom⟩⟩

instance (s : Statement) : Decidable s.IsComplete :=
  match s with
  | .effect gap spec _ => inferInstanceAs (Decidable (IsGap gap ∧ spec.IsSpecifier))
  | .clause word names gap spec _ => inferInstanceAs (Decidable
      ((word = importWord ∨ word = exportWord) ∧ IsNames names ∧ IsGap gap ∧ spec.IsSpecifier))
  | .declared gap gap' body => inferInstanceAs (Decidable
      (IsGap gap ∧ gap ≠ [] ∧ IsGap gap' ∧ gap' ≠ [] ∧ IsDeclared body))

/-! ## Modules -/

/-- A line of a module: a statement, and what ends the line. -/
structure Line where
  statement : Statement
  ending : List Char
  deriving DecidableEq, Repr

/-- A module made of lines. -/
def source (lines : List Line) : List Char :=
  lines.flatMap fun line => line.statement.text ++ line.ending

/-- Whether lines make a module: all statements are complete, and every line but the last one has
an end. -/
def IsModule : List Line → Prop
  | [] => True
  | line :: rest => line.statement.IsComplete ∧
      (line.ending = ['\n'] ∨ line.ending = ['\r', '\n'] ∨ line.ending = [] ∧ rest = []) ∧
      IsModule rest

/-- Whether lines make a module is decided line by line. -/
def decideModule : (lines : List Line) → Decidable (IsModule lines)
  | [] => .isTrue trivial
  | line :: rest =>
    have := decideModule rest
    inferInstanceAs (Decidable (line.statement.IsComplete ∧ _ ∧ IsModule rest))

instance (lines : List Line) : Decidable (IsModule lines) := decideModule lines

/-- The lines behind the next `from` clause, unless a semicolon stands before it. -/
def behindFrom : List Line → Option (List Line)
  | [] => none
  | line :: rest =>
    if line.statement.holdsFrom then some rest
    else if ';' ∈ line.statement.text then none
    else behindFrom rest

/-- Where a line is taken out, the lines behind what goes with it. -/
def Line.behind? (line : Line) (rest : List Line) : Option (List Line) :=
  match line.statement with
  | .effect .. => none
  | .clause .. => if line.statement.isLedByType then some rest else none
  | .declared .. => if ';' ∈ line.statement.text then none else behindFrom rest

theorem suffix_of_behindFrom {lines rest : List Line} (h : behindFrom lines = some rest) :
    rest <:+ lines ∧ rest.length < lines.length := by
  induction lines with
  | nil => cases h
  | cons line lines ih =>
    rw [behindFrom] at h
    split at h
    · obtain rfl := Option.some.inj h
      exact ⟨List.suffix_cons line lines, Nat.lt_succ_self _⟩
    · split at h
      · cases h
      · obtain ⟨hsuffix, hlength⟩ := ih h
        exact ⟨hsuffix.trans (List.suffix_cons line lines), Nat.lt_succ_of_lt hlength⟩

theorem suffix_of_behind? {line : Line} {rest after : List Line}
    (h : line.behind? rest = some after) : after <:+ rest := by
  unfold Line.behind? at h
  split at h
  · cases h
  · split at h
    · obtain rfl := Option.some.inj h
      exact List.suffix_refl _
    · cases h
  · split at h
    · cases h
    · exact (suffix_of_behindFrom h).1

/-- The lines of a module that are kept. -/
def kept : List Line → List Line
  | [] => []
  | line :: rest =>
    match _h : line.behind? rest with
    | some after => kept after
    | none => line :: kept rest
termination_by lines => lines.length
decreasing_by
  · exact Nat.lt_succ_of_le (suffix_of_behind? _h).length_le
  · exact Nat.lt_succ_self _

/-! ## Where lines begin and end -/

theorem IsGap.blank {gap : List Char} (h : IsGap gap) : ∀ c ∈ gap, Text.isBlank c = true :=
  fun c hc => (h c hc).1

theorem IsGap.notMem {gap : List Char} (h : IsGap gap) : '\n' ∉ gap :=
  fun hc => (h '\n' hc).2 rfl

theorem IsModule.of_suffix {lines rest : List Line} (h : IsModule lines) (hrest : rest <:+ lines) :
    IsModule rest := by
  induction lines with
  | nil => rwa [List.suffix_nil.1 hrest]
  | cons line lines ih =>
    rcases List.suffix_cons_iff.1 hrest with rfl | hrest
    · exact h
    · exact ih h.2.2 hrest

/-- A statement begins with a keyword. -/
theorem Statement.IsComplete.begins {s : Statement} (h : s.IsComplete) :
    ∃ c rest, s.text = c :: rest ∧ (c = 'i' ∨ c = 'e') := by
  cases s with
  | effect gap spec closed => exact ⟨'i', _, rfl, .inl rfl⟩
  | clause word names gap spec closed =>
    rcases h.1 with rfl | rfl
    · exact ⟨'i', _, rfl, .inl rfl⟩
    · exact ⟨'e', _, rfl, .inr rfl⟩
  | declared gap gap' body => exact ⟨'e', _, rfl, .inr rfl⟩

theorem IsModule.head {lines : List Line} (h : IsModule lines) {c : Char}
    (hc : c ∈ (source lines).head?) : c = 'i' ∨ c = 'e' := by
  cases lines with
  | nil => cases hc
  | cons line rest =>
    obtain ⟨d, tail, htext, hd⟩ := h.1.begins
    have hhead : (source (line :: rest)).head? = some d := by
      rw [source, List.flatMap_cons, htext]
      rfl
    rw [hhead] at hc
    exact Option.some.inj hc ▸ hd

theorem IsModule.begins {lines : List Line} (h : IsModule lines) : Begins (source lines) := by
  intro c hc
  rcases h.head hc with rfl | rfl
  · decide
  · decide

/-- What follows a statement in its module: the end of its line, and the other lines. -/
structure IsEnding (ending : List Char) (rest : List Line) : Prop where
  cases : ending = ['\n'] ∨ ending = ['\r', '\n'] ∨ ending = [] ∧ rest = []
  module : IsModule rest

theorem IsModule.ending {line : Line} {rest : List Line} (h : IsModule (line :: rest)) :
    IsEnding line.ending rest :=
  ⟨h.2.1, h.2.2⟩

theorem IsEnding.blank {ending : List Char} {rest : List Line} (h : IsEnding ending rest) :
    ∀ c ∈ ending, Text.isBlank c = true := by
  rcases h.cases with rfl | rfl | ⟨rfl, -⟩
  · exact Text.forall_mem_of_all (P := (Text.isBlank · = true)) (by decide)
  · exact Text.forall_mem_of_all (P := (Text.isBlank · = true)) (by decide)
  · exact List.forall_mem_nil _

theorem IsEnding.atEnd {ending : List Char} {rest : List Line} (h : IsEnding ending rest) :
    AtEnd (ending ++ source rest) where
  head := by
    intro c hc
    rcases h.cases with rfl | rfl | ⟨rfl, rfl⟩
    · exact .inr (Option.some.inj hc).symm
    · exact .inl (Option.some.inj hc).symm
    · cases hc
  next := by
    rw [dropWhile_isBlank_append _ h.blank, h.module.begins.dropWhile]
    intro c hc
    rcases h.module.head hc with rfl | rfl
    · decide
    · decide

/-- A run goes on in the next line. -/
theorem IsEnding.throughFrom? {ending : List Char} {rest : List Line} (h : IsEnding ending rest)
    (prev : Option Char) : throughFrom? prev (ending ++ source rest) =
      (Script.throughFrom? none (source rest)).map (behind ending) := by
  have hskip (hf : 'f' ∉ ending) (hs : ';' ∉ ending) (hlast : ending.getLast? = some '\n') :
      Script.throughFrom? prev (ending ++ source rest) =
        (Script.throughFrom? none (source rest)).map (behind ending) := by
    rw [throughFrom?_skip hf hs, hlast, Option.some_or,
      throughFrom?_congr (show Text.isWordAt (some '\n') = Text.isWordAt none by decide)]
  rcases h.cases with rfl | rfl | ⟨rfl, rfl⟩
  · exact hskip (by decide) (by decide) rfl
  · exact hskip (by decide) (by decide) rfl
  · unfold Script.throughFrom?
    rw [show fromClause? ([] ++ source []) = none from rfl, ite_self,
      show fromClause? (source []) = none from rfl, ite_self]
    rfl

/-- The end of a statement is the end of its line. -/
theorem IsEnding.statementEnd {ending : List Char} {rest : List Line} (h : IsEnding ending rest)
    (closed : Bool) : statementEnd (semicolon closed ++ (ending ++ source rest)) =
      (semicolon closed ++ ending, source rest) := by
  have hbegins := h.module.begins
  cases closed with
  | true =>
    have hend : Script.statementEnd (';' :: (ending ++ source rest)) =
        (';' :: ending, source rest) := by
      unfold Script.statementEnd
      rw [List.takeWhile_cons_of_neg (by decide), List.dropWhile_cons_of_neg (by decide)]
      rcases h.cases with rfl | rfl | ⟨rfl, rfl⟩
      · rfl
      · rfl
      · rfl
    exact hend
  | false =>
    have hblank : (ending ++ source rest).dropWhile Text.isBlank = source rest := by
      rw [dropWhile_isBlank_append _ h.blank, hbegins.dropWhile]
    have htake : (ending ++ source rest).takeWhile Text.isBlank = ending := by
      rw [takeWhile_isBlank_append _ h.blank, hbegins.takeWhile, List.append_nil]
    have hnone {c : Char} (hc : c ≠ 'i' ∧ c ≠ 'e') : optional c (source rest) = ([], source rest) := by
      cases hsource : source rest with
      | nil => rfl
      | cons d tail =>
        have hd := h.module.head (show d ∈ (source rest).head? by rw [hsource]; rfl)
        have hne : d ≠ c := by
          rcases hd with rfl | rfl
          · exact Ne.symm hc.1
          · exact Ne.symm hc.2
        exact if_neg hne
    have hinline : (source rest).dropWhile isInlineBlank = source rest ∧
        (source rest).takeWhile isInlineBlank = [] := by
      cases hsource : source rest with
      | nil => exact ⟨rfl, rfl⟩
      | cons d tail =>
        have hd := h.module.head (show d ∈ (source rest).head? by rw [hsource]; rfl)
        have hinline : ¬isInlineBlank d = true := by
          rcases hd with rfl | rfl
          · decide
          · decide
        exact ⟨List.dropWhile_cons_of_neg hinline, List.takeWhile_cons_of_neg hinline⟩
    unfold Script.statementEnd semicolon
    rw [if_neg Bool.false_ne_true, List.nil_append, hblank, htake]
    dsimp only
    rw [hnone (by decide), hinline.1, hinline.2, hnone (by decide), hnone (by decide)]
    simp

end Waymark.Script
