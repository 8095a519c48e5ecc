import Waymark.Proofs.Script.ExportLines
import Waymark.Proofs.Script.Lines
/-!
# The exports of a module

A module is a sequence of lines, each of which begins with one export or does not begin with the
word `export`.  The exports are found line by line: what is left of a line when its export has been
read is passed over up to the end of the line, and blank lines in front of an export only make the
text longer that is read with it.

## Main results

* `exportsFrom_other`, `exportsFrom_export` — what one line adds to the exports.
* `readNames_furtherText` — the names that all lines export, line by line.
* `exportNames_lines` — the names that such a module exports, each once and in order.
-/

namespace Waymark.Script

/-! ## Lines -/

/-- Whether a line begins with the word `export`. -/
def beginsExport (line : List Char) : Bool :=
  match List.isPrefixOf? exportWord (line.dropWhile Text.isBlank) with
  | some rest => !rest.head?.any inName
  | none => false

/-- A line that does not begin with the word `export`. -/
structure OtherLine where
  text : List Char
  oneLine : '\n' ∉ text
  isOther : beginsExport text = false

/-- A line that begins with an export. -/
structure ExportLine where
  indent : List Char
  gap : Gap
  form : Form
  rest : List Char
  indent_isGap : IsGap indent
  oneLine : '\n' ∉ rest
  ends : form.endsBefore rest = true

/-- The text of a line with an export. -/
def ExportLine.text (line : ExportLine) : List Char :=
  line.indent ++ (exportWord ++ (line.gap.chars ++ (line.form.chars ++ line.rest)))

/-- A line of a module. -/
inductive SourceLine where
  | other (line : OtherLine)
  | exporting (line : ExportLine)

/-- The text of a line. -/
def SourceLine.text : SourceLine → List Char
  | other line => line.text
  | exporting line => line.text

/-- The export that a line begins with. -/
def SourceLine.form? : SourceLine → Option Form
  | other _ => none
  | exporting line => some line.form

/-- The text of a module. -/
def moduleText (lines : List SourceLine) : List Char :=
  Text.joinPieces '\n' (lines.map SourceLine.text)

/-- The text of further lines, each behind a line feed. -/
def furtherText (lines : List SourceLine) : List Char :=
  (lines.map SourceLine.text).flatMap ('\n' :: ·)

/-! ## What is read of an export -/

theorem suffix_of_spacedName? {s n rest : List Char} (h : spacedName? s = some (n, rest)) :
    rest <:+ s := by
  unfold spacedName? at h
  split at h
  · cases h
  · split at h
    · rename_i c tail hdrop
      split at h
      · obtain ⟨-, rfl⟩ := Prod.mk.inj (Option.some.inj h)
        exact (List.dropWhile_suffix _).trans ((List.suffix_cons c tail).trans
          (hdrop ▸ List.dropWhile_suffix _))
      · cases h
    · cases h

theorem suffix_of_isPrefixOf? {word s rest : List Char}
    (h : List.isPrefixOf? word s = some rest) : rest <:+ s :=
  ⟨word, (Text.eq_append_of_isPrefixOf? h).symm⟩

theorem skipWord_suffix (word : String) (s : List Char) : skipWord word s <:+ s := by
  unfold skipWord
  split
  · rename_i rest hfound
    split
    · exact List.suffix_refl s
    · exact (List.dropWhile_suffix _).trans (suffix_of_isPrefixOf? hfound)
  · exact List.suffix_refl s

theorem suffix_of_functionName? {s n rest : List Char} (h : functionName? s = some (n, rest)) :
    rest <:+ s := by
  unfold functionName? at h
  split at h
  · cases h
  · rename_i tail hfound
    refine List.IsSuffix.trans ?_ (suffix_of_isPrefixOf? hfound)
    split at h
    · rename_i after hstar
      exact (suffix_of_spacedName? h).trans ((List.suffix_cons '*' after).trans
        (hstar ▸ List.dropWhile_suffix _))
    · exact suffix_of_spacedName? h

theorem suffix_of_bind_spacedName? {word s n rest : List Char}
    (h : (List.isPrefixOf? word s).bind spacedName? = some (n, rest)) : rest <:+ s := by
  obtain ⟨tail, hfound, hname⟩ := Option.bind_eq_some_iff.1 h
  exact (suffix_of_spacedName? hname).trans (suffix_of_isPrefixOf? hfound)

theorem suffix_of_declaredName? {s n rest : List Char} (h : declaredName? s = some (n, rest)) :
    rest <:+ s := by
  refine List.IsSuffix.trans ?_
    ((skipWord_suffix "async" (skipWord "declare" s)).trans (skipWord_suffix "declare" s))
  rw [declaredName?, Option.or_eq_some_iff] at h
  rcases h with h | ⟨-, h⟩
  · exact suffix_of_functionName? h
  · obtain ⟨word, -, hword⟩ := List.exists_of_findSome?_eq_some h
    exact suffix_of_bind_spacedName? hword

theorem suffix_of_namespaceName? {s n rest : List Char}
    (h : namespaceName? s = some (n, rest)) : rest <:+ s := by
  unfold namespaceName? at h
  split at h
  · rename_i tail
    split at h
    · cases h
    · exact (suffix_of_bind_spacedName? h).trans ((List.dropWhile_suffix _).trans
        (List.suffix_cons '*' tail))
  · cases h

theorem suffix_of_exportClause? {s after : List Char} {clause : ExportClause}
    (h : exportClause? s = some (clause, after)) : after <:+ s := by
  unfold exportClause? at h
  split at h
  · rename_i rest hdefault
    obtain ⟨-, rfl⟩ := Prod.mk.inj (Option.some.inj h)
    unfold defaultExport? at hdefault
    split at hdefault
    · rename_i tail hfound
      split at hdefault
      · cases hdefault
      · obtain rfl := Option.some.inj hdefault
        exact suffix_of_isPrefixOf? hfound
    · cases hdefault
  · split at h
    · rename_i n rest hname
      obtain ⟨-, rfl⟩ := Prod.mk.inj (Option.some.inj h)
      rcases Option.or_eq_some_iff.1 hname with hname | ⟨-, hname⟩
      · exact suffix_of_declaredName? hname
      · exact suffix_of_namespaceName? hname
    · split at h
      · rename_i rest hbrace
        obtain ⟨-, rfl⟩ := Prod.mk.inj (Option.some.inj h)
        exact suffix_of_isPrefixOf? hbrace
      · cases h

/-- At least the word `export` is read of an export. -/
theorem length_of_exportAt? {s after : List Char} {clause : ExportClause}
    (h : exportAt? s = some (clause, after)) : after <:+ s ∧ after.length < s.length := by
  unfold exportAt? at h
  split at h
  · rename_i rest hfound
    split at h
    · cases h
    · have hafter := (suffix_of_exportClause? h).trans (List.dropWhile_suffix _)
      have hword := Text.eq_append_of_isPrefixOf? hfound
      have hlength := congrArg List.length hword
      have hpos : 0 < exportWord.length := by decide
      have hdrop := (List.dropWhile_suffix Text.isBlank (l := s)).length_le
      have hle := hafter.length_le
      rw [List.length_append] at hlength
      exact ⟨hafter.trans ((suffix_of_isPrefixOf? hfound).trans (List.dropWhile_suffix _)),
        by omega⟩
  · cases h

/-! ## Steps -/

/-- Where a line begins: at the start of the text or behind a line feed. -/
def AtLineStart (prev : Option Char) : Prop := prev.all (· = '\n') = true

/-- Where a line ends: at the end of the text or in front of a line feed. -/
def AtLineEnd (tail : List Char) : Prop := ∀ c ∈ tail.head?, c = '\n'

theorem exportsFrom_cons_of_none {prev : Option Char} {c : Char} {s : List Char}
    (h : AtLineStart prev → exportAt? (c :: s) = none) :
    exportsFrom prev (c :: s) = exportsFrom (some c) s := by
  have hnone : (if prev.all (· = '\n') then exportAt? (c :: s) else none) = none := by
    split
    · exact h ‹_›
    · rfl
  rw [exportsFrom, hnone]

/-- Where no export begins, everything is passed over up to the end of the line.  What is not at the
start of a line makes no difference behind it. -/
theorem exportsFrom_pass {prev : Option Char} {c : Char} (hc : c ≠ '\n') {s tail : List Char}
    (hs : '\n' ∉ s) (h : AtLineStart prev → exportAt? (s ++ tail) = none) :
    exportsFrom prev (s ++ tail) = exportsFrom (some c) tail := by
  have hnot {d : Char} (hd : d ≠ '\n') : ¬AtLineStart (some d) := fun h =>
    hd (of_decide_eq_true h)
  induction s generalizing prev with
  | nil =>
    cases tail with
    | nil => rw [List.append_nil, exportsFrom, exportsFrom]
    | cons d tail =>
      rw [List.nil_append, exportsFrom_cons_of_none h,
        exportsFrom_cons_of_none fun hstart => absurd hstart (hnot hc)]
  | cons d s ih =>
    have hd : d ≠ '\n' := fun heq => hs (heq ▸ List.mem_cons_self ..)
    have hrest : '\n' ∉ s := fun hmem => hs (List.mem_cons_of_mem _ hmem)
    rw [List.cons_append] at h ⊢
    rw [exportsFrom_cons_of_none h]
    exact ih hrest fun hstart => absurd hstart (hnot hd)

theorem exportsFrom_lineFeed {c : Char} (hc : c ≠ '\n') (s : List Char) :
    exportsFrom (some c) ('\n' :: s) = exportsFrom (some '\n') s :=
  exportsFrom_cons_of_none fun h => absurd (of_decide_eq_true h) hc

/-- An export at the start of a line is found, and the text behind it is gone through next. -/
theorem exportsFrom_of_some {prev : Option Char} (hprev : AtLineStart prev) {s after : List Char}
    {clause : ExportClause} (h : exportAt? s = some (clause, after)) :
    exportsFrom prev s = (clause, after) ::
      exportsFrom (s.take (s.length - after.length)).getLast? after := by
  have hlength := (length_of_exportAt? h).2
  cases s with
  | nil => exact absurd hlength (Nat.not_lt_zero _)
  | cons c s =>
    have hstart : prev.all (· = '\n') = true := hprev
    rw [exportsFrom, if_pos hstart, h]
    dsimp only
    rw [if_pos hlength]

/-! ## Lines without an export -/

/-- Blanks do not stand in the way of an export. -/
theorem exportAt?_blank {blank : List Char} (hblank : ∀ c ∈ blank, Text.isBlank c = true)
    (s : List Char) : exportAt? (blank ++ s) = exportAt? s := by
  rw [exportAt?, exportAt?, dropWhile_isBlank_append _ hblank]

/-- A blank line adds nothing. -/
theorem exportsFrom_blank {prev : Option Char} (hprev : AtLineStart prev) {blank : List Char}
    (hblank : IsGap blank) (s : List Char) :
    exportsFrom prev (blank ++ '\n' :: s) = exportsFrom (some '\n') s := by
  have hall : ∀ c ∈ blank ++ ['\n'], Text.isBlank c = true :=
    List.forall_mem_append.2 ⟨hblank.blank, Text.forall_mem_of_all (by decide)⟩
  have hsame := exportAt?_blank hall s
  rw [List.append_assoc, List.singleton_append] at hsame
  have hfeed : AtLineStart (some '\n') := rfl
  have hletter : 'x' ≠ '\n' := by decide
  cases hfound : exportAt? s with
  | none =>
    rw [exportsFrom_pass hletter hblank.notMem fun _ => hsame.trans hfound,
      exportsFrom_lineFeed hletter]
  | some found =>
    obtain ⟨clause, after⟩ := found
    have hlength := (length_of_exportAt? hfound).2
    -- the export is read with the blank line in front of it, and ends with the same character
    have hcount : (blank ++ '\n' :: s).length - after.length =
        (blank ++ ['\n']).length + (s.length - after.length) := by
      simp only [List.length_append, List.length_cons, List.length_nil]
      omega
    have hne : s.take (s.length - after.length) ≠ [] := by
      rw [Ne, List.take_eq_nil_iff, not_or]
      refine ⟨by omega, ?_⟩
      rintro rfl
      exact Nat.not_lt_zero _ hlength
    rw [exportsFrom_of_some hprev (hsame.trans hfound), exportsFrom_of_some hfeed hfound, hcount,
      List.append_cons blank '\n' s, List.take_length_add_append, List.getLast?_append,
      Option.or_of_isSome (List.getLast?_isSome.2 hne)]

/-- What follows a line does not put a word in front of it. -/
theorem isPrefixOf?_atLineEnd {word : List Char} (hword : '\n' ∉ word) (s : List Char)
    {tail : List Char} (htail : AtLineEnd tail) :
    List.isPrefixOf? word (s ++ tail) = (List.isPrefixOf? word s).map (· ++ tail) := by
  cases tail with
  | nil =>
    simp only [List.append_nil]
    exact (Option.map_id' ..).symm
  | cons c tail =>
    obtain rfl := htail c rfl
    exact isPrefixOf?_line _ hword s

/-- A line that does not begin with `export` has no export in front, unless it is blank. -/
theorem OtherLine.exportAt?_eq_none (line : OtherLine) (hline : ¬IsGap line.text)
    {tail : List Char} (htail : AtLineEnd tail) : exportAt? (line.text ++ tail) = none := by
  have hsplit := List.takeWhile_append_dropWhile (p := Text.isBlank) (l := line.text)
  have hother := line.isOther
  have hbegins : Begins (line.text.dropWhile Text.isBlank ++ tail) := by
    have hhead := List.head?_dropWhile_not Text.isBlank line.text
    intro c hc
    cases hdrop : line.text.dropWhile Text.isBlank with
    | nil =>
      have hblank := List.dropWhile_eq_nil_iff.1 hdrop
      exact absurd (fun d hd => ⟨hblank d hd, fun heq => line.oneLine (heq ▸ hd)⟩) hline
    | cons d rest =>
      rw [hdrop] at hc hhead
      obtain rfl := Option.some.inj hc
      exact hhead
  rw [← hsplit, List.append_assoc, exportAt?_blank fun c hc => List.mem_takeWhile_imp hc,
    exportAt?, hbegins.dropWhile, isPrefixOf?_atLineEnd (by decide) _ htail]
  unfold beginsExport at hother
  split at hother
  · rename_i rest hfound
    -- the word goes on, so no blank follows
    have hgoes : rest.head?.any inName = true := by simpa using hother
    obtain ⟨c, rest, rfl⟩ : ∃ c after, rest = c :: after := by
      cases rest with
      | nil => cases hgoes
      | cons c after => exact ⟨c, after, rfl⟩
    have hblank : Text.isBlank c = false := isBlank_of_inName hgoes
    rw [hfound, Option.map_some, List.cons_append]
    exact if_pos (List.takeWhile_cons_of_neg (by simp [hblank]))
  · rename_i hfound
    rw [hfound]
    rfl

/-- A line that does not begin with `export` adds nothing. -/
theorem exportsFrom_other {prev : Option Char} (hprev : AtLineStart prev) {c : Char}
    (hc : c ≠ '\n') (line : OtherLine) {tail : List Char} (htail : AtLineEnd tail) :
    exportsFrom prev (line.text ++ tail) = exportsFrom (some c) tail := by
  by_cases hline : IsGap line.text
  · cases tail with
    | nil =>
      refine exportsFrom_pass hc line.oneLine fun _ => ?_
      rw [exportAt?_blank hline.blank]
      rfl
    | cons d tail =>
      obtain rfl := htail d rfl
      rw [exportsFrom_blank hprev hline, exportsFrom_lineFeed hc]
  · exact exportsFrom_pass hc line.oneLine fun _ => line.exportAt?_eq_none hline htail

/-! ## Lines with an export -/

theorem Form.exists_cons (form : Form) : ∃ c s, form.chars = c :: s ∧ Text.isBlank c = false := by
  cases form with
  | default => exact ⟨'d', "efault".toList, rfl, by decide⟩
  | declared word hword gap name =>
    have hheads : ∀ w ∈ declaringWords, w.toList.head?.any (!Text.isBlank ·) = true := by decide
    have hhead := hheads word hword
    show ∃ c s, word.toList ++ (gap.chars ++ name.chars) = c :: s ∧ Text.isBlank c = false
    cases hword : word.toList with
    | nil =>
      rw [hword] at hhead
      cases hhead
    | cons c s =>
      rw [hword] at hhead
      exact ⟨c, _, rfl, by simpa using hhead⟩
  | function async generator gap name =>
    cases async with
    | none => exact ⟨'f', _, rfl, by decide⟩
    | some gap => exact ⟨'a', _, rfl, by decide⟩
  | everything gap gap' name => exact ⟨'*', _, rfl, by decide⟩
  | list slots => exact ⟨'{', _, rfl, by decide⟩

theorem Form.begins (form : Form) (s : List Char) : Begins (form.chars ++ s) := by
  obtain ⟨c, t, hchars, hc⟩ := form.exists_cons
  rw [hchars]
  intro d hd
  obtain rfl := Option.some.inj hd
  exact hc

theorem Identifier.oneLine (n : Identifier) : '\n' ∉ n.chars := n.notMem_of_blank (by decide)

theorem Gap.oneLine (g : Gap) : '\n' ∉ g.chars := g.isGap.notMem

theorem Item.oneLine (item : Item) : '\n' ∉ item.chars := by
  cases item with
  | same name => exact name.oneLine
  | renamed name other isValue =>
    simp [Item.chars, name.oneLine, other.oneLine]
  | type name =>
    simp [Item.chars, name.oneLine]

theorem Slot.oneLine (slot : Slot) : '\n' ∉ slot.chars := by
  have hitem : '\n' ∉ (slot.item.map Item.chars).getD [] := by
    cases slot.item with
    | none => exact List.not_mem_nil
    | some item => exact item.oneLine
  simp [Slot.chars, slot.front_isGap.notMem, slot.back_isGap.notMem, hitem]

/-- An export stands in one line. -/
theorem Form.oneLine (form : Form) : '\n' ∉ form.chars := by
  cases form with
  | default =>
    show '\n' ∉ "default".toList
    decide
  | declared word hword gap name =>
    have hwords : ∀ w ∈ declaringWords, '\n' ∉ w.toList := by decide
    show '\n' ∉ word.toList ++ (gap.chars ++ name.chars)
    simp [hwords word hword, gap.oneLine, name.oneLine]
  | function async generator gap name =>
    have hasync : '\n' ∉ (async.map fun gap => "async".toList ++ gap.chars).getD [] := by
      cases async with
      | none => exact List.not_mem_nil
      | some gap => simp [gap.oneLine]
    have hstar : '\n' ∉ (if generator then ['*'] else []) := by
      cases generator with
      | true => decide
      | false => decide
    have hword : '\n' ∉ "function".toList := by decide
    show '\n' ∉ (async.map fun gap => "async".toList ++ gap.chars).getD [] ++ ("function".toList ++
      ((if generator then ['*'] else []) ++ (gap.chars ++ name.chars)))
    simp only [List.mem_append, hasync, hword, hstar, gap.oneLine, name.oneLine, or_self,
      not_false_eq_true]
  | everything gap gap' name =>
    show '\n' ∉ '*' :: (gap.chars ++ ("as".toList ++ (gap'.chars ++ name.chars)))
    simp [gap.oneLine, gap'.oneLine, name.oneLine]
  | list slots =>
    have hlist : '\n' ∉ Form.listText slots := by
      intro hmem
      rcases Text.mem_of_mem_joinPieces hmem with heq | ⟨a, ha, hmem⟩
      · cases heq
      · obtain ⟨slot, -, rfl⟩ := List.mem_map.1 ha
        exact slot.oneLine hmem
    show '\n' ∉ '{' :: (Form.listText slots ++ ['}'])
    simp [hlist]

/-- What is read of an export ends within its line. -/
theorem Form.exists_read (form : Form) :
    ∃ read c, form.chars = read ++ c :: form.left ∧ c ≠ '\n' := by
  have hall : form.left = [] → ∃ read c, form.chars = read ++ c :: form.left ∧ c ≠ '\n' := by
    intro hleft
    obtain ⟨c, s, hchars, -⟩ := form.exists_cons
    rcases List.eq_nil_or_concat form.chars with hnil | ⟨read, d, hread⟩
    · rw [hchars] at hnil
      cases hnil
    · rw [List.concat_eq_append] at hread
      refine ⟨read, d, by rw [hread, hleft], fun hd => form.oneLine ?_⟩
      rw [hread, hd]
      exact List.mem_append_right _ (List.mem_cons_self ..)
  cases form with
  | list slots => exact ⟨[], '{', rfl, by decide⟩
  | _ => exact hall rfl

theorem Form.endsBefore_append {form : Form} {rest tail : List Char}
    (h : form.endsBefore rest = true) (htail : AtLineEnd tail) :
    form.endsBefore (rest ++ tail) = true := by
  cases rest with
  | cons c rest => cases form <;> exact h
  | nil =>
    cases tail with
    | nil => exact h
    | cons d tail =>
      obtain rfl := htail d rfl
      cases form with
      | default => exact (by decide : (!Text.isWordAt (some '\n')) = true)
      | list slots => rfl
      | _ => exact (by decide : (!(some '\n').any inName) = true)

/-- The export of a line is read up to the end of its last name. -/
theorem exportAt?_export (line : ExportLine) {tail : List Char} (htail : AtLineEnd tail) :
    exportAt? (line.text ++ tail) =
      some (line.form.clause, line.form.left ++ (line.rest ++ tail)) := by
  have hform := exportClause?_form line.form (Form.endsBefore_append line.ends htail)
  have hexport : Begins (exportWord ++ (line.gap.chars ++ (line.form.chars ++
      (line.rest ++ tail)))) := fun c hc => by
    obtain rfl := Option.some.inj hc
    decide
  rw [ExportLine.text]
  simp only [List.append_assoc]
  rw [exportAt?_blank line.indent_isGap.blank, exportAt?, hexport.dropWhile, Text.isPrefixOf?_append]
  dsimp only
  rw [if_neg (line.gap.takeWhile_ne_nil _), line.gap.dropWhile (line.form.begins _), hform]

/-- A line that begins with an export adds it. -/
theorem exportsFrom_export {prev : Option Char} (hprev : AtLineStart prev) {c : Char}
    (hc : c ≠ '\n') (line : ExportLine) {tail : List Char} (htail : AtLineEnd tail) :
    exportsFrom prev (line.text ++ tail) =
      (line.form.clause, line.form.left ++ (line.rest ++ tail)) :: exportsFrom (some c) tail := by
  obtain ⟨read, d, hchars, hd⟩ := line.form.exists_read
  have hleft : '\n' ∉ line.form.left ++ line.rest := by
    have hform := line.form.oneLine
    rw [hchars] at hform
    intro hmem
    rcases List.mem_append.1 hmem with hmem | hmem
    · exact hform (List.mem_append_right _ (List.mem_cons_of_mem _ hmem))
    · exact line.oneLine hmem
  have htext : line.text ++ tail = (line.indent ++ (exportWord ++ (line.gap.chars ++ read)) ++ [d]) ++
      (line.form.left ++ (line.rest ++ tail)) := by
    rw [ExportLine.text, hchars]
    simp
  have hpass : exportsFrom (some d) ((line.form.left ++ line.rest) ++ tail) =
      exportsFrom (some c) tail :=
    exportsFrom_pass hc hleft fun h => absurd (of_decide_eq_true h) hd
  rw [exportsFrom_of_some hprev (exportAt?_export line htail), htext, List.length_append,
    Nat.add_sub_cancel, List.take_left, List.getLast?_concat, ← hpass, List.append_assoc]

/-! ## All lines -/

theorem furtherText_cons (line : SourceLine) (lines : List SourceLine) :
    furtherText (line :: lines) = '\n' :: (line.text ++ furtherText lines) := by
  rw [furtherText, List.map_cons, List.flatMap_cons, List.cons_append]
  rfl

theorem atLineEnd_furtherText (lines : List SourceLine) : AtLineEnd (furtherText lines) := by
  cases lines with
  | nil => nofun
  | cons line lines =>
    rw [furtherText_cons]
    intro c hc
    exact (Option.some.inj hc).symm

/-- The names of exports that have been found. -/
def readNames (found : List (ExportClause × List Char)) : Option (List (List String)) :=
  found.mapM fun (clause, after) => clauseNames clause after

theorem readNames_cons {clause : ExportClause} {after : List Char} {names : List String}
    {found : List (ExportClause × List Char)} {more : List (List String)}
    (h : clauseNames clause after = some names) (hmore : readNames found = some more) :
    readNames ((clause, after) :: found) = some (names :: more) := by
  rw [readNames] at hmore ⊢
  rw [List.mapM_cons, hmore]
  show (clauseNames clause after).bind (fun names => some (names :: more)) = some (names :: more)
  rw [h, Option.bind_some]

/-- The names of the exports that some lines begin with. -/
def namesOf (lines : List SourceLine) : List (List String) :=
  (lines.filterMap SourceLine.form?).map Form.names

/-- One line adds the names of its export. -/
theorem readNames_line {prev : Option Char} (hprev : AtLineStart prev) {c : Char} (hc : c ≠ '\n')
    (line : SourceLine) {lines : List SourceLine}
    (h : readNames (exportsFrom (some c) (furtherText lines)) = some (namesOf lines)) :
    readNames (exportsFrom prev (line.text ++ furtherText lines)) =
      some (namesOf (line :: lines)) := by
  have htail := atLineEnd_furtherText lines
  cases line with
  | other line =>
    show readNames (exportsFrom prev (line.text ++ furtherText lines)) = some (namesOf lines)
    rw [exportsFrom_other hprev hc line htail, h]
  | exporting line =>
    show readNames (exportsFrom prev (line.text ++ furtherText lines)) =
      some (line.form.names :: namesOf lines)
    rw [exportsFrom_export hprev hc line htail]
    exact readNames_cons (clauseNames_form line.form _) h

/-- The names of the exports of all lines are found, in the order of the lines. -/
theorem readNames_furtherText {c : Char} (hc : c ≠ '\n') (lines : List SourceLine) :
    readNames (exportsFrom (some c) (furtherText lines)) = some (namesOf lines) := by
  induction lines with
  | nil =>
    show readNames (exportsFrom (some c) []) = some []
    rw [exportsFrom]
    rfl
  | cons line lines ih =>
    have hfeed : AtLineStart (some '\n') := rfl
    rw [furtherText_cons, exportsFrom_lineFeed hc]
    exact readNames_line hfeed hc line ih

theorem distinct_filter {α : Type} [DecidableEq α] (p : α → Bool) (xs : List α) :
    distinct (xs.filter p) = (distinct xs).filter p := by
  induction xs with
  | nil => rfl
  | cons x xs ih =>
    by_cases hx : p x = true
    · rw [List.filter_cons_of_pos hx, distinct, distinct, List.filter_cons_of_pos hx, ih,
        List.filter_filter, List.filter_filter]
      exact congrArg (x :: ·) (List.filter_congr fun y _ => Bool.and_comm ..)
    · rw [List.filter_cons_of_neg hx, distinct, List.filter_cons_of_neg hx, ih, List.filter_filter]
      apply List.filter_congr
      intro y _
      by_cases hy : p y = true
      · have hne : y ≠ x := fun heq => hx (heq ▸ hy)
        simp [hne]
      · simp [hy]

theorem distinct_eq_eraseDups {α : Type} [DecidableEq α] (xs : List α) :
    distinct xs = xs.eraseDups := by
  induction hn : xs.length using Nat.strong_induction_on generalizing xs with
  | h n ih =>
    cases xs with
    | nil => rfl
    | cons x xs =>
      have hlength : (xs.filter fun y => !y == x).length < n := by
        rw [← hn, List.length_cons]
        exact Nat.lt_succ_of_le (List.length_filter_le ..)
      have hsame : (fun y => decide (y ≠ x)) = fun y => !y == x := by
        funext y
        by_cases hy : y = x
        · simp [hy]
        · simp [hy]
      rw [distinct, List.eraseDups_cons, ← ih _ hlength _ rfl, distinct_filter, hsame]

/-- The names that a module exports are those of its lines, in their order and each once. -/
theorem exportNames_lines (filename : String) (lines : List SourceLine) :
    exportNames filename (String.ofList (moduleText lines)) =
      .ok ((lines.filterMap SourceLine.form?).flatMap Form.names).eraseDups := by
  have hread : readNames (exportsFrom none (moduleText lines)) = some (namesOf lines) := by
    cases lines with
    | nil =>
      show readNames (exportsFrom none []) = some []
      rw [exportsFrom]
      rfl
    | cons line lines =>
      have hstart : AtLineStart none := rfl
      have hletter : 'x' ≠ '\n' := by decide
      have htext : moduleText (line :: lines) = line.text ++ furtherText lines :=
        Text.joinPieces_cons '\n' _ _
      rw [htext]
      exact readNames_line hstart hletter line (readNames_furtherText hletter lines)
  have hnames : (namesOf lines).flatten = (lines.filterMap SourceLine.form?).flatMap Form.names :=
    (List.flatMap_def ..).symm
  rw [readNames] at hread
  rw [exportNames, String.toList_ofList, hread]
  dsimp only
  rw [hnames, distinct_eq_eraseDups]

/-- A line with a list, of which one name is exported under another and one is a type. -/
def listLine : ExportLine :=
  ⟨[], ⟨[' '], by decide, by decide⟩,
    .list [⟨[' '], some (.renamed ⟨'w', [], by decide, nofun⟩
        ⟨'d', "efault".toList, by decide, Text.forall_mem_of_all (by decide)⟩ (by decide)), [],
        by decide, by decide⟩,
      ⟨[' '], some (.type ⟨'T', [], by decide, nofun⟩), [' '], by decide, by decide⟩],
    ";".toList, by decide, by decide, by decide⟩

example : listLine.text = "export \x7b w as default, type T \x7d;".toList ∧
    listLine.form.names = ["default"] := by decide

end Waymark.Script
