import Waymark.Proofs.Script.Found
import Waymark.Proofs.Script.Statements
import Waymark.Script.Exports
/-!
# Modules of one export a line

A module whose lines each hold one export, or none.  What is exported stands at the start of
its line: the default export, a declaration, a namespace, or a list of names.  What follows is
up to the end of the line and may be anything that does not go on with the last name.

The names are read off the front of each line, so it is here that the front is described, word
by word and blank by blank.  Blanks may be of any kind and number, but in an item of a list a
single space stands on either side of `as`, and one behind `type`.

## Main results

* `exportClause?_form` — what an export is read as, whatever follows it.
* `listedName?_slot` — what an item of a list is read as.
* `clauseNames_form` — the names of an export.
-/

namespace Waymark.Script

/-! ## Names -/

/-- A name, which any name of ASCII characters is. -/
structure Identifier where
  first : Char
  others : List Char
  beginsName : beginsName first = true
  inName : ∀ c ∈ others, inName c = true

/-- The characters of a name. -/
def Identifier.chars (n : Identifier) : List Char := n.first :: n.others

/-- The text of a name. -/
def Identifier.text (n : Identifier) : String := String.ofList n.chars

/-- Blanks between two words of a line. -/
structure Gap where
  chars : List Char
  ne_nil : chars ≠ []
  isGap : IsGap chars

/-! ## Exports -/

/-- What stands between two commas of a list. -/
inductive Item where
  /-- A name, exported under itself. -/
  | same (name : Identifier)
  /-- A name, exported under another.  The name `type` would make it a type. -/
  | renamed (name other : Identifier) (isValue : name.chars ≠ typeWord)
  /-- A type. -/
  | type (name : Identifier)

namespace Item

/-- The text of an item. -/
def chars : Item → List Char
  | same name => name.chars
  | renamed name other _ => name.chars ++ (" as ".toList ++ other.chars)
  | type name => "type ".toList ++ name.chars

/-- The name that an item exports; none for a type. -/
def name? : Item → Option String
  | same name => some name.text
  | renamed _ other _ => some other.text
  | type _ => none

end Item

/-- A place for an item, which may be empty, with the blanks around it. -/
structure Slot where
  front : List Char
  item : Option Item
  back : List Char
  front_isGap : IsGap front
  back_isGap : IsGap back

/-- The text of a place. -/
def Slot.chars (slot : Slot) : List Char :=
  slot.front ++ ((slot.item.map Item.chars).getD [] ++ slot.back)

/-- What stands behind `export`. -/
inductive Form where
  | default
  /-- A declaration, by the word that it begins with. -/
  | declared (word : String) (isWord : word ∈ declaringWords) (gap : Gap) (name : Identifier)
  /-- A function.  The star of a generator stands right behind `function`. -/
  | function (async : Option Gap) (generator : Bool) (gap : Gap) (name : Identifier)
  /-- All that another module exports, under one name. -/
  | everything (gap gap' : Gap) (name : Identifier)
  | list (slots : List Slot)

namespace Form

/-- The text of a list up to its brace. -/
def listText (slots : List Slot) : List Char := Text.joinPieces ',' (slots.map Slot.chars)

/-- The text of an export. -/
def chars : Form → List Char
  | default => "default".toList
  | declared word _ gap name => word.toList ++ (gap.chars ++ name.chars)
  | function async generator gap name =>
    (async.map fun gap => "async".toList ++ gap.chars).getD [] ++ ("function".toList ++
      ((if generator then ['*'] else []) ++ (gap.chars ++ name.chars)))
  | everything gap gap' name => '*' :: (gap.chars ++ ("as".toList ++ (gap'.chars ++ name.chars)))
  | list slots => '{' :: (listText slots ++ ['}'])

/-- The names that are exported. -/
def names : Form → List String
  | default => ["default"]
  | declared _ _ _ name => [name.text]
  | function _ _ _ name => [name.text]
  | everything _ _ name => [name.text]
  | list slots => slots.filterMap fun slot => slot.item.bind Item.name?

/-- Whether a text does not go on with the last word of an export. -/
def endsBefore : Form → List Char → Bool
  | default, rest => !Text.isWordAt rest.head?
  | list _, _ => true
  | _, rest => !rest.head?.any inName

/-- What an export is read as. -/
def clause : Form → ExportClause
  | default => .default
  | declared _ _ _ name => .name name.chars
  | function _ _ _ name => .name name.chars
  | everything _ _ name => .name name.chars
  | list _ => .list

/-- What is left of the text of an export when it has been read. -/
def left : Form → List Char
  | list slots => listText slots ++ ['}']
  | _ => []

end Form

/-! ## Reading words -/

theorem inName_of_beginsName {c : Char} (h : beginsName c = true) : inName c = true := by
  rw [beginsName, Bool.or_eq_true, Bool.or_eq_true, decide_eq_true_eq, decide_eq_true_eq] at h
  rcases h with (h | rfl) | rfl
  · have hcode : c.toNat < 128 := by
      delta Char.isAlpha Char.isUpper Char.isLower at h
      simp only [Bool.or_eq_true, Bool.and_eq_true, decide_eq_true_eq, UInt32.le_iff_toNat_le,
        Char.toNat] at h ⊢
      rcases h with ⟨-, h⟩ | ⟨-, h⟩
      · exact Nat.lt_of_le_of_lt h (by decide)
      · exact Nat.lt_of_le_of_lt h (by decide)
    have halnum : c.isAlphanum = true := by rw [Char.isAlphanum, h, Bool.true_or]
    rw [inName, Text.isWord_of_isAlphanum hcode halnum, Bool.true_or]
  · decide
  · decide

theorem isBlank_of_inName {c : Char} (h : inName c = true) : Text.isBlank c = false := by
  cases hc : Text.isBlank c with
  | false => rfl
  | true =>
    have hdollar := forall_blank (p := fun c => decide (c ≠ '$')) (by decide) hc
    unfold inName at h
    rw [isWord_of_isBlank hc, Bool.false_or] at h
    exact absurd (of_decide_eq_true h) (of_decide_eq_true hdollar)

namespace Identifier

variable (n : Identifier)

theorem inName_of_mem {c : Char} (hc : c ∈ n.chars) : Script.inName c = true := by
  rcases List.mem_cons.1 hc with rfl | hc
  · exact inName_of_beginsName n.beginsName
  · exact n.inName c hc

theorem notBlank {c : Char} (hc : c ∈ n.chars) : Text.isBlank c = false :=
  isBlank_of_inName (n.inName_of_mem hc)

theorem notMem_of_blank {c : Char} (hc : Text.isBlank c = true) : c ∉ n.chars := by
  intro hmem
  rw [n.notBlank hmem] at hc
  cases hc

theorem ne_nil : n.chars ≠ [] := List.cons_ne_nil _ _

theorem begins (rest : List Char) : Begins (n.chars ++ rest) := by
  intro c hc
  obtain rfl := Option.some.inj hc
  exact n.notBlank (List.mem_cons_self ..)

end Identifier

theorem Gap.dropWhile (g : Gap) {s : List Char} (hs : Begins s) :
    (g.chars ++ s).dropWhile Text.isBlank = s := by
  rw [dropWhile_isBlank_append _ g.isGap.blank, hs.dropWhile]

theorem Gap.takeWhile_ne_nil (g : Gap) (s : List Char) :
    (g.chars ++ s).takeWhile Text.isBlank ≠ [] := by
  rw [takeWhile_isBlank_append _ g.isGap.blank]
  exact List.append_ne_nil_of_left_ne_nil g.ne_nil _

/-- A name is read behind blanks, up to what does not go on with it. -/
theorem spacedName?_gap (g : Gap) (n : Identifier) {rest : List Char}
    (h : rest.head?.any inName = false) :
    spacedName? (g.chars ++ (n.chars ++ rest)) = some (n.chars, rest) := by
  have hrest : ∀ c ∈ rest.head?, inName c = false := by
    intro c hc
    rw [hc] at h
    exact h
  obtain ⟨htake, hdrop⟩ := Text.span_append n.inName hrest
  rw [spacedName?, if_neg (g.takeWhile_ne_nil _), g.dropWhile (n.begins rest), Identifier.chars,
    List.cons_append]
  dsimp only
  rw [if_pos n.beginsName, htake, hdrop]

theorem skipWord_gap (word : String) (g : Gap) {s : List Char} (hs : Begins s) :
    skipWord word (word.toList ++ (g.chars ++ s)) = s := by
  rw [skipWord, Text.isPrefixOf?_append]
  dsimp only
  rw [if_neg (g.takeWhile_ne_nil s), g.dropWhile hs]

/-- Whether no text begins with both of two words. -/
def areApart (u w : List Char) : Bool := !u.isPrefixOf w && !w.isPrefixOf u

theorem isPrefixOf?_apart {u w : List Char} (h : areApart u w = true) (s : List Char) :
    List.isPrefixOf? u (w ++ s) = none := by
  rw [areApart, Bool.and_eq_true, Bool.not_eq_true', Bool.not_eq_true'] at h
  apply Text.isPrefixOf?_eq_none
  intro hu
  rcases List.prefix_or_prefix_of_prefix hu (List.prefix_append w s) with huw | hwu
  · rw [List.isPrefixOf_iff_prefix.2 huw] at h
    cases h.1
  · rw [List.isPrefixOf_iff_prefix.2 hwu] at h
    cases h.2

theorem skipWord_apart {word : String} {w : List Char} (h : areApart word.toList w = true)
    (s : List Char) : skipWord word (w ++ s) = w ++ s := by
  rw [skipWord, isPrefixOf?_apart h]

/-- The words that a declaration can begin with. -/
def leadWords : List String := "declare" :: "async" :: "function" :: declaringWords

theorem functionName?_apart {w : List Char} (h : areApart "function".toList w = true)
    (s : List Char) : functionName? (w ++ s) = none := by
  rw [functionName?, isPrefixOf?_apart h]

/-- What begins apart from all these words is no declaration. -/
theorem declaredName?_apart {w : List Char}
    (h : ∀ u ∈ leadWords, areApart u.toList w = true) (s : List Char) :
    declaredName? (w ++ s) = none := by
  have hwords : declaringWords.findSome? (fun word =>
      (List.isPrefixOf? word.toList (w ++ s)).bind spacedName?) = none := by
    rw [List.findSome?_eq_none_iff]
    intro word hword
    rw [isPrefixOf?_apart (h word (by simp [leadWords, hword])), Option.bind_none]
  rw [declaredName?, skipWord_apart (h _ (by simp [leadWords])),
    skipWord_apart (h _ (by simp [leadWords])), functionName?_apart (h _ (by simp [leadWords])),
    Option.none_or, hwords]

/-- A text that begins with one of some words, any two of them apart, is read by this word. -/
theorem findSome?_word {words : List String} {word : String} (hword : word ∈ words)
    (hapart : ∀ u ∈ words, u ≠ word → areApart u.toList word.toList = true) {s : List Char}
    {found : List Char × List Char} (h : spacedName? s = some found) :
    words.findSome? (fun u => (List.isPrefixOf? u.toList (word.toList ++ s)).bind spacedName?) =
      some found := by
  induction words with
  | nil => cases hword
  | cons u words ih =>
    by_cases hu : u = word
    · subst hu
      rw [List.findSome?_cons, Text.isPrefixOf?_append, Option.bind_some, h]
    · have hrest := (List.mem_cons.1 hword).resolve_left (Ne.symm hu)
      rw [List.findSome?_cons, isPrefixOf?_apart (hapart u (List.mem_cons_self ..) hu),
        Option.bind_none]
      exact ih hrest fun v hv => hapart v (List.mem_cons_of_mem _ hv)

/-- A declaration is read by its word. -/
theorem declaredName?_word {word : String} (hword : word ∈ declaringWords) {s : List Char}
    {found : List Char × List Char} (h : spacedName? s = some found) :
    declaredName? (word.toList ++ s) = some found := by
  have hapart : ∀ w ∈ declaringWords, ∀ u ∈ leadWords, u ≠ w →
      areApart u.toList w.toList = true := by decide
  have hlead (u : String) (hu : u ∈ leadWords) (hne : u ∉ declaringWords) :
      areApart u.toList word.toList = true :=
    hapart word hword u hu fun heq => hne (heq ▸ hword)
  rw [declaredName?, skipWord_apart (hlead _ (by decide) (by decide)),
    skipWord_apart (hlead _ (by decide) (by decide)),
    functionName?_apart (hlead _ (by decide) (by decide)), Option.none_or]
  exact findSome?_word hword (fun u hu => hapart word hword u (by simp [leadWords, hu])) h

/-- A function is read with its star or without. -/
theorem functionName?_gap (generator : Bool) (g : Gap) (n : Identifier) {rest : List Char}
    (h : rest.head?.any inName = false) :
    functionName? ("function".toList ++ ((if generator then ['*'] else []) ++
      (g.chars ++ (n.chars ++ rest)))) = some (n.chars, rest) := by
  rw [functionName?, Text.isPrefixOf?_append]
  dsimp only
  cases generator with
  | true =>
    have hstar : Begins ('*' :: (g.chars ++ (n.chars ++ rest))) := fun c hc => by
      obtain rfl := Option.some.inj hc
      decide
    rw [if_pos rfl, List.singleton_append, hstar.dropWhile]
    exact spacedName?_gap g n h
  | false =>
    rw [if_neg Bool.false_ne_true, List.nil_append, g.dropWhile (n.begins rest)]
    split
    · rename_i after hstar
      have hfirst := n.beginsName
      rw [(List.cons.inj hstar).1] at hfirst
      exact absurd hfirst (by decide)
    · exact spacedName?_gap g n h

theorem begins_word {word : String} (hword : word.toList.head?.any Text.isBlank = false)
    (hne : word.toList ≠ []) (s : List Char) : Begins (word.toList ++ s) := by
  intro c hc
  rw [List.head?_append, Option.or_of_isSome (List.isSome_head?.2 hne)] at hc
  rw [hc] at hword
  exact hword

/-- A function is read whether it is asynchronous or not. -/
theorem declaredName?_function (async : Option Gap) (generator : Bool) (g : Gap) (n : Identifier)
    {rest : List Char} (h : rest.head?.any inName = false) :
    declaredName? ((async.map fun g => "async".toList ++ g.chars).getD [] ++ ("function".toList ++
      ((if generator then ['*'] else []) ++ (g.chars ++ (n.chars ++ rest))))) =
      some (n.chars, rest) := by
  have hname := functionName?_gap generator g n h
  cases async with
  | none =>
    rw [Option.map_none, Option.getD_none, List.nil_append, declaredName?,
      skipWord_apart (by decide), skipWord_apart (by decide), hname, Option.some_or]
  | some gap =>
    rw [Option.map_some, Option.getD_some, List.append_assoc, declaredName?,
      skipWord_apart (by decide), skipWord_gap _ _ (begins_word (by decide) (by decide) _), hname,
      Option.some_or]

theorem namespaceName?_gap (g g' : Gap) (n : Identifier) {rest : List Char}
    (h : rest.head?.any inName = false) :
    namespaceName? ('*' :: (g.chars ++ ("as".toList ++ (g'.chars ++ (n.chars ++ rest))))) =
      some (n.chars, rest) := by
  rw [namespaceName?, if_neg (g.takeWhile_ne_nil _),
    g.dropWhile (begins_word (by decide) (by decide) _), Text.isPrefixOf?_append, Option.bind_some,
    spacedName?_gap g' n h]

theorem defaultExport?_apart {w : List Char} (h : areApart "default".toList w = true)
    (s : List Char) : defaultExport? (w ++ s) = none := by
  rw [defaultExport?, isPrefixOf?_apart h]

theorem exportClause?_of_name {s rest n : List Char} (hdefault : defaultExport? s = none)
    (h : (declaredName? s).or (namespaceName? s) = some (n, rest)) :
    exportClause? s = some (.name n, rest) := by
  rw [exportClause?, hdefault]
  dsimp only
  rw [h]

/-- What an export is read as, whatever follows it. -/
theorem exportClause?_form (form : Form) {rest : List Char} (h : form.endsBefore rest = true) :
    exportClause? (form.chars ++ rest) = some (form.clause, form.left ++ rest) := by
  cases form with
  | default =>
    have hrest : Text.isWordAt rest.head? = false := by simpa [Form.endsBefore] using h
    show exportClause? ("default".toList ++ rest) = some (.default, rest)
    rw [exportClause?, defaultExport?, Text.isPrefixOf?_append]
    dsimp only
    rw [hrest]
    rfl
  | declared word hword gap name =>
    have hrest : rest.head?.any inName = false := by simpa [Form.endsBefore] using h
    have hapart : ∀ w ∈ declaringWords, areApart "default".toList w.toList = true := by decide
    show exportClause? (word.toList ++ (gap.chars ++ name.chars) ++ rest) =
      some (.name name.chars, rest)
    rw [List.append_assoc, List.append_assoc]
    refine exportClause?_of_name (defaultExport?_apart (hapart word hword) _) ?_
    rw [declaredName?_word hword (spacedName?_gap gap name hrest), Option.some_or]
  | function async generator gap name =>
    have hrest : rest.head?.any inName = false := by simpa [Form.endsBefore] using h
    show exportClause? ((async.map fun gap => "async".toList ++ gap.chars).getD [] ++
      ("function".toList ++ ((if generator then ['*'] else []) ++ (gap.chars ++ name.chars))) ++
      rest) = some (.name name.chars, rest)
    simp only [List.append_assoc]
    refine exportClause?_of_name ?_ ?_
    · cases async with
      | none =>
        rw [Option.map_none, Option.getD_none, List.nil_append]
        exact defaultExport?_apart (by decide) _
      | some gap =>
        rw [Option.map_some, Option.getD_some, List.append_assoc]
        exact defaultExport?_apart (by decide) _
    · rw [declaredName?_function async generator gap name hrest, Option.some_or]
  | everything gap gap' name =>
    have hrest : rest.head?.any inName = false := by simpa [Form.endsBefore] using h
    have hnone := declaredName?_apart (w := ['*']) (by decide)
    show exportClause? ('*' :: (gap.chars ++ ("as".toList ++ (gap'.chars ++ name.chars)) ++ rest)) =
      some (.name name.chars, rest)
    simp only [List.append_assoc]
    refine exportClause?_of_name (defaultExport?_apart (w := ['*']) (by decide) _) ?_
    rw [← List.singleton_append, hnone, Option.none_or, List.singleton_append,
      namespaceName?_gap gap gap' name hrest]
  | list slots =>
    have hnone := declaredName?_apart (w := ['{']) (by decide)
    show exportClause? ('{' :: (Form.listText slots ++ ['}'] ++ rest)) =
      some (.list, Form.listText slots ++ ['}'] ++ rest)
    rw [← List.singleton_append, exportClause?, defaultExport?_apart (by decide), hnone,
      Option.none_or]
    rfl

/-! ## Reading lists -/

/-- The blanks around a text are cut off. -/
theorem trim_gaps {front text back : List Char} (hfront : IsGap front) (hback : IsGap back)
    (hbegins : Begins text) (hends : ∀ c ∈ text.getLast?, Text.isBlank c = false) :
    Text.trim (front ++ (text ++ back)) = text := by
  rw [Text.trim, Text.trimStart, dropWhile_isBlank_append _ hfront.blank]
  rcases List.eq_nil_or_concat text with rfl | ⟨init, c, rfl⟩
  · rw [List.nil_append, ← List.append_nil back, dropWhile_isBlank_append _ hback.blank]
    rfl
  · have hc : Text.isBlank c = false := hends c (by simp)
    rw [List.concat_eq_append] at hbegins ⊢
    have hall : Begins (init ++ [c] ++ back) := by
      intro d hd
      rw [List.head?_append, Option.or_of_isSome (by simp)] at hd
      exact hbegins d hd
    rw [hall.dropWhile, List.append_assoc, List.singleton_append, trimEnd_gap hc hback.blank]

theorem Identifier.ends (n : Identifier) (s : List Char) :
    ∀ c ∈ (s ++ n.chars).getLast?, Text.isBlank c = false := by
  intro c hc
  rw [List.getLast?_append, Option.or_of_isSome (List.getLast?_isSome.2 n.ne_nil)] at hc
  exact n.notBlank (List.mem_of_getLast? hc)

/-- An item begins and ends with what is not blank. -/
theorem Item.trim_chars (item : Item) {front back : List Char} (hfront : IsGap front)
    (hback : IsGap back) : Text.trim (front ++ (item.chars ++ back)) = item.chars := by
  cases item with
  | same name =>
    have hbegins := name.begins []
    rw [List.append_nil] at hbegins
    exact trim_gaps hfront hback hbegins (name.ends [])
  | renamed name other isValue =>
    refine trim_gaps hfront hback (name.begins _) ?_
    show ∀ c ∈ (name.chars ++ (" as ".toList ++ other.chars)).getLast?, Text.isBlank c = false
    rw [← List.append_assoc]
    exact other.ends _
  | type name => exact trim_gaps hfront hback (begins_word (by decide) (by decide) _) (name.ends _)

theorem Item.ne_nil (item : Item) : item.chars ≠ [] := by
  cases item with
  | same name => exact name.ne_nil
  | renamed name other isValue => exact List.append_ne_nil_of_left_ne_nil name.ne_nil _
  | type name => exact List.append_ne_nil_of_right_ne_nil _ name.ne_nil

/-- No name holds a space, so nothing with a space occurs in it. -/
theorem Identifier.noInfix (n : Identifier) {word : List Char} (hword : ' ' ∈ word) :
    ¬word <:+: n.chars :=
  fun h => n.notMem_of_blank (by decide) (h.subset hword)

/-- An item that is no type is read as what stands behind `as`, or as the whole of it. -/
theorem listedName?_of_cut {item text : List Char} {cut : Option (List Char × List Char)}
    (htrim : Text.trim item = text) (hne : text ≠ []) (htype : ¬"type ".toList <+: text)
    (hcut : Text.cutText " as ".toList text = cut) :
    listedName? item =
      some (String.ofList ((cut.map fun found => Text.trim found.2).getD text)) := by
  have hnot : ¬(text = [] ∨ "type ".toList.isPrefixOf text = true) := by
    rw [List.isPrefixOf_iff_prefix]
    exact not_or.2 ⟨hne, htype⟩
  rw [listedName?, htrim, if_neg hnot, hcut]
  cases cut with
  | none => rfl
  | some found => rfl

theorem Identifier.trim (n : Identifier) : Text.trim n.chars = n.chars := by
  have hnone : IsGap [] := by decide
  have h := (Item.same n).trim_chars hnone hnone
  rwa [List.nil_append, List.append_nil] at h

/-- What an item is read as. -/
theorem listedName?_item (item : Item) {front back : List Char} (hfront : IsGap front)
    (hback : IsGap back) : listedName? (front ++ (item.chars ++ back)) = item.name? := by
  have htrim := item.trim_chars hfront hback
  cases item with
  | same name =>
    have htype : ¬"type ".toList <+: name.chars := fun h =>
      name.noInfix (by decide) h.isInfix
    have has : ¬" as ".toList <:+: name.chars := name.noInfix (by decide)
    have hcut : Text.cutText " as ".toList name.chars = none := by
      cases hcut : Text.cutText " as ".toList name.chars with
      | none => rfl
      | some found =>
        have hname := ((Text.cutText_eq_some_iff (by decide)).1 hcut).1
        exact absurd ⟨found.1, found.2, by rw [hname, List.append_assoc]⟩ has
    exact listedName?_of_cut htrim name.ne_nil htype hcut
  | renamed name other isValue =>
    have htype : ¬"type ".toList <+: name.chars ++ (" as ".toList ++ other.chars) := by
      rintro ⟨rest, hrest⟩
      have hspace : ∀ c ∈ name.chars, decide (c = ' ') = false := fun c hc =>
        decide_eq_false fun heq => name.notMem_of_blank (by decide) (heq ▸ hc)
      obtain ⟨hword, -⟩ := append_cons_inj (p := fun c => decide (c = ' ')) (a := typeWord)
        (Text.forall_mem_of_all (by decide)) hspace (c := ' ') (d := ' ') rfl rfl hrest
      exact isValue hword.symm
    -- `as` is found behind the first name, since its two spaces are the first two
    have hcut : Text.cutText " as ".toList (name.chars ++ (" as ".toList ++ other.chars)) =
        some (name.chars, other.chars) := by
      refine (Text.cutText_eq_some_iff (by decide)).2 ⟨rfl, fun h => ?_⟩
      have hcount := h.sublist.count_le ' '
      rw [List.count_append, List.count_eq_zero_of_not_mem (name.notMem_of_blank (by decide))]
        at hcount
      exact absurd hcount (by decide)
    rw [listedName?_of_cut htrim (Item.ne_nil _) htype hcut, Option.map_some, Option.getD_some,
      other.trim]
    rfl
  | type name =>
    rw [listedName?, htrim]
    exact if_pos (Or.inr (List.isPrefixOf_iff_prefix.2 (List.prefix_append _ _)))

/-- What an item of a list, or an empty place, is read as. -/
theorem listedName?_slot (slot : Slot) :
    listedName? slot.chars = slot.item.bind Item.name? := by
  unfold Slot.chars
  cases slot.item with
  | none =>
    have hblank : Text.trim (slot.front ++ ([] ++ slot.back)) = [] :=
      trim_gaps slot.front_isGap slot.back_isGap nofun nofun
    show listedName? (slot.front ++ ([] ++ slot.back)) = none
    rw [listedName?, hblank]
    rfl
  | some item => exact listedName?_item item slot.front_isGap slot.back_isGap

/-! ## Names of an export -/

/-- What can stand between the braces of a list, commas apart. -/
def inList (c : Char) : Bool := inName c || Text.isBlank c

theorem Identifier.inList (n : Identifier) : ∀ c ∈ n.chars, Script.inList c = true :=
  fun _ hc => Bool.or_eq_true_iff.2 (Or.inl (n.inName_of_mem hc))

theorem IsGap.inList {gap : List Char} (h : IsGap gap) : ∀ c ∈ gap, Script.inList c = true :=
  fun c hc => Bool.or_eq_true_iff.2 (Or.inr (h.blank c hc))

theorem Item.inList (item : Item) : ∀ c ∈ item.chars, Script.inList c = true := by
  cases item with
  | same name => exact name.inList
  | renamed name other isValue =>
    refine List.forall_mem_append.2 ⟨name.inList, List.forall_mem_append.2 ⟨?_, other.inList⟩⟩
    exact Text.forall_mem_of_all (by decide)
  | type name =>
    exact List.forall_mem_append.2 ⟨Text.forall_mem_of_all (by decide), name.inList⟩

theorem Slot.inList (slot : Slot) : ∀ c ∈ slot.chars, Script.inList c = true := by
  have hitem : ∀ c ∈ (slot.item.map Item.chars).getD [], Script.inList c = true := by
    cases slot.item with
    | none => nofun
    | some item => exact item.inList
  exact List.forall_mem_append.2
    ⟨slot.front_isGap.inList, List.forall_mem_append.2 ⟨hitem, slot.back_isGap.inList⟩⟩

theorem Slot.notMem (slot : Slot) {c : Char} (hc : Script.inList c = false) : c ∉ slot.chars := by
  intro hmem
  rw [slot.inList c hmem] at hc
  cases hc

/-- The text of a list is cut into its items again. -/
theorem filterMap_pieces_listText (slots : List Slot) :
    (Text.pieces ',' (Form.listText slots)).filterMap listedName? =
      slots.filterMap fun slot => slot.item.bind Item.name? := by
  by_cases hnil : slots = []
  · subst hnil
    rfl
  · have hcomma : ∀ a ∈ slots.map Slot.chars, ',' ∉ a := by
      intro a ha
      obtain ⟨slot, -, rfl⟩ := List.mem_map.1 ha
      exact slot.notMem (by decide)
    have hread : listedName? ∘ Slot.chars = fun slot => slot.item.bind Item.name? :=
      funext listedName?_slot
    rw [Form.listText, Text.pieces_joinPieces hcomma (by simpa using hnil), List.filterMap_map,
      hread]

/-- The names of an export. -/
theorem clauseNames_form (form : Form) (rest : List Char) :
    clauseNames form.clause (form.left ++ rest) = some form.names := by
  cases form with
  | list slots =>
    have hbrace : '}' ∉ Form.listText slots := by
      intro hmem
      rcases Text.mem_of_mem_joinPieces hmem with heq | ⟨a, ha, hmem⟩
      · cases heq
      · obtain ⟨slot, -, rfl⟩ := List.mem_map.1 ha
        exact slot.notMem (by decide) hmem
    have hcut : Text.cut '}' (Form.listText slots ++ ['}'] ++ rest) =
        some (Form.listText slots, rest) := by
      rw [List.append_assoc, List.singleton_append, Text.cut_append rest hbrace]
    show clauseNames .list (Form.listText slots ++ ['}'] ++ rest) = some (Form.list slots).names
    have hclose : Char.ofNat 0x7D = '}' := rfl
    rw [clauseNames, hclose, hcut, Option.map_some]
    exact congrArg some (filterMap_pieces_listText slots)
  | _ => rfl

end Waymark.Script
