import Mathlib.Data.List.Chain
import Waymark.Proofs.Stylesheet.Pressed
import Waymark.Proofs.Stylesheet.Renamed
import Waymark.Pipeline
/-!
# Quoted texts in a bundle

A bundler that knew quotes would leave what stands in them alone.  This one goes through a
sheet character by character: what it takes for a class in a selector is renamed and blanks
are pressed together, in quotes as outside of them.  What becomes of a quoted text can be told
exactly: nothing happens to it if it has no dot in front of a name where the stretch around it
is taken for a selector and, in a minified sheet, only single spaces away from punctuation, and
no semicolon in front of a closing brace.

## Main results

* `imageOf_press_eq_self_iff` — which quoted texts are minified to themselves.
* `writtenPart_eq_self_iff` — which quoted texts a bundle has as they are.
* `bundleSheet_keeps_iff` — the text of a bundle around a quoted text, and when it is kept.
* `bundleSheet_changes` — three quoted texts that are changed.
-/

namespace Waymark

namespace Stylesheet

open Text (imageOf imageOf_cons imageOf_append imageOf_eq_self put_eq_of_imageOf_eq countP_imageOf
  put_eq_of_countP_le isBlank)

/-! ## Minified quoted texts -/

/-- Two characters may stand side by side in a text that minifying leaves as it is. -/
structure Fits (c d : Char) : Prop where
  before : isBlank d = true → d = ' ' ∧ isBlank c = false ∧ isTight c = false
  behind : isBlank c = true → isBlank d = false ∧ isTight d = false
  semicolon : ¬(c = ';' ∧ d = Char.ofNat 0x7D)

instance (c d : Char) : Decidable (Fits c d) :=
  decidable_of_iff
    ((isBlank d = true → d = ' ' ∧ isBlank c = false ∧ isTight c = false) ∧
      (isBlank c = true → isBlank d = false ∧ isTight d = false) ∧
      ¬(c = ';' ∧ d = Char.ofNat 0x7D))
    ⟨fun h => ⟨h.1, h.2.1, h.2.2⟩, fun h => ⟨h.before, h.behind, h.semicolon⟩⟩

theorem length_press_le (before : List Char) (c : Char) (after : List Char) :
    (press before c after).length ≤ 1 := by
  unfold press
  split
  · split <;> simp
  · split <;> simp

/-- A text that begins and ends with a quote. -/
def IsQuoted (lit : List Char) : Prop :=
  ∃ q inner, Script.isQuote q = true ∧ lit = q :: (inner ++ [q])

theorem isBlank_of_isQuote {q : Char} (hq : Script.isQuote q = true) :
    isBlank q = false ∧ q ≠ ';' := by
  have hcases : q = '"' ∨ q = '\'' := by simpa [Script.isQuote] using hq
  rcases hcases with rfl | rfl <;> decide

/-- A character of a quoted text that is no quote at its ends stands between two others. -/
theorem IsQuoted.between {lit front back : List Char} {c : Char} (h : IsQuoted lit)
    (hlit : lit = front ++ c :: back) (hc : isBlank c = true ∨ c = ';') :
    (∃ front' b, front = front' ++ [b]) ∧ ∃ d back', back = d :: back' := by
  obtain ⟨q, inner, hq, rfl⟩ := h
  obtain ⟨hblank, hsemicolon⟩ := isBlank_of_isQuote hq
  have hne : c ≠ q := by
    rintro rfl
    rcases hc with hc | hc
    · exact absurd hc (by simp [hblank])
    · exact hsemicolon hc
  constructor
  · rcases List.eq_nil_or_concat front with rfl | ⟨front', b, rfl⟩
    · exact absurd (List.cons.inj hlit).1.symm hne
    · exact ⟨front', b, by simp⟩
  · cases back with
    | nil =>
      rw [← List.cons_append] at hlit
      exact absurd (List.singleton_inj.1 (List.append_inj' hlit rfl).2).symm hne
    | cons d back => exact ⟨d, back, rfl⟩

theorem press_eq_self_of_isBlank_iff {before after : List Char} {c : Char}
    (hc : isBlank c = true) :
    press before c after = [c] ↔
      c = ' ' ∧ before.getLast?.any (fun b => !isBlank b && !isTight b) = true ∧
        (nextInk after).any (!isTight ·) = true := by
  rw [press, if_pos hc]
  split
  · rename_i h
    simp [h, eq_comm]
  · rename_i h
    simp only [List.nil_eq, List.cons_ne_nil, false_iff, not_and]
    exact fun _ hbefore hafter => h ⟨hbefore, hafter⟩

theorem press_eq_self_of_ink_iff {before after : List Char} {c : Char} (hc : isBlank c = false) :
    press before c after = [c] ↔ ¬(c = ';' ∧ nextInk after = some (Char.ofNat 0x7D)) := by
  rw [press, if_neg (by simp [hc])]
  split <;> simp_all

/-- A quoted text is minified to itself exactly if all characters in it that stand side by side may
do so. -/
theorem imageOf_press_eq_self_iff {before lit after : List Char} (hlit : IsQuoted lit) :
    imageOf press before lit after = lit ↔ lit.IsChain Fits := by
  rw [List.isChain_iff_forall_rel_of_append_cons_cons]
  constructor
  · intro h c d front back hsplit
    have hkept := put_eq_of_imageOf_eq length_press_le h
    have hc := hkept front c (d :: back) hsplit
    have hd := hkept (front ++ [c]) d back (by simp [hsplit])
    have hbefore : isBlank d = true → d = ' ' ∧ isBlank c = false ∧ isTight c = false := by
      intro hblank
      rw [press_eq_self_of_isBlank_iff hblank, ← List.append_assoc, List.getLast?_concat] at hd
      refine ⟨hd.1, ?_⟩
      simpa using hd.2.1
    refine ⟨hbefore, fun hblank => ?_, ?_⟩
    · have hink : isBlank d = false :=
        Bool.eq_false_iff.2 fun hd => absurd hblank (by simp [hbefore hd])
      rw [press_eq_self_of_isBlank_iff hblank, List.cons_append, nextInk_cons hink] at hc
      exact ⟨hink, by simpa using hc.2.2⟩
    · rintro ⟨rfl, rfl⟩
      rw [press_eq_self_of_ink_iff (by decide), List.cons_append, nextInk_cons (by decide)] at hc
      exact hc ⟨rfl, rfl⟩
  · intro h
    apply imageOf_eq_self
    intro front c back hsplit
    cases hblank : isBlank c with
    | true =>
      obtain ⟨⟨front, b, rfl⟩, d, back, rfl⟩ := hlit.between hsplit (Or.inl hblank)
      have hpair : lit = front ++ b :: c :: (d :: back) := by simp [hsplit]
      have hfront := (h hpair).before hblank
      have hback := (h hsplit).behind hblank
      rw [press_eq_self_of_isBlank_iff hblank, ← List.append_assoc, List.getLast?_concat,
        List.cons_append, nextInk_cons hback.1]
      simp [hfront, hback]
    | false =>
      rw [press_eq_self_of_ink_iff hblank]
      rintro ⟨rfl, hbrace⟩
      obtain ⟨-, d, back, rfl⟩ := hlit.between hsplit (Or.inr rfl)
      have hfits := h hsplit
      have hink : isBlank d = false :=
        Bool.eq_false_iff.2 fun hd => absurd (hfits.before hd).2.2 (by decide)
      rw [List.cons_append, nextInk_cons hink] at hbrace
      exact hfits.semicolon ⟨rfl, Option.some.inj hbrace⟩

/-! ## Scoped quoted texts -/

/-- No dot of a part is taken for one that begins a class in a selector. -/
def HasNoClass (before part after : List Char) : Prop :=
  ∀ front back, part = front ++ '.' :: back → (className? (back ++ after)).isSome = true →
    inSelector (before ++ front) ('.' :: (back ++ after)) = false

theorem putClass_eq_self_iff {scope before after : List Char} {c : Char} :
    putClass scope before c after = [c] ↔
      (c = '.' → (className? after).isSome = true → inSelector before (c :: after) = false) := by
  unfold putClass putDot
  cases inSelector before (c :: after) <;>
    by_cases hc : c = '.' ∧ (className? after).isSome = true <;> simp_all

/-- Whether a character counts that minifying never drops. -/
def isInk (c : Char) : Bool := !isBlank c && c ≠ ';'

theorem putClass_eq (scope before : List Char) (c : Char) (after : List Char) :
    putClass scope before c after = [c] ∨
      putClass scope before c after = c :: (scope ++ ['_']) := by
  unfold putClass putDot
  split
  · split
    · exact Or.inr rfl
    · exact Or.inl rfl
  · exact Or.inl rfl

theorem putClass_eq_self_or (scope before : List Char) (c : Char) (after : List Char) :
    putClass scope before c after = [c] ∨
      [c].countP isInk < (putClass scope before c after).countP isInk := by
  refine (putClass_eq scope before c after).imp_right fun hput => ?_
  have hunderscore : List.countP isInk ['_'] = 1 := by decide
  have hlonger : (c :: (scope ++ ['_'])).countP isInk =
      [c].countP isInk + (scope.countP isInk + 1) := by
    rw [← hunderscore, ← List.countP_append, ← List.countP_append, List.singleton_append]
  rw [hput]
  omega

theorem countP_press (before : List Char) (c : Char) (after : List Char) :
    (press before c after).countP isInk = [c].countP isInk := by
  unfold press
  split
  · rename_i hc
    have hnone : isInk c = false := by simp [isInk, hc]
    have hspace : isInk ' ' = false := by decide
    split <;> simp [hnone, hspace]
  · split
    · rename_i h
      rw [h.1]
      rfl
    · rfl

theorem imageOf_putClass_eq_self_iff {scope before part after : List Char} :
    imageOf (putClass scope) before part after = part ↔ HasNoClass before part after := by
  constructor
  · intro h front back hsplit hsome
    have hkept := put_eq_of_countP_le (putClass_eq_self_or scope) (Nat.le_of_eq (by rw [h])) front
      '.' back hsplit
    exact putClass_eq_self_iff.1 hkept rfl hsome
  · intro h
    apply imageOf_eq_self
    intro front c back hsplit
    rw [putClass_eq_self_iff]
    rintro rfl
    exact h front back hsplit

/-! ## Written parts -/

/-- What a part of a sheet is scoped to, if it is. -/
def scopedPart (options : Options) (scope before part after : List Char) : List Char :=
  if options.isScoped then imageOf (putClass scope) before part after else part

/-- What is written for a part of a sheet in a bundle. -/
def writtenPart (options : Options) (scope before part after : List Char) : List Char :=
  if options.minify then
    imageOf press (scopedPart options scope [] before (part ++ after))
      (scopedPart options scope before part after)
      (scopedPart options scope (before ++ part) after [])
  else scopedPart options scope before part after

variable {options : Options} {scope : List Char}

theorem scopedPart_nil (before after : List Char) :
    scopedPart options scope before [] after = [] := by
  unfold scopedPart
  split <;> rfl

theorem scopedPart_append (before part part' after : List Char) :
    scopedPart options scope before (part ++ part') after =
      scopedPart options scope before part (part' ++ after) ++
        scopedPart options scope (before ++ part) part' after := by
  unfold scopedPart
  split
  · rw [imageOf_append]
  · rfl

/-- The parts of a sheet are written one behind the other. -/
theorem writtenPart_append (before part after : List Char) :
    writtenPart options scope [] (before ++ (part ++ after)) [] =
      writtenPart options scope [] before (part ++ after) ++
        (writtenPart options scope before part after ++
          writtenPart options scope (before ++ part) after []) := by
  unfold writtenPart
  split
  · simp only [scopedPart_append, scopedPart_nil, List.nil_append, List.append_nil]
    rw [imageOf_append, imageOf_append, List.append_nil, List.append_nil, List.nil_append]
  · rw [scopedPart_append, scopedPart_append]
    simp

/-- A quoted text is written as it is exactly if no dot in it is taken for that of a class in a
selector and the characters that stand side by side in it may do so. -/
theorem writtenPart_eq_self_iff {before lit after : List Char} (hlit : IsQuoted lit) :
    writtenPart options scope before lit after = lit ↔
      (options.isScoped = true → HasNoClass before lit after) ∧
        (options.minify = true → lit.IsChain Fits) := by
  have hscoped : scopedPart options scope before lit after = lit ↔
      (options.isScoped = true → HasNoClass before lit after) := by
    unfold scopedPart
    split
    · rename_i h
      rw [imageOf_putClass_eq_self_iff]
      simp [h]
    · rename_i h
      simp [h]
  rw [← hscoped]
  unfold writtenPart
  split
  · rename_i hminify
    constructor
    · intro h
      -- minifying keeps all ink, so none was added by scoping
      have hsame : scopedPart options scope before lit after = lit := by
        have hink := congrArg (List.countP isInk) h
        rw [countP_imageOf countP_press] at hink
        unfold scopedPart at hink ⊢
        split
        · rename_i hisScoped
          rw [if_pos hisScoped] at hink
          exact imageOf_eq_self
            (put_eq_of_countP_le (putClass_eq_self_or scope) (Nat.le_of_eq hink))
        · rfl
      rw [hsame] at h
      exact ⟨hsame, fun _ => (imageOf_press_eq_self_iff hlit).1 h⟩
    · rintro ⟨hsame, hchain⟩
      rw [hsame]
      exact (imageOf_press_eq_self_iff hlit).2 (hchain hminify)
  · rename_i hminify
    simp [hminify]

/-! ## Bundles -/

theorem ruleAt?_eq_none {s : List Char} (h : ¬ruleWord <+: s) : ruleAt? s = none := by
  rw [ruleAt?, Text.isPrefixOf?_eq_none h]

theorem rules_of_no_rule {s : List Char} (h : ¬ruleWord <:+: s) : rules s = s.map Piece.char := by
  fun_induction rules s with
  | case1 => rfl
  | case2 c rest r after hrule ih =>
    rw [ruleAt?_eq_none fun hstart => h hstart.isInfix] at hrule
    cases hrule
  | case3 c rest hrule ih =>
    rw [List.map_cons, ih fun hinside => h (hinside.trans (List.suffix_cons c rest).isInfix)]

theorem inlinePieces_chars {ε : Type}
    (load : Specifier → Met → Except (ReadError ε) (List Char × Met)) (importer : Specifier)
    (s : List Char) (m : Met) :
    inlinePieces load importer (s.map Piece.char) m = .ok (s, m) := by
  induction s with
  | nil => rfl
  | cons c s ih =>
    rw [List.map_cons, inlinePieces, ih]
    rfl

theorem inScopeName_of_mem_scopeName {s : Specifier} {c : Char} (h : c ∈ (scopeName s).toList) :
    inScopeName c = true := by
  rw [scopeName, String.toList_ofList] at h
  obtain ⟨d, -, rfl⟩ := List.mem_map.1 h
  split
  · assumption
  · decide

/-- Where no comment begins, none does when classes are renamed. -/
theorem hasNoComment_imageOf {scope : List Char} (hscope : ∀ c ∈ scope, inScopeName c = true)
    (before after : List Char) {part : List Char} (h : HasNoComment part) :
    HasNoComment (imageOf (putClass scope) before part after) ∧
      (imageOf (putClass scope) before part after).head? = part.head? := by
  have hname : ∀ d ∈ scope ++ ['_'], d ≠ '*' := by
    rintro d hd rfl
    rcases List.mem_append.1 hd with hd | hd
    · exact absurd (hscope _ hd) (by decide)
    · exact absurd hd (by decide)
  induction part generalizing before with
  | nil => exact ⟨List.isChain_nil, rfl⟩
  | cons c part ih =>
    obtain ⟨hrest, hhead⟩ := ih (before ++ [c]) (List.isChain_of_isChain_cons h)
    rw [imageOf_cons]
    rcases putClass_eq scope before c (part ++ after) with hput | hput
    · rw [hput, List.singleton_append]
      refine ⟨List.isChain_cons.2 ⟨?_, hrest⟩, rfl⟩
      rw [hhead]
      exact (List.isChain_cons.1 h).1
    · rw [hput]
      refine ⟨List.IsChain.append (List.isChain_cons.2 ⟨?_, ?_⟩) hrest ?_, rfl⟩
      · exact fun d hd hstar => hname d (List.mem_of_mem_head? hd) hstar.2
      · rw [List.isChain_iff_forall_rel_of_append_cons_cons]
        intro d e front back hsplit hstar
        exact hname e (hsplit ▸ by simp) hstar.2
      · intro d hd e _ hslash
        rw [← List.cons_append, List.getLast?_concat] at hd
        exact absurd ((Option.some.inj hd).trans hslash.1) (by decide)

/-- The text of a bundle of a sheet without imports. -/
theorem exists_bundle_of_no_rule {ε : Type} (read : Specifier → Except ε String) (files : Nat)
    (options : Options) (s : Specifier) {source : String} (hrule : ¬ruleWord <:+: source.toList)
    (hcomment : options.minify = true → HasNoComment source.toList) :
    ∃ out, bundle read files options s source = .ok out ∧ out.deps = [] ∧
      out.code.toList = writtenPart options (scopeName s).toList [] source.toList [] := by
  have hinline : inline read (files + 1) s source.toList ⟨[Specifier.stripQuery s], []⟩ =
      .ok (source.toList, ⟨[Specifier.stripQuery s], []⟩) := by
    rw [inline, rules_of_no_rule hrule, inlinePieces_chars]
  have hscoped : (scopeClasses (scopeName s) (String.ofList source.toList)).1.toList =
      imageOf (putClass (scopeName s).toList) [] source.toList [] := by
    have hstart : stretchBefore [] = [] := rfl
    unfold scopeClasses
    dsimp only
    rw [String.toList_ofList, String.toList_ofList, scopeFrom_eq _ hstart (by simp),
      List.nil_append]
  have hpart : (if options.isScoped then scopeClasses (scopeName s) (String.ofList source.toList)
      else (String.ofList source.toList, Dict.empty)).1.toList =
        scopedPart options (scopeName s).toList [] source.toList [] := by
    unfold scopedPart
    split
    · exact hscoped
    · exact String.toList_ofList
  unfold bundle
  dsimp only
  rw [hinline]
  refine ⟨_, rfl, rfl, ?_⟩
  dsimp only
  unfold writtenPart
  split
  · rename_i hminify
    have hnone : HasNoComment (scopedPart options (scopeName s).toList [] source.toList []) := by
      unfold scopedPart
      split
      · exact (hasNoComment_imageOf (fun c => inScopeName_of_mem_scopeName) [] []
          (hcomment hminify)).1
      · exact hcomment hminify
    rw [minify_eq (by rw [hpart]; exact hnone), hpart, scopedPart_nil, scopedPart_nil]
  · exact hpart

end Stylesheet

namespace Pipeline

open Stylesheet

/-- The bundle of a sheet without imports and comments is that of what stands before a quoted text,
of the quoted text and of what stands behind it.  The quoted text is in it character for character
exactly if no dot in it is taken for that of a class in a selector, where the sheet is scoped, and
the characters that stand side by side in it may do so, where it is minified. -/
theorem bundleSheet_keeps_iff (d : Disk) (options : Options) (s : Specifier) (source : String)
    (before lit after : List Char) (hlit : IsQuoted lit)
    (hsource : source.toList = before ++ (lit ++ after)) (hrule : ¬ruleWord <:+: source.toList)
    (hcomment : options.minify = true → HasNoComment source.toList) :
    ∃ out, bundleSheet d options s source = .ok out ∧ out.deps = [] ∧
      out.code.toList =
        writtenPart options (scopeName s).toList [] before (lit ++ after) ++
          (writtenPart options (scopeName s).toList before lit after ++
            writtenPart options (scopeName s).toList (before ++ lit) after []) ∧
      (writtenPart options (scopeName s).toList before lit after = lit ↔
        (options.isScoped = true → HasNoClass before lit after) ∧
          (options.minify = true → lit.IsChain Fits)) := by
  obtain ⟨out, hout, hdeps, hcode⟩ :=
    exists_bundle_of_no_rule (readSheet d) d.fileCount options s hrule hcomment
  refine ⟨out, ?_, hdeps, ?_, writtenPart_eq_self_iff hlit⟩
  · rw [bundleSheet, hout]
  · rw [hcode, hsource, writtenPart_append]

/-- Two words with a space between them are kept in a sheet that is scoped and minified. -/
theorem bundleSheet_keeps_iff_words :
    ∃ out, bundleSheet ⟨"/app", Dict.empty⟩ ⟨true, true⟩ "./card.module.css"
        ".a\x7bcontent: \"b c\" ;\x7d" = .ok out ∧
      "\"b c\"".toList <:+: out.code.toList := by
  have hquoted : IsQuoted "\"b c\"".toList :=
    ⟨Char.ofNat 0x22, "b c".toList, by decide, by decide +kernel⟩
  obtain ⟨out, hout, -, hcode, hkept⟩ := bundleSheet_keeps_iff ⟨"/app", Dict.empty⟩ ⟨true, true⟩
    "./card.module.css" ".a\x7bcontent: \"b c\" ;\x7d" ".a\x7bcontent: ".toList "\"b c\"".toList
    " ;\x7d".toList hquoted (by decide +kernel) (by decide +kernel) (fun _ => by
      unfold HasNoComment
      decide +kernel)
  refine ⟨out, hout, ?_⟩
  rw [hkept.2 ⟨fun _ front back hsplit => ?_, fun _ => by decide +kernel⟩] at hcode
  · rw [hcode]
    exact ⟨_, _, List.append_assoc ..⟩
  · have hdot : '.' ∈ "\"b c\"".toList := hsplit ▸ by simp
    exact absurd hdot (by decide +kernel)

/-- Three quoted texts that are not in the bundle: two spaces become one, a name behind a dot is
renamed where a brace stands in the same quotes, and so it is in an attribute selector. -/
theorem bundleSheet_changes :
    (bundleSheet ⟨"/app", Dict.empty⟩ ⟨true, false⟩ "./card.css"
        "p\x7bcontent:\"a  b\"\x7d").toOption.map Output.code =
          some "p\x7bcontent:\"a b\"\x7d" ∧
      (bundleSheet ⟨"/app", Dict.empty⟩ ⟨false, true⟩ "./card.module.css"
        "p\x7bcontent:\".a\x7b\"\x7d").toOption.map Output.code =
          some "p\x7bcontent:\".card_a\x7b\"\x7d" ∧
      (bundleSheet ⟨"/app", Dict.empty⟩ ⟨false, true⟩ "./card.module.css"
        "[x=\".a\"]\x7b\x7d").toOption.map Output.code =
          some "[x=\".card_a\"]\x7b\x7d" := by
  decide +kernel

end Pipeline
end Waymark
