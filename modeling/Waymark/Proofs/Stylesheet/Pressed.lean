import Mathlib.Data.List.DropRight
import Waymark.Proofs.Text.Image
import Waymark.Proofs.Text.Pieces
import Waymark.Stylesheet.Minify
/-!
# What minifying leaves

A sheet without comments is minified in three passes, but what becomes of a character can be
told from what stands around it.  A run of blanks leaves one space, or nothing if it stands
at an end of the sheet or beside punctuation.  A semicolon goes if the next character that is
no blank closes a block.  Every other character stays.

## Main results

* `dropComments_eq_self` — without the two characters that begin a comment, nothing is taken out.
* `minify_eq` — a sheet without comments is minified character by character.
-/

namespace Waymark.Stylesheet

open Text (imageOf imageOf_cons isBlank joinPieces words)

/-! ## Comments -/

/-- Nowhere in a text a comment begins. -/
def HasNoComment (s : List Char) : Prop := s.IsChain fun c d => ¬(c = '/' ∧ d = '*')

/-- Where no comment begins, nothing is taken out. -/
theorem dropComments_eq_self {s : List Char} (h : HasNoComment s) : dropComments s = s := by
  induction s with
  | nil => exact dropComments_nil
  | cons c s ih =>
    have hrest : dropComments s = s := ih (List.isChain_of_isChain_cons h)
    have hcomment : ¬(c = '/' ∧ s.head? = some '*') := by
      rintro ⟨hc, hs⟩
      cases s with
      | nil => nomatch hs
      | cons d s => exact (List.isChain_cons_cons.1 h).1 ⟨hc, Option.some.inj hs⟩
    rw [dropComments, if_neg hcomment, hrest]

/-! ## Words -/

/-- The next character that is no blank. -/
def nextInk (s : List Char) : Option Char := (s.dropWhile isBlank).head?

theorem nextInk_cons_blank {c : Char} (hc : isBlank c = true) (s : List Char) :
    nextInk (c :: s) = nextInk s := by
  rw [nextInk, List.dropWhile_cons_of_pos hc, nextInk]

theorem nextInk_cons {c : Char} (hc : isBlank c = false) (s : List Char) :
    nextInk (c :: s) = some c := by
  rw [nextInk, List.dropWhile_cons_of_neg (by simp [hc]), List.head?_cons]

theorem words_cons_blank {c : Char} (hc : isBlank c = true) (s : List Char) :
    words (c :: s) = words s := by
  rw [words, Text.piecesWhere, if_pos hc]
  rfl

/-- A character that is no blank is a word by itself, or stands in front of the first word. -/
theorem words_cons {c : Char} (hc : isBlank c = false) (s : List Char) :
    (s.head?.all isBlank = true ∧ words (c :: s) = [c] :: words s) ∨
      ∃ a as, s.head?.all isBlank = false ∧ words s = a :: as ∧
        words (c :: s) = (c :: a) :: as := by
  have hfirst {a : List Char} {as : List (List Char)} (h : Text.piecesWhere isBlank s = a :: as) :
      words (c :: s) = (c :: a) :: as.filter (· ≠ []) := by
    rw [words, Text.piecesWhere, if_neg (by simp [hc]), h]
    rfl
  cases s with
  | nil =>
    have hpieces : Text.piecesWhere isBlank [] = [[]] := rfl
    have hword := hfirst hpieces
    exact Or.inl ⟨rfl, hword⟩
  | cons d s =>
    by_cases hd : isBlank d = true
    · refine Or.inl ⟨hd, ?_⟩
      rw [hfirst (by rw [Text.piecesWhere, if_pos hd]), words_cons_blank hd]
      rfl
    · right
      obtain ⟨a, as, has⟩ := List.exists_cons_of_ne_nil (Text.piecesWhere_ne_nil isBlank s)
      have hpieces : Text.piecesWhere isBlank (d :: s) = (d :: a) :: as := by
        rw [Text.piecesWhere, if_neg hd, has]
      refine ⟨d :: a, as.filter (· ≠ []), Bool.eq_false_iff.2 hd, ?_, hfirst hpieces⟩
      rw [words, hpieces]
      rfl

theorem words_eq_nil_iff {s : List Char} : words s = [] ↔ nextInk s = none := by
  induction s with
  | nil => exact ⟨fun _ => rfl, fun _ => rfl⟩
  | cons c s ih =>
    by_cases hc : isBlank c = true
    · rw [words_cons_blank hc, nextInk_cons_blank hc, ih]
    · have hc := Bool.eq_false_iff.2 hc
      rw [nextInk_cons hc]
      rcases words_cons hc s with ⟨-, hwords⟩ | ⟨a, as, -, -, hwords⟩ <;> simp [hwords]

theorem collapse_cons_blank {c : Char} (hc : isBlank c = true) (s : List Char) :
    collapse (c :: s) = collapse s := by
  rw [collapse, words_cons_blank hc, collapse]

/-- The blanks behind a character become one space, if anything follows them. -/
theorem collapse_cons {c : Char} (hc : isBlank c = false) (s : List Char) :
    collapse (c :: s) =
      c :: ((if s.head?.all isBlank ∧ nextInk s ≠ none then [' '] else []) ++ collapse s) := by
  rcases words_cons hc s with ⟨hblank, hwords⟩ | ⟨a, as, hink, hs, hwords⟩
  · rw [collapse, hwords, hblank, collapse]
    cases hs : words s with
    | nil => simp [joinPieces, words_eq_nil_iff.1 hs]
    | cons a as =>
      have hnext : nextInk s ≠ none := fun h => by
        rw [words_eq_nil_iff.2 h] at hs
        cases hs
      simp [joinPieces, hnext]
  · rw [collapse, hwords, hink, if_neg (by simp), collapse, hs, Text.joinPieces_cons,
      Text.joinPieces_cons]
    rfl

theorem head?_collapse (s : List Char) : (collapse s).head? = nextInk s := by
  induction s with
  | nil => rfl
  | cons c s ih =>
    by_cases hc : isBlank c = true
    · rw [collapse_cons_blank hc, nextInk_cons_blank hc, ih]
    · have hc := Bool.eq_false_iff.2 hc
      rw [collapse_cons hc, nextInk_cons hc, List.head?_cons]

/-! ## Punctuation -/

/-- The one space that is left between two characters, if neither is punctuation. -/
def spaceBetween (c : Char) (s : List Char) : List Char :=
  if s.head?.all isBlank = true ∧ isTight c = false ∧ (nextInk s).any (!isTight ·) = true then [' ']
  else []

/-- What is kept before does not matter where no space stands. -/
theorem tighten_eq (prev : Option Char) {s : List Char} (h : s.head? ≠ some ' ') :
    tighten prev s = tighten none s := by
  cases s with
  | nil => rfl
  | cons c s =>
    have hc : c ≠ ' ' := fun heq => h (heq ▸ rfl)
    rw [tighten, tighten, if_neg (fun hand => hc hand.1), if_neg (fun hand => hc hand.1)]

theorem nextInk_ne_space (s : List Char) : nextInk s ≠ some ' ' := by
  intro h
  have hink := List.head?_dropWhile_not isBlank s
  rw [show (s.dropWhile isBlank).head? = some ' ' from h] at hink
  exact absurd hink (by decide)

theorem tighten_collapse_cons {c : Char} (hc : isBlank c = false) (s : List Char) :
    tighten none (collapse (c :: s)) =
      c :: (spaceBetween c s ++ tighten none (collapse s)) := by
  have hspace : c ≠ ' ' := by
    rintro rfl
    exact absurd hc (by decide)
  have hrest (prev : Option Char) : tighten prev (collapse s) = tighten none (collapse s) :=
    tighten_eq prev (by rw [head?_collapse]; exact nextInk_ne_space s)
  rw [collapse_cons hc, tighten, if_neg fun h => hspace h.1]
  congr 1
  unfold spaceBetween
  by_cases hblank : s.head?.all isBlank = true
  · cases hnext : nextInk s with
    | none => simp [hrest]
    | some d =>
      rw [if_pos ⟨hblank, by simp⟩, List.singleton_append, tighten, head?_collapse, hnext,
        hrest (some c), hrest (some ' ')]
      cases hctight : isTight c <;> cases hdtight : isTight d <;> simp [hblank, hctight, hdtight]
  · rw [if_neg fun h => hblank h.1, if_neg fun h => hblank h.1, List.nil_append, hrest]
    rfl

theorem head?_tighten_collapse (s : List Char) :
    (tighten none (collapse s)).head? = nextInk s := by
  induction s with
  | nil => rfl
  | cons c s ih =>
    by_cases hc : isBlank c = true
    · rw [collapse_cons_blank hc, nextInk_cons_blank hc, ih]
    · have hc := Bool.eq_false_iff.2 hc
      rw [tighten_collapse_cons hc, nextInk_cons hc, List.head?_cons]

/-- A semicolon goes if a closing brace stands behind it. -/
theorem dropLastSemicolons_cons (c : Char) (s : List Char) :
    dropLastSemicolons (c :: s) =
      if c = ';' ∧ s.head? = some (Char.ofNat 0x7D) then dropLastSemicolons s
      else c :: dropLastSemicolons s := by
  have hother {c : Char} {s : List Char} (h : ¬(c = ';' ∧ s.head? = some (Char.ofNat 0x7D))) :
      dropLastSemicolons (c :: s) = c :: dropLastSemicolons s := by
    have hnone : List.isPrefixOf? [';', Char.ofNat 0x7D] (c :: s) = none := by
      apply Text.isPrefixOf?_eq_none
      rintro ⟨rest, hrest⟩
      obtain ⟨hc, hs⟩ := List.cons.inj hrest
      exact h ⟨hc.symm, hs ▸ rfl⟩
    rw [dropLastSemicolons, Text.replaceAll, hnone]
    rfl
  split
  · rename_i h
    obtain ⟨rfl, hs⟩ := h
    cases s with
    | nil => cases hs
    | cons d s =>
      obtain rfl := Option.some.inj hs
      have hfound : List.isPrefixOf? [';', Char.ofNat 0x7D] (';' :: Char.ofNat 0x7D :: s) =
          some s := Text.isPrefixOf?_append [';', Char.ofNat 0x7D] s
      rw [hother (c := Char.ofNat 0x7D) fun h => absurd h.1 (by decide), dropLastSemicolons,
        Text.replaceAll, hfound]
      dsimp only
      rw [if_pos (by simp only [List.length_cons]; omega)]
      rfl
  · rename_i h
    exact hother h

/-! ## All passes -/

/-- What minifying leaves of a text without comments. -/
def pressed (s : List Char) : List Char := dropLastSemicolons (tighten none (collapse s))

theorem pressed_cons_blank {c : Char} (hc : isBlank c = true) (s : List Char) :
    pressed (c :: s) = pressed s := by
  rw [pressed, collapse_cons_blank hc, pressed]

theorem pressed_cons {c : Char} (hc : isBlank c = false) (s : List Char) :
    pressed (c :: s) =
      (if c = ';' ∧ nextInk s = some (Char.ofNat 0x7D) then [] else [c]) ++
        (spaceBetween c s ++ pressed s) := by
  rw [pressed, tighten_collapse_cons hc, dropLastSemicolons_cons]
  unfold spaceBetween
  split
  · rename_i h
    have hsemicolon : c ≠ ';' := by
      rintro rfl
      exact absurd h.2.1 (by decide)
    rw [if_neg fun hand => hsemicolon hand.1, if_neg fun hand => hsemicolon hand.1,
      List.singleton_append, dropLastSemicolons_cons, if_neg fun hand => absurd hand.1 (by decide)]
    rfl
  · rw [List.nil_append, head?_tighten_collapse]
    split <;> rfl

/-- What is written for a character of a sheet that is minified. -/
def press (before : List Char) (c : Char) (after : List Char) : List Char :=
  if isBlank c then
    if before.getLast?.any (fun d => !isBlank d && !isTight d) ∧ (nextInk after).any (!isTight ·)
    then [' '] else []
  else if c = ';' ∧ nextInk after = some (Char.ofNat 0x7D) then []
  else [c]

/-- What is written for a text is what is left of it, behind the space that its first blanks leave
after the character before. -/
theorem imageOf_press (before s : List Char) :
    imageOf press before s [] =
      (before.getLast?.elim [] fun c => if isBlank c then [] else spaceBetween c s) ++
        pressed s := by
  induction s generalizing before with
  | nil =>
    have hpressed : pressed [] = [] := by simp [pressed, collapse, words, Text.piecesWhere,
      joinPieces, tighten, dropLastSemicolons, Text.replaceAll]
    rw [hpressed]
    cases before.getLast? with
    | none => rfl
    | some d => simp [spaceBetween, nextInk]
  | cons c s ih =>
    rw [imageOf_cons, List.append_nil, ih, List.getLast?_concat, Option.elim_some, press]
    by_cases hc : isBlank c = true
    · rw [if_pos hc, if_pos hc, pressed_cons_blank hc, List.nil_append]
      congr 1
      cases before.getLast? with
      | none => simp
      | some d =>
        cases hd : isBlank d <;> simp [hd, spaceBetween, hc, nextInk_cons_blank hc]
    · have hopening : (before.getLast?.elim [] fun d =>
          if isBlank d then [] else spaceBetween d (c :: s)) = [] := by
        cases before.getLast? with
        | none => rfl
        | some d => simp [spaceBetween, hc]
      rw [if_neg hc, if_neg hc, hopening, pressed_cons (Bool.eq_false_iff.2 hc), List.nil_append]

/-- A sheet without comments is minified character by character. -/
theorem minify_eq {css : String} (h : HasNoComment css.toList) :
    (minify css).toList = imageOf press [] css.toList [] := by
  rw [imageOf_press, minify, String.toList_ofList, dropComments_eq_self h]
  rfl

end Waymark.Stylesheet
