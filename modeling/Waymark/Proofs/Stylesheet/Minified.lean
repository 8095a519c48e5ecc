import Waymark.Proofs.Stylesheet.Pressed
/-!
# What a minified sheet holds

Minifying never changes the order of what it keeps.  Once the comments are out, it keeps every
character but the blanks and the semicolons that end a block, and of the blanks between two
characters that it keeps it leaves one space, unless blanks have no meaning beside one of them.
A semicolon that goes has a closing brace behind it, beside which no space stands anyway, so it
does not matter that spaces are dropped before semicolons are.

## Main results

* `uncommented_iff` — comments are taken out from left to right, each up to its first end.
* `filter_imageOf_press` — the characters that are no blanks are those kept.
* `imageOf_press_between` — what is left of a stretch of which nothing is kept.
* `space_of_imageOf_press` — where the spaces of a minified sheet stand.
* `minify_presses` — all of it.
-/

namespace Waymark.Stylesheet

open Text (imageOf imageOf_append imageOf_cons imageOf_nil isBlank)

/-! ## Comments -/

/-- What is left of a text when its comments are taken out from left to right.  A comment ends where
its end first occurs, and what has no end is no comment. -/
inductive Uncommented : List Char → List Char → Prop where
  | nil : Uncommented [] []
  | comment {body rest s : List Char} (hbody : ¬commentEnd <:+: body ++ ['*'])
      (h : Uncommented rest s) : Uncommented ('/' :: '*' :: (body ++ (commentEnd ++ rest))) s
  | char {c : Char} {rest s : List Char}
      (hcomment : ∀ body after, c :: rest ≠ '/' :: '*' :: (body ++ (commentEnd ++ after)))
      (h : Uncommented rest s) : Uncommented (c :: rest) (c :: s)

/-- What stands before and after the end of the comment that a text begins with. -/
def cutComment (c : Char) (rest : List Char) : Option (List Char × List Char) :=
  if c = '/' ∧ rest.head? = some '*' then Text.cutText commentEnd (rest.drop 1) else none

theorem dropComments_cons (c : Char) (rest : List Char) :
    dropComments (c :: rest) = match cutComment c rest with
      | some (_, after) =>
        if after.length < (c :: rest).length then dropComments after else c :: rest
      | none => c :: dropComments rest := by
  rw [dropComments]
  rfl

theorem cutComment_eq_some_iff {c : Char} {rest body after : List Char} :
    cutComment c rest = some (body, after) ↔
      c :: rest = '/' :: '*' :: (body ++ (commentEnd ++ after)) ∧
        ¬commentEnd <:+: body ++ ['*'] := by
  have hcut {s : List Char} : Text.cutText commentEnd s = some (body, after) ↔
      s = body ++ (commentEnd ++ after) ∧ ¬commentEnd <:+: body ++ ['*'] :=
    Text.cutText_eq_some_iff (by decide)
  unfold cutComment
  split
  · rename_i hopens
    obtain ⟨rfl, hstar⟩ := hopens
    obtain ⟨rest, rfl⟩ := List.head?_eq_some_iff.1 hstar
    rw [hcut, List.drop_succ_cons, List.drop_zero, List.cons_inj_right, List.cons_inj_right]
  · rename_i hopens
    constructor
    · intro h
      nomatch h
    · rintro ⟨h, -⟩
      obtain ⟨rfl, rfl⟩ := List.cons.inj h
      exact absurd ⟨rfl, rfl⟩ hopens

/-- What begins with a comment begins with one that ends where its end first occurs. -/
theorem isSome_cutComment (body after : List Char) :
    (cutComment '/' ('*' :: (body ++ (commentEnd ++ after)))).isSome = true := by
  rw [cutComment, if_pos ⟨rfl, rfl⟩]
  exact Text.isSome_cutText ..

/-- Comments are taken out from left to right, each up to its first end. -/
theorem uncommented_iff {text s : List Char} : Uncommented text s ↔ s = dropComments text := by
  constructor
  · intro h
    induction h with
    | nil => exact dropComments_nil.symm
    | @comment body rest s hbody h ih =>
      rw [dropComments_cons, cutComment_eq_some_iff.2 ⟨rfl, hbody⟩]
      dsimp only
      rw [if_pos, ih]
      simp only [List.length_cons, List.length_append]
      omega
    | @char c rest s hcomment h ih =>
      have hnone : cutComment c rest = none := by
        rw [Option.eq_none_iff_forall_ne_some]
        rintro ⟨body, after⟩ hcut
        exact hcomment body after (cutComment_eq_some_iff.1 hcut).1
      rw [dropComments_cons, hnone, ih]
  · rintro rfl
    fun_induction dropComments text with
    | case1 => exact .nil
    | case2 c rest comment? body after hcomment hlength ih =>
      obtain ⟨htext, hfirst⟩ := cutComment_eq_some_iff.1 hcomment
      rw [htext]
      exact .comment hfirst ih
    | case3 c rest comment? body after hcomment hlength =>
      obtain ⟨htext, -⟩ := cutComment_eq_some_iff.1 hcomment
      have hshorter := congrArg List.length htext
      simp only [List.length_cons, List.length_append] at hshorter hlength
      omega
    | case4 c rest comment? hcomment ih =>
      refine .char (fun body after htext => ?_) ih
      obtain ⟨rfl, rfl⟩ := List.cons.inj htext
      have hsome := isSome_cutComment body after
      have hnone : cutComment '/' ('*' :: (body ++ (commentEnd ++ after))) = none := hcomment
      rw [hnone] at hsome
      nomatch hsome

/-! ## What is kept -/

/-- Whether a character is no blank. -/
def isVisible (c : Char) : Bool := !isBlank c

/-- Whether blanks beside a character have a meaning. -/
def isOpen (c : Char) : Bool := isVisible c && !isTight c

/-- Whether a character of a sheet is kept: a blank is not, and a semicolon is not if the next
character that is no blank closes a block. -/
def isKept (c : Char) (after : List Char) : Bool :=
  isVisible c && !(c = ';' && nextInk after = some (Char.ofNat 0x7D))

/-- The character itself, if it is kept. -/
def keep (_ : List Char) (c : Char) (after : List Char) : List Char :=
  if isKept c after then [c] else []

theorem isVisible_eq_true_iff {c : Char} : isVisible c = true ↔ isBlank c = false := by
  rw [isVisible, Bool.not_eq_true']

theorem isVisible_of_isKept {c : Char} {after : List Char} (h : isKept c after = true) :
    isVisible c = true :=
  (Bool.and_eq_true_iff.1 h).1

/-- A character that is not kept is a blank, or a semicolon that ends a block. -/
theorem isKept_eq_false_iff {c : Char} {after : List Char} :
    isKept c after = false ↔
      isBlank c = true ∨ c = ';' ∧ nextInk after = some (Char.ofNat 0x7D) := by
  rw [isKept, isVisible, Bool.and_eq_false_iff, Bool.not_eq_false', Bool.not_eq_false',
    Bool.and_eq_true_iff, decide_eq_true_iff, decide_eq_true_iff]

/-- Beside a character that is not kept blanks have no meaning. -/
theorem isOpen_eq_false {c : Char} {after : List Char} (h : isKept c after = false) :
    isOpen c = false := by
  rcases isKept_eq_false_iff.1 h with hblank | ⟨rfl, -⟩
  · simp [isOpen, isVisible, hblank]
  · rfl

theorem isKept_of_isOpen {c : Char} (after : List Char) (h : isOpen c = true) :
    isKept c after = true := by
  rw [← Bool.not_eq_false]
  intro hkept
  exact absurd (h.symm.trans (isOpen_eq_false hkept)) Bool.noConfusion

theorem press_of_isKept {c : Char} {after : List Char} (before : List Char)
    (h : isKept c after = true) : press before c after = [c] := by
  have hnot : ¬(isBlank c = true ∨ c = ';' ∧ nextInk after = some (Char.ofNat 0x7D)) := by
    rw [← isKept_eq_false_iff, h]
    exact Bool.noConfusion
  obtain ⟨hblank, hsemicolon⟩ := not_or.1 hnot
  rw [press, if_neg hblank, if_neg hsemicolon]

/-- The characters of an image that are no blanks are those kept. -/
theorem filter_imageOf_press (before part after : List Char) :
    (imageOf press before part after).filter isVisible = imageOf keep before part after := by
  have hspace : isVisible ' ' = false := by decide
  have hput (before : List Char) (c : Char) (after : List Char) :
      (press before c after).filter isVisible = keep before c after := by
    unfold keep
    split
    · rename_i hkept
      rw [press_of_isKept before hkept, List.filter_cons_of_pos (isVisible_of_isKept hkept),
        List.filter_nil]
    · rename_i hkept
      unfold press
      split
      · split
        · rw [List.filter_cons_of_neg (by simp [hspace]), List.filter_nil]
        · rfl
      · rename_i hblank
        rw [if_pos, List.filter_nil]
        exact (isKept_eq_false_iff.1 (Bool.eq_false_iff.2 hkept)).resolve_left hblank
  induction part generalizing before with
  | nil => rfl
  | cons c part ih => rw [imageOf_cons, imageOf_cons, List.filter_append, hput, ih]

/-! ## What is left between -/

/-- Nothing of a part is kept: neither is its first character, nor any other. -/
theorem imageOf_keep_cons_eq_nil {before part after : List Char} {c : Char} :
    imageOf keep before (c :: part) after = [] ↔
      isKept c (part ++ after) = false ∧ imageOf keep (before ++ [c]) part after = [] := by
  rw [imageOf_cons, List.append_eq_nil_iff, keep]
  refine and_congr_left fun _ => ?_
  cases isKept c (part ++ after) <;> simp

/-- Behind a text of which nothing is kept stands what is next in it, or a closing brace, and
blanks have no meaning beside either of them. -/
theorem nextInk_of_keep_eq_nil {before gap after : List Char} {d : Char} (hd : isVisible d = true)
    (hgap : imageOf keep before gap (d :: after) = []) :
    ∃ e, nextInk (gap ++ d :: after) = some e ∧ isTight e = isTight d := by
  induction gap generalizing before with
  | nil => exact ⟨d, nextInk_cons (isVisible_eq_true_iff.1 hd) after, rfl⟩
  | cons c gap ih =>
    obtain ⟨hc, hgap⟩ := imageOf_keep_cons_eq_nil.1 hgap
    obtain ⟨e, he, htight⟩ := ih hgap
    rw [List.cons_append]
    rcases isKept_eq_false_iff.1 hc with hblank | ⟨rfl, hbrace⟩
    · exact ⟨e, by rw [nextInk_cons_blank hblank, he], htight⟩
    · rw [he] at hbrace
      obtain rfl := Option.some.inj hbrace
      exact ⟨';', nextInk_cons (by decide) _, htight⟩

/-- Nothing is left where nothing is kept, unless a character before it leaves a space. -/
theorem imageOf_press_eq_nil {before gap after : List Char}
    (hbefore : before.getLast?.any isOpen = false) (hgap : imageOf keep before gap after = []) :
    imageOf press before gap after = [] := by
  induction gap generalizing before with
  | nil => rfl
  | cons c gap ih =>
    obtain ⟨hc, hgap⟩ := imageOf_keep_cons_eq_nil.1 hgap
    have hclosed : (before ++ [c]).getLast?.any isOpen = false := by
      rw [List.getLast?_concat]
      exact isOpen_eq_false hc
    rw [imageOf_cons, ih hclosed hgap, List.append_nil, press]
    rcases isKept_eq_false_iff.1 hc with hblank | ⟨rfl, hbrace⟩
    · rw [if_pos hblank, if_neg]
      rintro ⟨hopen, -⟩
      exact absurd (hbefore.symm.trans hopen) Bool.noConfusion
    · rw [if_neg (by decide), if_pos ⟨rfl, hbrace⟩]

/-- What is left between two characters that are kept, of a stretch of which nothing is. -/
def between (c : Char) (gap : List Char) (d : Char) : List Char :=
  if gap.any isBlank && !isTight c && !isTight d then [' '] else []

/-- What is left of a stretch of which nothing is kept. -/
theorem imageOf_press_between {before gap after : List Char} {c d : Char} (hc : isVisible c = true)
    (hd : isVisible d = true) (hgap : imageOf keep (before ++ [c]) gap (d :: after) = []) :
    imageOf press (before ++ [c]) gap (d :: after) = between c gap d := by
  cases gap with
  | nil => rfl
  | cons b gap =>
    obtain ⟨hb, hgap⟩ := imageOf_keep_cons_eq_nil.1 hgap
    obtain ⟨e, he, htight⟩ := nextInk_of_keep_eq_nil hd hgap
    have hrest : imageOf press (before ++ [c] ++ [b]) gap (d :: after) = [] := by
      refine imageOf_press_eq_nil ?_ hgap
      rw [List.getLast?_concat]
      exact isOpen_eq_false hb
    rw [imageOf_cons, hrest, List.append_nil, press, between]
    rcases isKept_eq_false_iff.1 hb with hblank | ⟨rfl, hbrace⟩
    · rw [if_pos hblank, List.getLast?_concat, he]
      simp [hblank, htight, isVisible_eq_true_iff.1 hc]
    · rw [he] at hbrace
      obtain rfl := Option.some.inj hbrace
      rw [if_neg (by decide), if_pos ⟨rfl, he⟩, ← htight]
      simp [show isTight (Char.ofNat 0x7D) = true from rfl]

/-! ## Spaces -/

theorem isOpen_of_nextInk {s : List Char} {d : Char} (h : nextInk s = some d)
    (hd : isTight d = false) : isOpen d = true := by
  have hvisible := List.head?_dropWhile_not isBlank s
  rw [show (s.dropWhile isBlank).head? = some d from h] at hvisible
  simp [isOpen, isVisible, hd, show isBlank d = false from hvisible]

/-- What is left of a text begins with its first character that is no blank. -/
theorem head?_pressed {s : List Char} {d : Char} (h : nextInk s = some d)
    (hd : isTight d = false) : (pressed s).head? = some d := by
  obtain ⟨rest, hrest⟩ := List.head?_eq_some_iff.1 ((head?_tighten_collapse s).trans h)
  have hsemicolon : ¬(d = ';' ∧ rest.head? = some (Char.ofNat 0x7D)) := by
    rintro ⟨rfl, -⟩
    exact absurd hd (by decide)
  rw [pressed, hrest, dropLastSemicolons_cons, if_neg hsemicolon, List.head?_cons]

/-- Where a character is blank that is written for one of a sheet, blanks have a meaning beside what
stands before and behind it, and so it is a space. -/
theorem of_press_blank {before after front back : List Char} {x c : Char}
    (hc : isBlank c = true) (h : press before x after = front ++ c :: back) :
    isBlank x = true ∧ before.getLast?.any isOpen = true ∧
      (nextInk after).any (!isTight ·) = true ∧ front = [] ∧ c = ' ' ∧ back = [] := by
  have hsingle {y : Char} (h : [y] = front ++ c :: back) : front = [] ∧ c = y ∧ back = [] := by
    cases front with
    | nil =>
      obtain ⟨rfl, rfl⟩ := List.cons.inj h
      exact ⟨rfl, rfl, rfl⟩
    | cons z front => simp at h
  unfold press at h
  split at h
  · rename_i hx
    split at h
    · rename_i hmeaning
      exact ⟨hx, hmeaning.1, hmeaning.2, hsingle h⟩
    · simp at h
  · rename_i hx
    split at h
    · simp at h
    · obtain ⟨-, rfl, -⟩ := hsingle h
      exact absurd hc hx

/-- A blank of a minified sheet is a space, and blanks have a meaning beside both of its
neighbours. -/
theorem space_of_imageOf_press {s front back : List Char} {c : Char} (hc : isBlank c = true)
    (h : imageOf press [] s [] = front ++ c :: back) :
    c = ' ' ∧ front.getLast?.any isOpen = true ∧ back.head?.any isOpen = true := by
  obtain ⟨p, x, q, u, v, rfl, hput, rfl, rfl⟩ := Text.exists_of_imageOf_eq h
  rw [List.nil_append, List.append_nil] at hput
  obtain ⟨hx, hlast, hnext, rfl, rfl, rfl⟩ := of_press_blank hc hput
  refine ⟨rfl, ?_, ?_⟩
  · obtain ⟨y, hy, hopen⟩ := (Option.any_eq_true ..).1 hlast
    obtain ⟨p, rfl⟩ := List.getLast?_eq_some_iff.1 hy
    simp only [List.append_nil]
    rw [imageOf_append, imageOf_cons, imageOf_nil, press_of_isKept _ (isKept_of_isOpen _ hopen),
      List.append_nil, List.getLast?_concat]
    exact hopen
  · obtain ⟨d, hd, htight⟩ := (Option.any_eq_true ..).1 hnext
    have hclosed : isTight d = false := by rwa [Bool.not_eq_true'] at htight
    rw [List.nil_append, List.nil_append, imageOf_press, List.getLast?_concat, Option.elim_some,
      if_pos hx, List.nil_append, head?_pressed hd hclosed]
    exact isOpen_of_nextInk hd hclosed

/-! ## Minified sheets -/

/-- What is left of the comments is minified character by character. -/
theorem toList_minify (css : String) :
    (minify css).toList = imageOf press [] (dropComments css.toList) [] := by
  rw [imageOf_press, minify, String.toList_ofList]
  rfl

/-- Once the comments are out, a minified sheet holds, in their order, the characters that are kept.
Of what stands between two that are kept and follow each other it holds one space or nothing, and a
space is there only where it has a meaning. -/
theorem minify_presses (css : String) :
    ∃ s, (∀ t, Uncommented css.toList t ↔ t = s) ∧
      (minify css).toList.filter isVisible = imageOf keep [] s [] ∧
      (∀ before c gap d after, s = before ++ c :: (gap ++ d :: after) →
        isKept c (gap ++ d :: after) = true → isKept d after = true →
        imageOf keep (before ++ [c]) gap (d :: after) = [] →
        ∃ front back, (minify css).toList = front ++ c :: (between c gap d ++ d :: back) ∧
          front.filter isVisible = imageOf keep [] before (c :: (gap ++ d :: after)) ∧
          back.filter isVisible = imageOf keep (before ++ c :: (gap ++ [d])) after []) ∧
      ∀ front c back, (minify css).toList = front ++ c :: back → isBlank c = true →
        c = ' ' ∧ front.getLast?.any isOpen = true ∧ back.head?.any isOpen = true := by
  refine ⟨dropComments css.toList, fun t => uncommented_iff, ?_, ?_, ?_⟩
  · rw [toList_minify, filter_imageOf_press]
  · intro before c gap d after hs hc hd hgap
    refine ⟨imageOf press [] before (c :: (gap ++ d :: after)),
      imageOf press (before ++ c :: (gap ++ [d])) after [], ?_, filter_imageOf_press ..,
      filter_imageOf_press ..⟩
    rw [toList_minify, hs, imageOf_append, imageOf_cons, imageOf_append, imageOf_cons]
    simp only [List.append_nil, List.nil_append]
    rw [press_of_isKept _ hc, press_of_isKept _ hd,
      imageOf_press_between (isVisible_of_isKept hc) (isVisible_of_isKept hd) hgap]
    simp only [List.append_assoc, List.cons_append, List.nil_append]
  · intro front c back h hc
    rw [toList_minify] at h
    exact space_of_imageOf_press hc h

/-- A comment leaves the blanks around it, and an open one stays. -/
example : minify ".a /* ; */ b > .c ,\n.d \x7b e: /*/ ; */ 1 ; ; \x7d /* f" =
    ".a b>.c,.d\x7be: 1;\x7d/* f" := by
  decide +kernel

end Waymark.Stylesheet
