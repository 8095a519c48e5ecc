/-!
# Cutting text

Text is cut as a list of characters, so that every cut is an equation about
`++`.  This module holds the cuts the rest of the library is written with:
at the first or last separator, into pieces between separators, and off either
end.

## Main results

* `eq_of_cut` — a cut loses exactly the separator it was made at.
* `notMem_of_cut` — what stands before the first cut holds no separator.
* `joinPieces_pieces` — the pieces between separators, put together again, are the text.
-/

namespace Waymark.Text

/-! ## At a separator -/

/-- What stands before and after the first `c`, if there is one. -/
def cut (c : Char) : List Char → Option (List Char × List Char)
  | [] => none
  | d :: s =>
    if d = c then some ([], s)
    else (cut c s).map fun (before, after) => (d :: before, after)

/-- A text is what it was cut into, with the character between. -/
theorem eq_of_cut {c : Char} {s a b : List Char} (h : cut c s = some (a, b)) :
    s = a ++ c :: b := by
  induction s generalizing a b with
  | nil => simp [cut] at h
  | cons d s ih =>
    by_cases hd : d = c
    · simp only [cut, hd, if_true, Option.some.injEq, Prod.mk.injEq] at h
      obtain ⟨rfl, rfl⟩ := h
      simp [hd]
    · simp only [cut, hd, if_false, Option.map_eq_some_iff] at h
      obtain ⟨⟨a', b'⟩, h', heq⟩ := h
      simp only [Prod.mk.injEq] at heq
      obtain ⟨rfl, rfl⟩ := heq
      simp [ih h']

/-- A text is cut at the first place. -/
theorem notMem_of_cut {c : Char} {s a b : List Char} (h : cut c s = some (a, b)) :
    c ∉ a := by
  induction s generalizing a b with
  | nil => simp [cut] at h
  | cons d s ih =>
    by_cases hd : d = c
    · simp only [cut, hd, if_true, Option.some.injEq, Prod.mk.injEq] at h
      obtain ⟨rfl, rfl⟩ := h
      simp
    · simp only [cut, hd, if_false, Option.map_eq_some_iff] at h
      obtain ⟨⟨a', b'⟩, h', heq⟩ := h
      simp only [Prod.mk.injEq] at heq
      obtain ⟨rfl, rfl⟩ := heq
      simp [ih h', Ne.symm hd]

/-- A text is not cut exactly if it lacks the character. -/
theorem cut_eq_none_iff {c : Char} {s : List Char} : cut c s = none ↔ c ∉ s := by
  induction s with
  | nil => simp [cut]
  | cons d s ih =>
    by_cases hd : d = c
    · simp [cut, hd]
    · simp [cut, hd, ih, Ne.symm hd]

/-- Where a text is cut whose front lacks the character. -/
theorem cut_append {c : Char} {a : List Char} (b : List Char) (h : c ∉ a) :
    cut c (a ++ c :: b) = some (a, b) := by
  induction a with
  | nil => simp [cut]
  | cons d a ih =>
    simp only [List.mem_cons, not_or] at h
    simp [cut, Ne.symm h.1, ih h.2]

/-- What stands before and after the last `c`, if there is one. -/
def cutLast (c : Char) (s : List Char) : Option (List Char × List Char) :=
  (cut c s.reverse).map fun (after, before) => (before.reverse, after.reverse)

/-- What stands before the first `c`; the whole text when there is none. -/
def before (c : Char) (s : List Char) : List Char :=
  s.takeWhile (· ≠ c)

/-! ## Between separators -/

/-- The pieces of `s` between characters that satisfy `p`.  There is always one
more piece than there are separators, so the empty text has one empty piece. -/
def piecesWhere (p : Char → Bool) : List Char → List (List Char)
  | [] => [[]]
  | d :: s =>
    if p d then [] :: piecesWhere p s
    else match piecesWhere p s with
      | [] => [[d]]
      | a :: as => (d :: a) :: as

/-- The pieces of `s` between occurrences of `c`. -/
def pieces (c : Char) (s : List Char) : List (List Char) :=
  piecesWhere (· = c) s

/-- The pieces of `s` between occurrences of `c` that are not empty. -/
def segments (c : Char) (s : List Char) : List (List Char) :=
  (pieces c s).filter (· ≠ [])

/-- Pieces written one after another with `c` between them. -/
def joinPieces (c : Char) : List (List Char) → List Char
  | [] => []
  | [a] => a
  | a :: b :: as => a ++ c :: joinPieces c (b :: as)

/-- There is always one piece at least. -/
theorem piecesWhere_ne_nil (p : Char → Bool) (s : List Char) : piecesWhere p s ≠ [] := by
  cases s with
  | nil => simp [piecesWhere]
  | cons d s =>
    simp only [piecesWhere]
    split
    · simp
    · split <;> simp

/-- Pieces put together again are the text. -/
theorem joinPieces_pieces (c : Char) (s : List Char) : joinPieces c (pieces c s) = s := by
  induction s with
  | nil => rfl
  | cons d s ih =>
    simp only [pieces, piecesWhere] at ih ⊢
    by_cases hd : d = c
    · simp only [hd, decide_true, if_true]
      cases hp : piecesWhere (fun x => decide (x = c)) s with
      | nil => exact absurd hp (piecesWhere_ne_nil _ _)
      | cons a as => simp [joinPieces, ← hp, ih]
    · simp only [hd, decide_false, Bool.false_eq_true, if_false]
      cases hp : piecesWhere (fun x => decide (x = c)) s with
      | nil => exact absurd hp (piecesWhere_ne_nil _ _)
      | cons a as =>
        rw [hp] at ih
        cases as with
        | nil => simpa [joinPieces] using ih
        | cons b bs => simpa [joinPieces] using ih

/-- No piece holds the separator. -/
theorem notMem_of_mem_pieces {c : Char} {s a : List Char} (h : a ∈ pieces c s) : c ∉ a := by
  induction s generalizing a with
  | nil =>
    simp [pieces, piecesWhere] at h
    simp [h]
  | cons d s ih =>
    simp only [pieces, piecesWhere] at ih h
    by_cases hd : d = c
    · simp only [hd, decide_true, if_true, List.mem_cons] at h
      rcases h with rfl | h
      · simp
      · exact ih h
    · simp only [hd, decide_false, Bool.false_eq_true, if_false] at h
      cases hp : piecesWhere (fun x => decide (x = c)) s with
      | nil => exact absurd hp (piecesWhere_ne_nil _ _)
      | cons b bs =>
        rw [hp] at h ih
        simp only [List.mem_cons] at h
        rcases h with rfl | h
        · have := ih (a := b) (by simp)
          simp [this, Ne.symm hd]
        · exact ih (by simp [h])

/-! ## Off an end -/

/-- A prefix that was taken off stands at the front. -/
theorem eq_append_of_isPrefixOf? {α : Type} [BEq α] [LawfulBEq α] {p s r : List α}
    (h : List.isPrefixOf? p s = some r) : s = p ++ r := by
  induction p generalizing s with
  | nil => exact Option.some.inj h
  | cons a p ih =>
    cases s with
    | nil => nomatch h
    | cons b s =>
      have h : (if a == b then List.isPrefixOf? p s else none) = some r := h
      split at h
      · rename_i hab
        simp only [beq_iff_eq] at hab
        simp [hab, ih h]
      · nomatch h

/-- `s` without the ending `t`, if it has that ending. -/
def dropSuffix? (t s : List Char) : Option (List Char) :=
  (List.isPrefixOf? t.reverse s.reverse).map List.reverse

/-- `s` without the characters at its end that satisfy `p`. -/
def dropEndWhile (p : Char → Bool) (s : List Char) : List Char :=
  (s.reverse.dropWhile p).reverse

/-- `s` without every copy of `t` that it starts with.  The empty text is never taken off. -/
def dropCopies (t s : List Char) : List Char :=
  match List.isPrefixOf? t s with
  | none => s
  | some r => if r.length < s.length then dropCopies t r else s
termination_by s.length

/-- `s` with every occurrence of `t` replaced by `u`, from left to right.  The empty text
occurs nowhere. -/
def replaceAll (t u s : List Char) : List Char :=
  match s with
  | [] => []
  | c :: r =>
    match List.isPrefixOf? t (c :: r) with
    | some rest => if rest.length < (c :: r).length then u ++ replaceAll t u rest else c :: r
    | none => c :: replaceAll t u r
termination_by s.length
decreasing_by
  · assumption
  · simp

/-- `s` with the first `c` replaced by `u`. -/
def replaceFirst (c : Char) (u s : List Char) : List Char :=
  match cut c s with
  | some (before, after) => before ++ u ++ after
  | none => s

/-- How often `t` occurs in `s`, counted from left to right without overlap. -/
def countText (t s : List Char) : Nat :=
  match s with
  | [] => 0
  | c :: r =>
    match List.isPrefixOf? t (c :: r) with
    | some rest => if rest.length < (c :: r).length then countText t rest + 1 else 0
    | none => countText t r
termination_by s.length
decreasing_by
  · assumption
  · simp

/-- Whether `t` occurs in `s`. -/
def occursIn (t : List Char) : List Char → Bool
  | [] => t.isEmpty
  | c :: s => t.isPrefixOf (c :: s) || occursIn t s

/-- What stands before and after the first `t`, if it occurs. -/
def cutText (t : List Char) : List Char → Option (List Char × List Char)
  | [] => if t.isEmpty then some ([], []) else none
  | c :: s =>
    match List.isPrefixOf? t (c :: s) with
    | some rest => some ([], rest)
    | none => (cutText t s).map fun (before, after) => (c :: before, after)

end Waymark.Text
