import Mathlib.Data.List.DropRight
import Waymark.Proofs.Text.Image
import Waymark.Stylesheet.Bundle
/-!
# Where classes are renamed

Scoping a sheet goes through it once, with the stretch that it is in, and renames the classes
of a stretch when it comes to the brace that ends it.  Seen from a single dot, all that
matters is the stretch around it: the dot must begin a class, the stretch must end at an
opening brace, and it must not begin with `@`.

Quotes do not matter, neither inside of the stretch nor around the characters that end it.

## Main results

* `renameClasses_eq` — the classes of a stretch are renamed dot by dot.
* `scopeFrom_eq` — the classes of a sheet are renamed at those dots that are in a selector.
-/

namespace Waymark.Stylesheet

open Text (imageOf imageOf_cons imageOf_append imageOf_congr imageOf_eq_self)

/-! ## Stretches -/

/-- Whether a character ends a stretch. -/
def isCut (c : Char) : Bool := c = Char.ofNat 0x7B || c = Char.ofNat 0x7D || c = ';'

/-- What stands before a place in its stretch. -/
def stretchBefore (before : List Char) : List Char := before.rtakeWhile fun c => !isCut c

/-- What stands behind a place in its stretch. -/
def stretchAfter (after : List Char) : List Char := after.takeWhile fun c => !isCut c

/-- Whether a place lies in a selector: its stretch ends at an opening brace and does not begin
with `@`. -/
def inSelector (before after : List Char) : Bool :=
  (after.dropWhile fun c => !isCut c).head? = some (Char.ofNat 0x7B) &&
    !(['@'].isPrefixOf (Text.trimStart (stretchBefore before ++ stretchAfter after)))

/-- What is written for a character of a stretch whose classes are renamed. -/
def putDot (scope _before : List Char) (c : Char) (after : List Char) : List Char :=
  if c = '.' ∧ (className? after).isSome then c :: (scope ++ ['_']) else [c]

/-- What is written for a character of a sheet that is scoped. -/
def putClass (scope before : List Char) (c : Char) (after : List Char) : List Char :=
  if inSelector before (c :: after) then putDot scope before c after else [c]

/-! ## Renamed stretches -/

/-- A class name stands at the start of its text and has no dot in it. -/
theorem isPrefix_of_className? {s name : List Char} (h : className? s = some name) :
    name <+: s ∧ '.' ∉ name := by
  have hclass (rest : List Char) : '.' ∉ rest.takeWhile inClass := fun hmem =>
    absurd (List.mem_takeWhile_imp hmem) (by decide)
  unfold className? at h
  split at h
  · rename_i c rest
    split at h
    · rename_i hc
      obtain rfl := Option.some.inj h
      refine ⟨(List.prefix_cons_inj c).2 (List.takeWhile_prefix _), ?_⟩
      rw [List.mem_cons, not_or]
      exact ⟨fun hdot => absurd (hdot ▸ hc) (by decide), hclass rest⟩
    · split at h
      · rename_i hc
        obtain rfl := Option.some.inj h
        rw [hc.1]
        refine ⟨(List.prefix_cons_inj '-').2 (List.takeWhile_prefix _), ?_⟩
        rw [List.mem_cons, not_or]
        exact ⟨by decide, hclass rest⟩
      · nomatch h
  · nomatch h

/-- Whether a class name stands at the start of a text shows in its first two characters. -/
theorem isSome_className? (c : Char) (s : List Char) :
    (className? (c :: s)).isSome = (beginsClass c || c = '-' && s.head?.any beginsClass) := by
  unfold className?
  dsimp only
  by_cases hc : beginsClass c = true
  · simp [hc]
  · by_cases hdash : c = '-' ∧ s.head?.any beginsClass = true
    · simp [hdash]
    · rw [if_neg hc, if_neg hdash]
      simpa [hc] using hdash

/-- A brace behind a text does not make a class of its start. -/
theorem isSome_className?_append (s rest : List Char) :
    (className? (s ++ Char.ofNat 0x7B :: rest)).isSome = (className? s).isSome := by
  have hbrace : beginsClass (Char.ofNat 0x7B) = false := by decide
  match s with
  | [] => rfl
  | [c] => simp [isSome_className?, hbrace]
  | c :: d :: s => simp [isSome_className?]

/-- The classes of a stretch are renamed dot by dot. -/
theorem renameClasses_eq (scope before segment rest : List Char) :
    (renameClasses scope segment).1 =
      imageOf (putDot scope) before segment (Char.ofNat 0x7B :: rest) := by
  fun_induction renameClasses scope segment generalizing before with
  | case1 => rfl
  | case2 c s name h text names hrest ih =>
    split at h
    · rename_i hdot
      obtain ⟨⟨tail, rfl⟩, hnodot⟩ := isPrefix_of_className? h
      rw [List.drop_left] at hrest ih
      rw [hrest] at ih
      have hname : imageOf (putDot scope) (before ++ [c]) name (tail ++ Char.ofNat 0x7B :: rest) =
          name := by
        apply imageOf_eq_self
        rintro front d back rfl
        refine if_neg ?_
        rintro ⟨rfl, -⟩
        exact hnodot (by simp)
      rw [imageOf_cons, imageOf_append, hname, ← ih, putDot, isSome_className?_append,
        if_pos ⟨hdot, by rw [h]; rfl⟩]
      simp
    · nomatch h
  | case3 c s h text names hrest ih =>
    rw [hrest] at ih
    rw [imageOf_cons, ← ih (before ++ [c]), putDot, isSome_className?_append, if_neg]
    · rfl
    · rintro ⟨rfl, hsome⟩
      rw [dif_pos rfl] at h
      rw [h] at hsome
      nomatch hsome

/-! ## Sheets -/

theorem stretchBefore_append {before front : List Char} (hbefore : stretchBefore before = [])
    (hfront : ∀ c ∈ front, isCut c = false) : stretchBefore (before ++ front) = front := by
  induction front using List.reverseRecOn with
  | nil => rw [List.append_nil, hbefore]
  | append_singleton front c ih =>
    have hc := hfront c (by simp)
    rw [stretchBefore, ← List.append_assoc, List.rtakeWhile_concat_pos _ _ _ (by simp [hc])]
    exact congrArg (· ++ [c]) (ih fun d hd => hfront d (List.mem_append_left _ hd))

theorem stretchBefore_cut (before : List Char) {c : Char} (hc : isCut c = true) :
    stretchBefore (before ++ [c]) = [] := by
  rw [stretchBefore, List.rtakeWhile_concat_neg]
  simp [hc]

/-- In front of a cut, whether a place lies in a selector is settled by the cut. -/
theorem inSelector_append {before front back : List Char} {c : Char}
    (hbefore : stretchBefore before = []) (hfront : ∀ d ∈ front, isCut d = false)
    (hback : ∀ d ∈ back, isCut d = false) (hc : isCut c = true) (rest : List Char) :
    inSelector (before ++ front) (back ++ c :: rest) =
      (decide (c = Char.ofNat 0x7B) && !(['@'].isPrefixOf (Text.trimStart (front ++ back)))) := by
  have hpos : ∀ d ∈ back, (!isCut d) = true := fun d hd => by rw [hback d hd]; rfl
  have hdrop : (c :: rest).dropWhile (fun d => !isCut d) = c :: rest :=
    List.dropWhile_cons_of_neg (by simp [hc])
  have htake : (c :: rest).takeWhile (fun d => !isCut d) = [] :=
    List.takeWhile_cons_of_neg (by simp [hc])
  rw [inSelector, stretchBefore_append hbefore hfront, stretchAfter,
    List.dropWhile_append_of_pos hpos, List.takeWhile_append_of_pos hpos, hdrop, htake,
    List.append_nil]
  simp

/-- No place lies in a selector that has no cut behind it. -/
theorem inSelector_of_noCut (before : List Char) {after : List Char}
    (h : ∀ d ∈ after, isCut d = false) : inSelector before after = false := by
  have hnil : after.dropWhile (fun c => !isCut c) = [] :=
    List.dropWhile_eq_nil_iff.2 fun d hd => by rw [h d hd]; rfl
  rw [inSelector, hnil]
  rfl

/-- A stretch that is not a selector is left as it is. -/
theorem imageOf_putClass_of_not {scope before part after : List Char}
    (h : ∀ front c back, part = front ++ c :: back →
      inSelector (before ++ front) (c :: (back ++ after)) = false) :
    imageOf (putClass scope) before part after = part := by
  apply imageOf_eq_self
  intro front c back hpart
  rw [putClass, h front c back hpart]
  rfl

/-- In front of a brace a place lies in a selector, unless its stretch begins with `@`. -/
theorem inSelector_brace {before front back : List Char} {c : Char}
    (hbefore : stretchBefore before = []) (hsegment : ∀ d ∈ front ++ c :: back, isCut d = false)
    (rest : List Char) :
    inSelector (before ++ front) (c :: (back ++ Char.ofNat 0x7B :: rest)) =
      !(['@'].isPrefixOf (Text.trimStart (front ++ c :: back))) := by
  rw [← List.cons_append, inSelector_append hbefore
    (fun d hd => hsegment d (List.mem_append_left _ hd))
    (fun d hd => hsegment d (List.mem_append_right _ hd)) (by decide), decide_eq_true rfl]
  rfl

/-- In front of a brace the classes of a stretch are renamed, unless it begins with `@`. -/
theorem scopeSegment_eq (scope : List Char) {before segment : List Char}
    (hbefore : stretchBefore before = []) (hsegment : ∀ c ∈ segment, isCut c = false)
    (rest : List Char) :
    (scopeSegment scope segment).1 =
      imageOf (putClass scope) before segment (Char.ofNat 0x7B :: rest) := by
  unfold scopeSegment
  split
  · rename_i hat
    refine (imageOf_putClass_of_not fun front c back hpart => ?_).symm
    subst hpart
    rw [inSelector_brace hbefore hsegment, hat]
    rfl
  · rename_i hat
    rw [renameClasses_eq scope before segment rest]
    apply imageOf_congr
    intro front c back hpart
    subst hpart
    rw [putClass, inSelector_brace hbefore hsegment, Bool.eq_false_iff.2 hat]
    rfl

/-- The classes of a sheet are renamed at those dots that are in a selector. -/
theorem scopeFrom_eq (scope : List Char) {before segment : List Char}
    (hbefore : stretchBefore before = []) (hsegment : ∀ c ∈ segment, isCut c = false)
    (s : List Char) :
    (scopeFrom scope segment s).1 = imageOf (putClass scope) before (segment ++ s) [] := by
  induction s generalizing before segment with
  | nil =>
    rw [List.append_nil]
    refine (imageOf_putClass_of_not ?_).symm
    rintro front c back rfl
    rw [List.append_nil]
    exact inSelector_of_noCut _ fun d hd => hsegment d (List.mem_append_right _ hd)
  | cons c s ih =>
    have hrest (hc : isCut c = true) :
        (scopeFrom scope [] s).1 = imageOf (putClass scope) (before ++ segment ++ [c]) s [] :=
      ih (stretchBefore_cut _ hc) (by simp)
    have hcut : isCut c = true → putClass scope (before ++ segment) c (s ++ []) = [c] := by
      intro hc
      have hdot : c ≠ '.' := by
        rintro rfl
        exact absurd hc (by decide)
      simp [putClass, putDot, hdot]
    rw [imageOf_append, imageOf_cons, List.append_nil]
    unfold scopeFrom
    by_cases hbrace : c = Char.ofNat 0x7B
    · subst hbrace
      rw [if_pos rfl, ← scopeSegment_eq scope hbefore hsegment s, hcut (by decide),
        ← hrest (by decide)]
      rfl
    · rw [if_neg hbrace]
      by_cases hend : c = Char.ofNat 0x7D ∨ c = ';'
      · have hc : isCut c = true := by
          rcases hend with rfl | rfl <;> decide
        have hkept : imageOf (putClass scope) before segment (c :: s) = segment := by
          apply imageOf_putClass_of_not
          rintro front d back rfl
          rw [← List.cons_append, inSelector_append hbefore
            (fun d hd => hsegment d (List.mem_append_left _ hd))
            (fun d hd => hsegment d (List.mem_append_right _ hd)) hc, decide_eq_false hbrace]
          rfl
        rw [if_pos hend, hcut hc, ← hrest hc, hkept]
        rfl
      · have hc : isCut c = false := by
          obtain ⟨hclose, hsemicolon⟩ := not_or.1 hend
          simp [isCut, hbrace, hclose, hsemicolon]
        have hlonger : ∀ d ∈ segment ++ [c], isCut d = false := by
          intro d hd
          rcases List.mem_append.1 hd with hd | hd
          · exact hsegment d hd
          · exact List.mem_singleton.1 hd ▸ hc
        rw [if_neg hend, ih hbefore hlonger, List.append_assoc, List.singleton_append,
          imageOf_append, imageOf_cons, List.append_nil]

end Waymark.Stylesheet
