import Waymark.Text.Pieces
/-!
# Texts written character by character

What becomes of a text where for each character something is written that may depend on
what stands before and after it, but not on what was written before.  So the parts of a text
are written each by themselves, once it is known what stands around them.

## Main results

* `imageOf_append` — the image of two parts.
* `imageOf_congr` — the image depends only on what is written at its own places.
* `exists_of_imageOf_eq` — every character of an image is written for one of the part.
* `put_eq_of_imageOf_eq` — where nothing longer is written, a part only comes out as it is if each
  of its characters does.
* `put_eq_of_countP_le` — where whatever is added counts, each character of a part comes out as it
  is if its image counts no more.
* `somewhereIn_append` — what holds somewhere in two parts.
-/

namespace Waymark.Text

/-- What is written for a part of a text, character by character: `put before c after` is written
for `c`. -/
def imageOf (put : List Char → Char → List Char → List Char) (before : List Char) :
    List Char → List Char → List Char
  | [], _ => []
  | c :: part, after =>
    put before c (part ++ after) ++ imageOf put (before ++ [c]) part after

variable {put put' : List Char → Char → List Char → List Char}

@[simp] theorem imageOf_nil (before after : List Char) : imageOf put before [] after = [] := rfl

theorem imageOf_cons (before : List Char) (c : Char) (part after : List Char) :
    imageOf put before (c :: part) after =
      put before c (part ++ after) ++ imageOf put (before ++ [c]) part after := rfl

theorem imageOf_append (before part part' after : List Char) :
    imageOf put before (part ++ part') after =
      imageOf put before part (part' ++ after) ++ imageOf put (before ++ part) part' after := by
  induction part generalizing before with
  | nil => simp
  | cons c part ih =>
    rw [List.cons_append, imageOf_cons, imageOf_cons, ih, List.append_assoc, List.append_assoc,
      List.append_assoc]
    rfl

/-- The image of a part depends only on what is written at its own places. -/
theorem imageOf_congr {before before' part after after' : List Char}
    (h : ∀ front c back, part = front ++ c :: back →
      put (before ++ front) c (back ++ after) = put' (before' ++ front) c (back ++ after')) :
    imageOf put before part after = imageOf put' before' part after' := by
  induction part generalizing before before' with
  | nil => rfl
  | cons c part ih =>
    have hhead := h [] c part rfl
    rw [List.append_nil, List.append_nil] at hhead
    rw [imageOf_cons, imageOf_cons, hhead]
    congr 1
    apply ih
    rintro front d back rfl
    have hrest := h (c :: front) d back rfl
    rwa [← List.append_cons, ← List.append_cons]

/-- A part whose characters are all written as they are comes out as it is. -/
theorem imageOf_eq_self {before part after : List Char}
    (h : ∀ front c back, part = front ++ c :: back →
      put (before ++ front) c (back ++ after) = [c]) :
    imageOf put before part after = part := by
  induction part generalizing before with
  | nil => rfl
  | cons c part ih =>
    have hhead := h [] c part rfl
    rw [List.append_nil] at hhead
    rw [imageOf_cons, hhead, List.singleton_append]
    congr 1
    apply ih
    rintro front d back rfl
    have hrest := h (c :: front) d back rfl
    rwa [← List.append_cons]

theorem countP_imageOf {p : Char → Bool} {before part after : List Char}
    (h : ∀ before c after, (put before c after).countP p = [c].countP p) :
    (imageOf put before part after).countP p = part.countP p := by
  induction part generalizing before with
  | nil => rfl
  | cons c part ih =>
    rw [imageOf_cons, List.countP_append, h, ih, ← List.countP_append, List.singleton_append]

theorem length_imageOf_le (before part after : List Char)
    (h : ∀ before c after, (put before c after).length ≤ 1) :
    (imageOf put before part after).length ≤ part.length := by
  induction part generalizing before with
  | nil => exact Nat.le_refl 0
  | cons c part ih =>
    rw [imageOf_cons, List.length_append, List.length_cons, Nat.add_comm]
    exact Nat.add_le_add (ih _) (h before c (part ++ after))

/-- Every character of an image is written for one character of the part. -/
theorem exists_of_imageOf_eq {before part after front back : List Char} {c : Char}
    (h : imageOf put before part after = front ++ c :: back) :
    ∃ p x q u v, part = p ++ x :: q ∧ put (before ++ p) x (q ++ after) = u ++ c :: v ∧
      front = imageOf put before p (x :: q ++ after) ++ u ∧
      back = v ++ imageOf put (before ++ p ++ [x]) q after := by
  induction part generalizing before front with
  | nil => simp at h
  | cons x q ih =>
    have hlater {rest : List Char} (hfront : front = put before x (q ++ after) ++ rest)
        (hrest : imageOf put (before ++ [x]) q after = rest ++ c :: back) :
        ∃ p y q' u v, x :: q = p ++ y :: q' ∧ put (before ++ p) y (q' ++ after) = u ++ c :: v ∧
          front = imageOf put before p (y :: q' ++ after) ++ u ∧
          back = v ++ imageOf put (before ++ p ++ [y]) q' after := by
      obtain ⟨p, y, q', u, v, rfl, hput, rfl, rfl⟩ := ih hrest
      refine ⟨x :: p, y, q', u, v, rfl, ?_, ?_, ?_⟩
      · rwa [List.append_cons]
      · rw [hfront, imageOf_cons, List.append_assoc, List.append_assoc]
      · rw [List.append_cons before x p]
    rw [imageOf_cons] at h
    rcases List.append_eq_append_iff.1 h with ⟨rest, hfront, hrest⟩ | ⟨tail, hput, hback⟩
    · exact hlater hfront hrest
    · cases tail with
      | nil =>
        have hfront : front = put before x (q ++ after) ++ [] := by
          rw [hput, List.append_nil, List.append_nil]
        exact hlater hfront hback.symm
      | cons d tail =>
        rw [List.cons_append] at hback
        obtain ⟨rfl, rfl⟩ := List.cons.inj hback
        exact ⟨[], x, q, front, tail, rfl, by rwa [List.append_nil], rfl, by rw [List.append_nil]⟩

/-- The characters of a part are written as they are if the first one is, and the others are. -/
theorem put_eq_cons {before part after : List Char} {d : Char}
    (hfirst : put before d (part ++ after) = [d])
    (hrest : ∀ front c back, part = front ++ c :: back →
      put (before ++ [d] ++ front) c (back ++ after) = [c]) :
    ∀ front c back, d :: part = front ++ c :: back →
      put (before ++ front) c (back ++ after) = [c] := by
  intro front c back hpart
  cases front with
  | nil =>
    obtain ⟨rfl, rfl⟩ := List.cons.inj hpart
    rw [List.append_nil]
    exact hfirst
  | cons e front =>
    rw [List.cons_append] at hpart
    obtain ⟨rfl, htail⟩ := List.cons.inj hpart
    have hput := hrest front c back htail
    rwa [← List.append_cons] at hput

/-- Where at most one character is written for each, a part comes out as it is only if each of its
characters does. -/
theorem put_eq_of_imageOf_eq {before part after : List Char}
    (hput : ∀ before c after, (put before c after).length ≤ 1)
    (h : imageOf put before part after = part) :
    ∀ front c back, part = front ++ c :: back → put (before ++ front) c (back ++ after) = [c] := by
  induction part generalizing before with
  | nil =>
    intro front c back hnil
    exact absurd hnil.symm (by simp)
  | cons d part ih =>
    rw [imageOf_cons] at h
    have hone : put before d (part ++ after) = [d] := by
      match hd : put before d (part ++ after) with
      | [] =>
        rw [hd, List.nil_append] at h
        have hlength := length_imageOf_le (before ++ [d]) part after hput
        rw [h] at hlength
        exact absurd hlength (Nat.not_succ_le_self _)
      | [e] =>
        rw [hd] at h
        exact congrArg (· :: []) (List.cons.inj h).1
      | _ :: _ :: _ =>
        have hlength := hput before d (part ++ after)
        rw [hd] at hlength
        exact absurd hlength (by simp)
    rw [hone] at h
    exact put_eq_cons hone (ih (List.cons.inj h).2)

/-- Where what is written for a character counts more than it, unless it is written as it is, the
characters of a part whose image counts no more are all written as they are. -/
theorem put_eq_of_countP_le {p : Char → Bool} {before part after : List Char}
    (hput : ∀ before c after,
      put before c after = [c] ∨ [c].countP p < (put before c after).countP p)
    (h : (imageOf put before part after).countP p ≤ part.countP p) :
    ∀ front c back, part = front ++ c :: back → put (before ++ front) c (back ++ after) = [c] := by
  have hcons (c : Char) (part : List Char) :
      (c :: part).countP p = [c].countP p + part.countP p := by
    rw [← List.countP_append, List.singleton_append]
  have hgrows (before part : List Char) :
      part.countP p ≤ (imageOf put before part after).countP p := by
    induction part generalizing before with
    | nil => exact Nat.le_refl 0
    | cons c part ih =>
      rw [imageOf_cons, List.countP_append, hcons]
      refine Nat.add_le_add ?_ (ih _)
      rcases hput before c (part ++ after) with hsame | hmore
      · exact Nat.le_of_eq (by rw [hsame])
      · exact Nat.le_of_lt hmore
  induction part generalizing before with
  | nil =>
    intro front c back hnil
    exact absurd hnil.symm (by simp)
  | cons d part ih =>
    rw [imageOf_cons, List.countP_append, hcons] at h
    have hrest := hgrows (before ++ [d]) part
    have hone : put before d (part ++ after) = [d] :=
      (hput before d (part ++ after)).resolve_right fun hmore => by omega
    rw [hone] at h
    exact put_eq_cons hone (ih (Nat.le_of_add_le_add_left h))

/-! ## Places -/

/-- Somewhere in a part a condition holds of a character and of what stands before and after it. -/
def SomewhereIn (P : List Char → Char → List Char → Prop) (before part after : List Char) : Prop :=
  ∃ front c back, part = front ++ c :: back ∧ P (before ++ front) c (back ++ after)

variable {P : List Char → Char → List Char → Prop}

theorem not_somewhereIn_nil (before after : List Char) : ¬SomewhereIn P before [] after := by
  rintro ⟨front, c, back, hnil, -⟩
  exact absurd hnil.symm (by simp)

theorem somewhereIn_cons (before : List Char) (c : Char) (part after : List Char) :
    SomewhereIn P before (c :: part) after ↔
      P before c (part ++ after) ∨ SomewhereIn P (before ++ [c]) part after := by
  constructor
  · rintro ⟨front, d, back, hpart, h⟩
    cases front with
    | nil =>
      obtain ⟨rfl, rfl⟩ := List.cons.inj hpart
      rw [List.append_nil] at h
      exact Or.inl h
    | cons e front =>
      obtain ⟨rfl, rfl⟩ := List.cons.inj hpart
      rw [List.append_cons] at h
      exact Or.inr ⟨front, d, back, rfl, h⟩
  · rintro (h | ⟨front, d, back, rfl, h⟩)
    · exact ⟨[], c, part, rfl, by rwa [List.append_nil]⟩
    · exact ⟨c :: front, d, back, rfl, by rwa [List.append_cons]⟩

theorem somewhereIn_append (before part part' after : List Char) :
    SomewhereIn P before (part ++ part') after ↔
      SomewhereIn P before part (part' ++ after) ∨ SomewhereIn P (before ++ part) part' after := by
  induction part generalizing before with
  | nil =>
    rw [List.nil_append, List.append_nil]
    exact (or_iff_right (not_somewhereIn_nil _ _)).symm
  | cons c part ih =>
    rw [List.cons_append, somewhereIn_cons, somewhereIn_cons, ih, or_assoc, List.append_assoc,
      List.append_assoc]
    rfl

end Waymark.Text
