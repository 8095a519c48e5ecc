import Waymark.Text.Pieces
/-!
# Pieces of text

Pieces without separators that are joined by one are read back, whatever follows them,
and what stands in a joined text stands in a piece or is the separator.

## Main results

* `piecesWhere_joinPieces`, `pieces_joinPieces`, `segments_joinPieces` — joined pieces are read
  back.
* `piecesWhere_flatMap` — the same of pieces that have a separator in front of each.
* `count_joinPieces` — joined pieces have a separator less than pieces.
* `cutLast_append` — the last separator is the one after which there is none.
* `cutText_eq_some_iff` — a text is cut where another first occurs.
* `segments_append_cons` — the segments of two texts with a separator in between.
* `segments_append` — what is written behind a text goes to its last segment.
* `mem_of_mem_joinPieces`, `mem_of_mem_pieces` — characters of pieces and of the whole.
-/

namespace Waymark.Text

/-- What a check finds of all characters of a text holds of each. A quantifier over the
characters of a text has other decision procedures, that try every character there is. -/
theorem forall_mem_of_all {P : Char → Prop} [DecidablePred P] {s : List Char}
    (h : s.all (fun c => decide (P c)) = true) : ∀ c ∈ s, P c := by
  intro c hc
  exact of_decide_eq_true (List.all_eq_true.1 h c hc)

/-! ## Pieces between separators -/

theorem notSeparator_of_mem_piecesWhere {p : Char → Bool} {s a : List Char}
    (h : a ∈ piecesWhere p s) : ∀ c ∈ a, p c = false := by
  induction s generalizing a with
  | nil =>
    obtain rfl := List.mem_singleton.1 h
    simp
  | cons d s ih =>
    rw [piecesWhere] at h
    by_cases hd : p d = true
    · rw [if_pos hd] at h
      rcases List.mem_cons.1 h with rfl | h
      · simp
      · exact ih h
    · rw [if_neg hd] at h
      cases hp : piecesWhere p s with
      | nil => exact absurd hp (piecesWhere_ne_nil p s)
      | cons b bs =>
        rw [hp] at h ih
        rcases List.mem_cons.1 h with rfl | h
        · intro c hc
          rcases List.mem_cons.1 hc with rfl | hc
          · simpa using hd
          · exact ih (List.mem_cons_self ..) c hc
        · exact ih (List.mem_cons_of_mem _ h)

theorem piecesWhere_of_none {p : Char → Bool} {a : List Char} (h : ∀ c ∈ a, p c = false) :
    piecesWhere p a = [a] := by
  induction a with
  | nil => rfl
  | cons c a ih =>
    have hc : p c = false := h c (List.mem_cons_self ..)
    rw [piecesWhere, ih fun x hx => h x (List.mem_cons_of_mem _ hx)]
    simp [hc]

theorem piecesWhere_append_cons {p : Char → Bool} (a : List Char) {d : Char} (hd : p d = true)
    (s : List Char) : piecesWhere p (a ++ d :: s) = piecesWhere p a ++ piecesWhere p s := by
  induction a with
  | nil => simp [piecesWhere, hd]
  | cons c a ih =>
    rw [List.cons_append, piecesWhere, piecesWhere, ih]
    by_cases hc : p c = true
    · rw [if_pos hc, if_pos hc]
      rfl
    · rw [if_neg hc, if_neg hc]
      cases ha : piecesWhere p a with
      | nil => exact absurd ha (piecesWhere_ne_nil p a)
      | cons b bs => rfl

theorem piecesWhere_append {p : Char → Bool} {a : List Char} (h : ∀ c ∈ a, p c = false)
    (d : Char) (hd : p d = true) (s : List Char) :
    piecesWhere p (a ++ d :: s) = a :: piecesWhere p s := by
  rw [piecesWhere_append_cons a hd, piecesWhere_of_none h]
  rfl

/-- Pieces without separators, joined by a separator, are read back. -/
theorem piecesWhere_joinPieces {p : Char → Bool} {d : Char} (hd : p d = true)
    {as : List (List Char)} (h : ∀ a ∈ as, ∀ c ∈ a, p c = false) (hne : as ≠ []) :
    piecesWhere p (joinPieces d as) = as := by
  induction as with
  | nil => exact absurd rfl hne
  | cons a as ih =>
    have ha : ∀ c ∈ a, p c = false := h a (List.mem_cons_self ..)
    cases as with
    | nil => exact piecesWhere_of_none ha
    | cons b bs =>
      rw [joinPieces, piecesWhere_append ha d hd,
        ih (fun x hx => h x (List.mem_cons_of_mem _ hx)) (List.cons_ne_nil b bs)]

theorem pieces_joinPieces {c : Char} {as : List (List Char)} (h : ∀ a ∈ as, c ∉ a)
    (hne : as ≠ []) : pieces c (joinPieces c as) = as := by
  refine piecesWhere_joinPieces (decide_eq_true rfl) ?_ hne
  intro a ha d hd
  exact decide_eq_false fun heq => h a ha (heq ▸ hd)

theorem mem_of_mem_joinPieces {c d : Char} {as : List (List Char)} (h : d ∈ joinPieces c as) :
    d = c ∨ ∃ a ∈ as, d ∈ a := by
  induction as with
  | nil => nomatch h
  | cons a as ih =>
    cases as with
    | nil => exact Or.inr ⟨a, List.mem_cons_self .., h⟩
    | cons b bs =>
      rw [joinPieces] at h
      rcases List.mem_append.1 h with h | h
      · exact Or.inr ⟨a, List.mem_cons_self .., h⟩
      · rcases List.mem_cons.1 h with h | h
        · exact Or.inl h
        · rcases ih h with h | ⟨x, hx, hd⟩
          · exact Or.inl h
          · exact Or.inr ⟨x, List.mem_cons_of_mem _ hx, hd⟩

theorem mem_of_mem_piecesWhere {p : Char → Bool} {d : Char} {s a : List Char}
    (ha : a ∈ piecesWhere p s) (hd : d ∈ a) : d ∈ s := by
  induction s generalizing a with
  | nil =>
    obtain rfl := List.mem_singleton.1 ha
    nomatch hd
  | cons c s ih =>
    rw [piecesWhere] at ha
    split at ha
    · rcases List.mem_cons.1 ha with rfl | ha
      · nomatch hd
      · exact List.mem_cons_of_mem _ (ih ha hd)
    · cases hp : piecesWhere p s with
      | nil => exact absurd hp (piecesWhere_ne_nil p s)
      | cons b bs =>
        rw [hp] at ha ih
        rcases List.mem_cons.1 ha with rfl | ha
        · rcases List.mem_cons.1 hd with rfl | hd
          · exact List.mem_cons_self ..
          · exact List.mem_cons_of_mem _ (ih (List.mem_cons_self ..) hd)
        · exact List.mem_cons_of_mem _ (ih (List.mem_cons_of_mem _ ha) hd)

theorem mem_of_mem_pieces {c d : Char} {s a : List Char} (ha : a ∈ pieces c s) (hd : d ∈ a) :
    d ∈ s := mem_of_mem_piecesWhere ha hd

/-! ## Pieces below a path -/

theorem cutLast_append {c : Char} (a : List Char) {b : List Char} (h : c ∉ b) :
    cutLast c (a ++ c :: b) = some (a, b) := by
  have hreverse : (a ++ c :: b).reverse = b.reverse ++ c :: a.reverse := by simp
  have hnot : c ∉ b.reverse := by simpa using h
  rw [cutLast, hreverse, cut_append _ hnot]
  simp

theorem eq_of_cutLast {c : Char} {s a b : List Char} (h : cutLast c s = some (a, b)) :
    s = a ++ c :: b := by
  unfold cutLast at h
  obtain ⟨⟨after, before⟩, hcut, heq⟩ := Option.map_eq_some_iff.1 h
  obtain ⟨rfl, rfl⟩ := Prod.mk.inj heq
  have hreverse := congrArg List.reverse (eq_of_cut hcut)
  simpa using hreverse

theorem notMem_of_cutLast {c : Char} {s a b : List Char} (h : cutLast c s = some (a, b)) :
    c ∉ b := by
  unfold cutLast at h
  obtain ⟨⟨after, before⟩, hcut, heq⟩ := Option.map_eq_some_iff.1 h
  obtain ⟨rfl, rfl⟩ := Prod.mk.inj heq
  simpa using notMem_of_cut hcut

theorem notMem_of_cutLast_eq_none {c : Char} {s : List Char} (h : cutLast c s = none) : c ∉ s := by
  have hcut := Option.map_eq_none_iff.1 h
  simpa using cut_eq_none_iff.1 hcut

theorem cutLast_eq_none {c : Char} {s : List Char} (h : c ∉ s) : cutLast c s = none := by
  have hnot : c ∉ s.reverse := by simpa using h
  rw [cutLast, cut_eq_none_iff.2 hnot]
  rfl

/-- Joined pieces behind a separator are the pieces, each behind a separator. -/
theorem cons_joinPieces (d : Char) (a : List Char) (as : List (List Char)) :
    d :: joinPieces d (a :: as) = (a :: as).flatMap (d :: ·) := by
  induction as generalizing a with
  | nil => simp [joinPieces]
  | cons b as ih =>
    rw [joinPieces, List.flatMap_cons, ← ih b]
    rfl

/-- Joined pieces are the first one, and each of the others behind a separator. -/
theorem joinPieces_cons (d : Char) (a : List Char) (as : List (List Char)) :
    joinPieces d (a :: as) = a ++ as.flatMap (d :: ·) := by
  have h := cons_joinPieces d a as
  rw [List.flatMap_cons, List.cons_append] at h
  exact (List.cons.inj h).2

/-- Joined pieces are the last ones joined, and each of the others before a separator. -/
theorem joinPieces_append (d : Char) (as : List (List Char)) {bs : List (List Char)}
    (hne : bs ≠ []) : joinPieces d (as ++ bs) = as.flatMap (· ++ [d]) ++ joinPieces d bs := by
  induction as with
  | nil => rfl
  | cons a as ih =>
    rw [List.cons_append, List.flatMap_cons, List.append_assoc, List.append_assoc, ← ih]
    cases hrest : as ++ bs with
    | nil => exact absurd (List.append_eq_nil_iff.1 hrest).2 hne
    | cons b rest => rfl

/-- Joined pieces have as many separators as there are pieces before the last one. -/
theorem count_joinPieces {d : Char} {as : List (List Char)} {b : List Char}
    (has : ∀ a ∈ as, d ∉ a) (hb : d ∉ b) : (joinPieces d (as ++ [b])).count d = as.length := by
  rw [joinPieces_append d as (List.cons_ne_nil b [])]
  have hlast : (joinPieces d [b]).count d = 0 := List.count_eq_zero.2 hb
  rw [List.count_append, hlast, Nat.add_zero]
  induction as with
  | nil => rfl
  | cons a as ih =>
    have ha : a.count d = 0 := List.count_eq_zero.2 (has a (List.mem_cons_self ..))
    have ih := ih fun x hx => has x (List.mem_cons_of_mem _ hx)
    rw [List.flatMap_cons, List.count_append, List.count_append, ih, ha, List.count_singleton_self,
      List.length_cons]
    omega

/-- The pieces of a text that goes on below a path. -/
theorem piecesWhere_flatMap {p : Char → Bool} {d : Char} (hd : p d = true)
    {as : List (List Char)} (h : ∀ a ∈ as, ∀ c ∈ a, p c = false) (t : List Char) :
    piecesWhere p (as.flatMap (d :: ·) ++ d :: t) = [] :: (as ++ piecesWhere p t) := by
  have hcons (s : List Char) : piecesWhere p (d :: s) = [] :: piecesWhere p s := by
    rw [piecesWhere, if_pos hd]
  suffices hafter : ∀ s, as.flatMap (d :: ·) ++ d :: t = d :: s →
      piecesWhere p s = as ++ piecesWhere p t by
    cases as with
    | nil => exact hcons t
    | cons a as =>
      rw [List.flatMap_cons, List.cons_append, List.cons_append, hcons]
      exact congrArg _ (hafter _ rfl)
  induction as with
  | nil =>
    intro s hs
    obtain ⟨-, rfl⟩ := List.cons.inj hs
    rfl
  | cons a as ih =>
    intro s hs
    have hs' : s = a ++ (as.flatMap (d :: ·) ++ d :: t) := by
      rw [List.flatMap_cons, List.cons_append, List.cons_append, List.append_assoc] at hs
      exact (List.cons.inj hs).2.symm
    -- what follows the first piece begins with a separator again
    obtain ⟨s', hrest⟩ : ∃ s', as.flatMap (d :: ·) ++ d :: t = d :: s' := by
      cases as with
      | nil => exact ⟨t, rfl⟩
      | cons b as => exact ⟨_, rfl⟩
    rw [hs', hrest, piecesWhere_append (h a (List.mem_cons_self ..)) d hd,
      ih (fun x hx => h x (List.mem_cons_of_mem _ hx)) s' hrest]
    rfl

/-- The last separator of joined pieces is the one before the last piece. -/
theorem cutLast_joinPieces {c : Char} {as : List (List Char)} (hne : as ≠ []) {b : List Char}
    (hb : c ∉ b) : cutLast c (joinPieces c (as ++ [b])) = some (joinPieces c as, b) := by
  cases as with
  | nil => exact absurd rfl hne
  | cons a as =>
    have hsplit : joinPieces c (a :: as ++ [b]) = joinPieces c (a :: as) ++ c :: b := by
      rw [List.cons_append, joinPieces_cons, joinPieces_cons, List.flatMap_append,
        List.flatMap_singleton, List.append_assoc]
    rw [hsplit, cutLast_append _ hb]

/-! ## Ends of a text -/

/-- Where a text is cut by a property that holds up to there. -/
theorem span_append {p : Char → Bool} {a b : List Char} (ha : ∀ c ∈ a, p c = true)
    (hb : ∀ c ∈ b.head?, p c = false) :
    (a ++ b).takeWhile p = a ∧ (a ++ b).dropWhile p = b := by
  have hend : b.takeWhile p = [] ∧ b.dropWhile p = b := by
    cases b with
    | nil => exact ⟨rfl, rfl⟩
    | cons c b =>
      have hc := hb c rfl
      rw [List.takeWhile_cons, List.dropWhile_cons, hc]
      exact ⟨rfl, rfl⟩
  rw [List.takeWhile_append_of_pos ha, List.dropWhile_append_of_pos ha, hend.1, hend.2]
  exact ⟨List.append_nil a, rfl⟩

theorem isPrefixOf?_append (p s : List Char) : List.isPrefixOf? p (p ++ s) = some s := by
  induction p with
  | nil => rfl
  | cons c p ih =>
    show (if c == c then List.isPrefixOf? p (p ++ s) else none) = some s
    rw [if_pos (beq_self_eq_true c), ih]

theorem isPrefixOf?_eq_none {t s : List Char} (h : ¬t <+: s) : List.isPrefixOf? t s = none := by
  cases hfound : List.isPrefixOf? t s with
  | none => rfl
  | some rest => exact absurd ⟨rest, (eq_append_of_isPrefixOf? hfound).symm⟩ h

theorem dropSuffix?_append (t s : List Char) : dropSuffix? t (s ++ t) = some s := by
  rw [dropSuffix?, List.reverse_append, isPrefixOf?_append, Option.map_some, List.reverse_reverse]

theorem dropCopies_append {t s : List Char} (ht : t ≠ []) (hs : ¬t <+: s) :
    dropCopies t (t ++ s) = s := by
  have hlonger : s.length < (t ++ s).length := by
    have hpos := List.length_pos_iff.2 ht
    rw [List.length_append]
    omega
  rw [dropCopies, isPrefixOf?_append]
  dsimp only
  rw [if_pos hlonger, dropCopies, isPrefixOf?_eq_none hs]

/-- A text is cut at the first place where another occurs. -/
theorem cutText_eq_some_iff {t s a b : List Char} (ht : t ≠ []) :
    cutText t s = some (a, b) ↔ s = a ++ (t ++ b) ∧ ¬t <:+: a ++ t.dropLast := by
  have hlength : ¬t <:+: t.dropLast := by
    intro hinside
    have hle := hinside.length_le
    have hpos := List.length_pos_iff.2 ht
    rw [List.length_dropLast] at hle
    omega
  have hlonger (c : Char) (a b : List Char) : c :: (a ++ t.dropLast) <+: c :: (a ++ (t ++ b)) := by
    rw [List.prefix_cons_inj, List.prefix_append_right_inj]
    exact (List.dropLast_prefix t).trans (List.prefix_append _ _)
  constructor
  · intro h
    induction s generalizing a with
    | nil =>
      rw [cutText, if_neg (by simpa using ht)] at h
      nomatch h
    | cons c s ih =>
      rw [cutText] at h
      split at h
      · rename_i rest hprefix
        obtain ⟨rfl, rfl⟩ := Prod.mk.inj (Option.some.inj h)
        refine ⟨?_, hlength⟩
        rw [List.nil_append]
        exact eq_append_of_isPrefixOf? hprefix
      · rename_i hprefix
        obtain ⟨⟨before, after⟩, hcut, heq⟩ := Option.map_eq_some_iff.1 h
        obtain ⟨rfl, rfl⟩ := Prod.mk.inj heq
        obtain ⟨rfl, hfirst⟩ := ih hcut
        refine ⟨rfl, fun hinside => ?_⟩
        rcases List.infix_cons_iff.1 hinside with hstart | hinside
        · -- an occurrence at the start would have been cut at
          obtain ⟨rest, hrest⟩ := hstart.trans (hlonger c before after)
          rw [← hrest, isPrefixOf?_append] at hprefix
          nomatch hprefix
        · exact hfirst hinside
  · rintro ⟨rfl, hfirst⟩
    induction a with
    | nil =>
      obtain ⟨c, u, rfl⟩ := List.exists_cons_of_ne_nil ht
      rw [List.nil_append, List.cons_append, cutText, ← List.cons_append, isPrefixOf?_append]
    | cons c a ih =>
      have hstart : ¬t <+: c :: (a ++ (t ++ b)) := by
        intro hstart
        have hshort := List.prefix_of_prefix_length_le hstart (hlonger c a b) (by
          rw [List.length_cons, List.length_append, List.length_dropLast]
          omega)
        exact hfirst hshort.isInfix
      rw [List.cons_append, cutText, isPrefixOf?_eq_none hstart]
      dsimp only
      rw [ih fun hinside => hfirst (List.infix_cons hinside), Option.map_some]

/-- A text that another occurs in is cut. -/
theorem isSome_cutText (t a b : List Char) : (cutText t (a ++ (t ++ b))).isSome = true := by
  induction a with
  | nil =>
    cases hs : t ++ b with
    | nil =>
      rw [List.append_eq_nil_iff.1 hs |>.1]
      rfl
    | cons c s =>
      rw [List.nil_append, cutText, ← hs, isPrefixOf?_append]
      rfl
  | cons c a ih =>
    rw [List.cons_append, cutText]
    split
    · rfl
    · rw [Option.isSome_map]
      exact ih

theorem isPrefix_append_iff {p s t : List Char} {c : Char} (hc : c ∉ p) :
    p <+: s ++ c :: t ↔ p <+: s := by
  constructor
  · intro h
    rcases List.prefix_or_prefix_of_prefix h (List.prefix_append s (c :: t)) with hp | hs
    · exact hp
    · obtain ⟨more, rfl⟩ := hs
      rw [List.prefix_append_right_inj] at h
      cases more with
      | nil => exact ⟨[], by simp⟩
      | cons d more =>
        obtain ⟨left, hleft⟩ := h
        obtain ⟨rfl, -⟩ := List.cons.inj hleft
        exact absurd (by simp) hc
  · exact fun h => h.trans (List.prefix_append s _)

theorem isSuffix_append_iff {e s t : List Char} {c : Char} (hc : c ∉ e) :
    e <:+ s ++ c :: t ↔ e <:+ t := by
  have hreverse : (s ++ c :: t).reverse = t.reverse ++ c :: s.reverse := by simp
  have hnot : c ∉ e.reverse := by simpa using hc
  rw [← List.reverse_prefix, hreverse, isPrefix_append_iff hnot, List.reverse_prefix]

/-! ## Segments -/

/-- The segments of two texts with a separator in between. -/
theorem segments_append_cons (c : Char) (a s : List Char) :
    segments c (a ++ c :: s) = segments c a ++ segments c s := by
  rw [segments, pieces, piecesWhere_append_cons a (decide_eq_true rfl), List.filter_append]
  rfl

/-- Segments that hold no separator, joined by it, are read back. -/
theorem segments_joinPieces {c : Char} {as : List (List Char)} (hc : ∀ a ∈ as, c ∉ a)
    (hne : ∀ a ∈ as, a ≠ []) : segments c (joinPieces c as) = as := by
  by_cases hnil : as = []
  · rw [hnil]
    rfl
  · rw [segments, pieces_joinPieces hc hnil]
    exact List.filter_eq_self.2 fun a ha => decide_eq_true (hne a ha)

theorem segments_cons (c : Char) (s : List Char) : segments c (c :: s) = segments c s := by
  simp [segments, pieces, piecesWhere]

/-- A text without separators is one segment. -/
theorem segments_of_notMem {c : Char} {a : List Char} (hne : a ≠ []) (h : c ∉ a) :
    segments c a = [a] := by
  have hnot : ∀ d ∈ a, decide (d = c) = false := by
    intro d hd
    exact decide_eq_false fun heq => h (heq ▸ hd)
  rw [segments, pieces, piecesWhere_of_none hnot]
  exact List.filter_eq_self.2 fun x hx => decide_eq_true (List.mem_singleton.1 hx ▸ hne)

/-- A text without separators before one that begins with a separator, or is empty. -/
theorem segments_append_of_notMem {c : Char} {a : List Char} (hne : a ≠ []) (h : c ∉ a)
    {s : List Char} (hs : ∀ d ∈ s.head?, d = c) : segments c (a ++ s) = a :: segments c s := by
  cases s with
  | nil =>
    rw [List.append_nil, segments_of_notMem hne h]
    rfl
  | cons d s =>
    obtain rfl := hs d rfl
    rw [segments_append_cons, segments_of_notMem hne h, segments_cons]
    rfl

/-- Separators at the end of a text make no segments. -/
theorem segments_dropEndWhile (c : Char) (s : List Char) :
    segments c (dropEndWhile (· = c) s) = segments c s := by
  have hsplit : dropEndWhile (· = c) s ++ (s.reverse.takeWhile (· = c)).reverse = s := by
    rw [dropEndWhile, ← List.reverse_append, List.takeWhile_append_dropWhile, List.reverse_reverse]
  have htail (t : List Char) (ht : ∀ d ∈ t, d = c) : segments c t = [] := by
    induction t with
    | nil => rfl
    | cons d t ih =>
      obtain rfl := ht d (List.mem_cons_self ..)
      rw [segments_cons, ih fun e he => ht e (List.mem_cons_of_mem _ he)]
  have hend : ∀ d ∈ (s.reverse.takeWhile (· = c)).reverse, d = c := by
    intro d hd
    exact of_decide_eq_true (List.all_eq_true.1 List.all_takeWhile d (List.mem_reverse.1 hd))
  calc segments c (dropEndWhile (· = c) s)
      = segments c (dropEndWhile (· = c) s ++ (s.reverse.takeWhile (· = c)).reverse) := by
        generalize (s.reverse.takeWhile (· = c)).reverse = t at hend
        cases t with
        | nil => rw [List.append_nil]
        | cons d t =>
          obtain rfl := hend d (List.mem_cons_self ..)
          rw [segments_append_cons, htail t fun e he => hend e (List.mem_cons_of_mem _ he),
            List.append_nil]
    _ = segments c s := by rw [hsplit]

/-- Names of which the last one is longer by a text. -/
def extendLast (e : List Char) : List (List Char) → List (List Char)
  | [] => []
  | [a] => [a ++ e]
  | a :: b :: as => a :: extendLast e (b :: as)

theorem extendLast_concat (e : List Char) (as : List (List Char)) (b : List Char) :
    extendLast e (as ++ [b]) = as ++ [b ++ e] := by
  induction as with
  | nil => rfl
  | cons a as ih =>
    cases as with
    | nil => rfl
    | cons a' as =>
      show a :: extendLast e (a' :: as ++ [b]) = _
      rw [ih]
      rfl

theorem extendLast_inj {e : List Char} {as bs : List (List Char)}
    (h : extendLast e as = extendLast e bs) : as = bs := by
  have hsplit (xs : List (List Char)) : xs = [] ∨ ∃ ys b, xs = ys ++ [b] := by
    simpa using List.eq_nil_or_concat xs
  rcases hsplit as with rfl | ⟨as, a, rfl⟩
  · rcases hsplit bs with rfl | ⟨bs, b, rfl⟩
    · rfl
    · rw [extendLast_concat] at h
      exact absurd h.symm (List.append_ne_nil_of_right_ne_nil bs (List.cons_ne_nil _ _))
  · rcases hsplit bs with rfl | ⟨bs, b, rfl⟩
    · rw [extendLast_concat] at h
      exact absurd h (List.append_ne_nil_of_right_ne_nil as (List.cons_ne_nil _ _))
    · rw [extendLast_concat, extendLast_concat] at h
      obtain ⟨rfl, hlast⟩ := List.append_inj' h rfl
      rw [List.append_cancel_right (List.cons.inj hlast).1]

/-- A text that does not end in a separator ends in a segment. -/
theorem exists_front {c : Char} {s : List Char} (hne : s ≠ []) (hlast : ∀ d ∈ s.getLast?, d ≠ c) :
    ∃ front b, s = front ++ b ∧ (∀ d ∈ front.getLast?, d = c) ∧ b ≠ [] ∧ c ∉ b := by
  cases hcut : cutLast c s with
  | none => exact ⟨[], s, rfl, nofun, hne, notMem_of_cutLast_eq_none hcut⟩
  | some parts =>
    obtain ⟨a, b⟩ := parts
    have hs := eq_of_cutLast hcut
    refine ⟨a ++ [c], b, by simp [hs], ?_, ?_, notMem_of_cutLast hcut⟩
    · intro d hd
      rw [List.getLast?_concat] at hd
      exact (Option.some.inj hd).symm
    · rintro rfl
      exact hlast c (by simp [hs]) rfl

/-- The segments of a text are those of its front and the last one. -/
theorem segments_front {c : Char} {front b : List Char} (hfront : ∀ d ∈ front.getLast?, d = c)
    (hne : b ≠ []) (hb : c ∉ b) : segments c (front ++ b) = segments c front ++ [b] := by
  cases hlast : front.getLast? with
  | none =>
    rw [List.getLast?_eq_none_iff.1 hlast]
    exact segments_of_notMem hne hb
  | some d =>
    obtain rfl := hfront d hlast
    obtain ⟨a, rfl⟩ := List.getLast?_eq_some_iff.1 hlast
    rw [List.append_assoc, List.singleton_append, segments_append_cons, segments_append_cons,
      segments_of_notMem hne hb]
    show _ = segments d a ++ [] ++ [b]
    rw [List.append_nil]

/-- What is written behind a text that does not end in a separator goes to its last segment. -/
theorem segments_append {c : Char} {s e : List Char} (hne : s ≠ [])
    (hlast : ∀ d ∈ s.getLast?, d ≠ c) (he : c ∉ e) :
    segments c (s ++ e) = extendLast e (segments c s) := by
  obtain ⟨front, b, rfl, hfront, hbne, hb⟩ := exists_front hne hlast
  have hlonger : c ∉ b ++ e := by
    rw [List.mem_append, not_or]
    exact ⟨hb, he⟩
  rw [List.append_assoc, segments_front hfront (List.append_ne_nil_of_left_ne_nil hbne e) hlonger,
    segments_front hfront hbne hb, extendLast_concat]

/-- A text that does not end in a separator ends in what its last segment ends in. -/
theorem isSuffix_iff_segments {c : Char} {s e : List Char} (hne : s ≠ [])
    (hlast : ∀ d ∈ s.getLast?, d ≠ c) (he : c ∉ e) :
    e <:+ s ↔ e <:+ (segments c s).getLast?.getD [] := by
  obtain ⟨front, b, rfl, hfront, hbne, hb⟩ := exists_front hne hlast
  rw [segments_front hfront hbne hb, List.getLast?_concat, Option.getD_some]
  cases hend : front.getLast? with
  | none =>
    rw [List.getLast?_eq_none_iff.1 hend]
    exact Iff.rfl
  | some d =>
    obtain rfl := hfront d hend
    obtain ⟨a, rfl⟩ := List.getLast?_eq_some_iff.1 hend
    rw [List.append_assoc, List.singleton_append]
    exact isSuffix_append_iff he

/-- Separators at the beginning of a text make no segments. -/
theorem segments_dropWhile (c : Char) (s : List Char) :
    segments c (s.dropWhile (· = c)) = segments c s := by
  induction s with
  | nil => rfl
  | cons d s ih =>
    by_cases hd : d = c
    · rw [List.dropWhile_cons, if_pos (decide_eq_true hd), ih, hd, segments_cons]
    · rw [List.dropWhile_cons, if_neg (by simpa using hd)]

/-- A text that does not end in a separator does so without those that it begins with. -/
theorem getLast?_dropWhile {c : Char} {s : List Char} (hne : s ≠ [])
    (hlast : ∀ d ∈ s.getLast?, d ≠ c) :
    s.dropWhile (· = c) ≠ [] ∧ ∀ d ∈ (s.dropWhile (· = c)).getLast?, d ≠ c := by
  have hsplit := List.takeWhile_append_dropWhile (p := (· = c)) (l := s)
  cases hrest : s.dropWhile (· = c) with
  | nil =>
    -- all of the text would be separators
    rw [hrest, List.append_nil] at hsplit
    cases hend : s.getLast? with
    | none => exact absurd (List.getLast?_eq_none_iff.1 hend) hne
    | some d =>
      have hmem : d ∈ s.takeWhile (· = c) := hsplit.symm ▸ List.mem_of_getLast? hend
      have hd := of_decide_eq_true (List.all_eq_true.1 List.all_takeWhile d hmem)
      exact absurd hd (hlast d hend)
  | cons e rest =>
    refine ⟨List.cons_ne_nil e rest, ?_⟩
    intro d hd
    apply hlast d
    rw [← hsplit, hrest, List.getLast?_append, hd]
    rfl

theorem getLast?_dropEndWhile (c : Char) (s : List Char) :
    ∀ d ∈ (dropEndWhile (· = c) s).getLast?, d ≠ c := by
  intro d hd
  have hnot := List.head?_dropWhile_not (· = c) s.reverse
  rw [dropEndWhile, List.getLast?_reverse] at hd
  rw [hd] at hnot
  exact of_decide_eq_false hnot

/-- A text that does not end in a character is kept where copies of it are taken off the end. -/
theorem dropEndWhile_eq_self {c : Char} {s : List Char} (h : s.getLast? ≠ some c) :
    dropEndWhile (· = c) s = s := by
  have hkept : s.reverse.dropWhile (· = c) = s.reverse := by
    rw [← List.head?_reverse] at h
    cases hreverse : s.reverse with
    | nil => rfl
    | cons d rest =>
      rw [hreverse] at h
      exact List.dropWhile_cons_of_neg fun hd => h (congrArg some (of_decide_eq_true hd))
  rw [dropEndWhile, hkept, List.reverse_reverse]

end Waymark.Text
