import Mathlib.Data.List.TakeWhile
import Waymark.Proofs.Specifier.Clean
/-!
# Specifiers cut at a mark

The query and the fragment of a specifier begin at its first question mark or hash sign.
Taken off, they leave the kind of the module and its key as they are.

A clean path may have such marks in its segments, as it may be what an escaped path was
decoded to.  What is left of it then is clean up to its last segment, which may be one that
cleaning would have resolved: two dots are left exactly where the first mark of the path
stands right behind two dots at the beginning of a segment.

## Main results

* `toList_relativePath_clean` — what is left of a clean path, below the root.
* `dots_mem_beforeMark_iff` — where two dots are left of it.
-/

namespace Waymark.Specifier

/-! ## Keys and kinds -/

theorem stripQuery_stripQuery (s : Specifier) : stripQuery (stripQuery s) = stripQuery s := by
  rw [stripQuery, stripQuery, String.toList_ofList, List.takeWhile_idem]

theorem isStyle_stripQuery (s : Specifier) : isStyle (stripQuery s) = isStyle s := by
  rw [isStyle, isStyle, extension, extension, stripQuery_stripQuery]

theorem isStyle_graphKey (s : Specifier) : isStyle (graphKey s) = isStyle s := by
  unfold graphKey
  split
  · rfl
  · exact isStyle_stripQuery s

theorem isRemote_graphKey (s : Specifier) : isRemote (graphKey s) = isRemote s := by
  cases h : isRemote s with
  | true => rw [graphKey_eq_self_of_isRemote h, h]
  | false =>
    rw [graphKey, h, if_neg Bool.false_ne_true]
    have hprefix : (stripQuery s).toList <+: s.toList := by
      rw [stripQuery, String.toList_ofList]
      exact List.takeWhile_prefix _
    have hnot {p : List Char} (hp : p.isPrefixOf s.toList = false) :
        p.isPrefixOf (stripQuery s).toList = false := by
      rw [Bool.eq_false_iff, Ne, List.isPrefixOf_iff_prefix] at hp ⊢
      exact fun hstripped => hp (hstripped.trans hprefix)
    obtain ⟨hsecure, hplain⟩ := Bool.or_eq_false_iff.1 h
    rw [isRemote, hnot hsecure, hnot hplain]
    rfl

/-! ## Paths up to a mark -/

/-- Whether a character begins neither a query nor a fragment. -/
def isUnmarked (c : Char) : Bool := c ≠ '?' && c ≠ '#'

/-- The segments of a path up to the first one with a mark, and of this one what stands before the
mark. -/
def beforeMark : List (List Char) → List (List Char)
  | [] => []
  | a :: as => if a.all isUnmarked then a :: beforeMark as else [a.takeWhile isUnmarked]

theorem takeWhile_flatMap (as : List (List Char)) :
    (as.flatMap ('/' :: ·)).takeWhile isUnmarked = (beforeMark as).flatMap ('/' :: ·) := by
  induction as with
  | nil => rfl
  | cons a as ih =>
    have hslash : isUnmarked '/' = true := rfl
    rw [List.flatMap_cons, List.cons_append, List.takeWhile_cons_of_pos hslash, beforeMark]
    by_cases hall : a.all isUnmarked = true
    · rw [if_pos hall, List.takeWhile_append_of_pos (List.all_eq_true.1 hall), ih]
      rfl
    · have hshorter : (a.takeWhile isUnmarked).length ≠ a.length := by
        intro hlength
        have hsame := (List.takeWhile_prefix isUnmarked).eq_of_length hlength
        exact hall (hsame ▸ List.all_takeWhile)
      rw [if_neg hall, List.takeWhile_append, if_neg hshorter, List.flatMap_singleton]

theorem takeWhile_joinPieces (as : List (List Char)) :
    (Text.joinPieces '/' as).takeWhile isUnmarked = Text.joinPieces '/' (beforeMark as) := by
  cases as with
  | nil => rfl
  | cons a as =>
    have hflat := takeWhile_flatMap (a :: as)
    have hslash : isUnmarked '/' = true := rfl
    rw [← Text.cons_joinPieces, List.takeWhile_cons_of_pos hslash] at hflat
    cases hbefore : beforeMark (a :: as) with
    | nil =>
      rw [hbefore] at hflat
      nomatch hflat
    | cons b bs =>
      rw [hbefore, ← Text.cons_joinPieces] at hflat
      exact (List.cons.inj hflat).2

theorem beforeMark_of_all {as : List (List Char)} (h : ∀ a ∈ as, a.all isUnmarked = true) :
    beforeMark as = as := by
  induction as with
  | nil => rfl
  | cons a as ih =>
    obtain ⟨ha, has⟩ := List.forall_mem_cons.1 h
    rw [beforeMark, if_pos ha, ih has]

/-- What follows the first segment with a mark is left out. -/
theorem beforeMark_append {before : List (List Char)} (h : ∀ b ∈ before, b.all isUnmarked = true)
    {a : List Char} (ha : a.all isUnmarked = false) (after : List (List Char)) :
    beforeMark (before ++ a :: after) = before ++ [a.takeWhile isUnmarked] := by
  induction before with
  | nil =>
    rw [List.nil_append, beforeMark, ha]
    rfl
  | cons b before ih =>
    obtain ⟨hb, hbefore⟩ := List.forall_mem_cons.1 h
    rw [List.cons_append, beforeMark, if_pos hb, ih hbefore]
    rfl

/-- Either no segment has a mark, or there is a first one that has. -/
theorem exists_first_mark (as : List (List Char)) :
    (∀ a ∈ as, a.all isUnmarked = true) ∨
      ∃ before a after, as = before ++ a :: after ∧ (∀ b ∈ before, b.all isUnmarked = true) ∧
        a.all isUnmarked = false := by
  induction as with
  | nil => exact Or.inl fun a ha => absurd ha List.not_mem_nil
  | cons a as ih =>
    cases hall : a.all isUnmarked with
    | false => exact Or.inr ⟨[], a, as, rfl, fun b hb => absurd hb List.not_mem_nil, hall⟩
    | true =>
      rcases ih with hunmarked | ⟨before, m, after, rfl, hunmarked, hmark⟩
      · exact Or.inl (List.forall_mem_cons.2 ⟨hall, hunmarked⟩)
      · exact Or.inr ⟨a :: before, m, after, rfl, List.forall_mem_cons.2 ⟨hall, hunmarked⟩, hmark⟩

/-- What comes to two dots when it is cut at its first mark. -/
theorem takeWhile_eq_dots_iff {a : List Char} :
    a.all isUnmarked = false ∧ a.takeWhile isUnmarked = ['.', '.'] ↔
      ['.', '.', '?'] <+: a ∨ ['.', '.', '#'] <+: a := by
  constructor
  · rintro ⟨hmark, hdots⟩
    have hsplit := List.takeWhile_append_dropWhile (p := isUnmarked) (l := a)
    rw [hdots] at hsplit
    cases hrest : a.dropWhile isUnmarked with
    | nil =>
      rw [hrest] at hsplit
      rw [← hsplit] at hmark
      cases hmark
    | cons c rest =>
      have hc := List.head?_dropWhile_not isUnmarked a
      rw [hrest] at hc hsplit
      have hmarked : c = '?' ∨ c = '#' := by
        by_contra hnot
        obtain ⟨hquery, hfragment⟩ := not_or.1 hnot
        have hunmarked : isUnmarked c = true :=
          Bool.and_eq_true_iff.2 ⟨decide_eq_true hquery, decide_eq_true hfragment⟩
        exact Bool.false_ne_true (hc.symm.trans hunmarked)
      rcases hmarked with rfl | rfl
      · exact Or.inl ⟨rest, hsplit⟩
      · exact Or.inr ⟨rest, hsplit⟩
  · rintro (⟨rest, rfl⟩ | ⟨rest, rfl⟩)
    · exact ⟨rfl, rfl⟩
    · exact ⟨rfl, rfl⟩

/-- What is left of a clean path begins with a clean segment, unless it is within the first one. -/
theorem exists_clean_joinPieces_beforeMark {as : List (List Char)}
    (h : ∀ a ∈ as, IsCleanSegment a) :
    (∃ a more, IsCleanSegment a ∧ Text.joinPieces '/' (beforeMark as) = a ++ more) ∨
      '/' ∉ Text.joinPieces '/' (beforeMark as) := by
  cases as with
  | nil => exact Or.inr List.not_mem_nil
  | cons a as =>
    have ha := h a (List.mem_cons_self ..)
    rw [beforeMark]
    by_cases hall : a.all isUnmarked = true
    · rw [if_pos hall, Text.joinPieces_cons]
      exact Or.inl ⟨a, _, ha, rfl⟩
    · rw [if_neg hall]
      refine Or.inr fun hmem => ?_
      exact ha.slash_notMem ((List.takeWhile_prefix isUnmarked).subset hmem)

/-- The specifier of a clean path, cut at its first mark. -/
theorem toList_stripQuery_clean (path : String) :
    (stripQuery ("." ++ clean path)).toList =
      ['.', '/'] ++ Text.joinPieces '/' (beforeMark (cleanSegments path.toList)) := by
  rw [stripQuery, String.toList_ofList, String.toList_append, toList_clean]
  show '.' :: '/' :: (Text.joinPieces '/' (cleanSegments path.toList)).takeWhile isUnmarked = _
  rw [takeWhile_joinPieces]
  rfl

/-- The path below the root that it stands for. -/
theorem toList_relativePath_clean (path : String) :
    (relativePath (stripQuery ("." ++ clean path))).toList =
      Text.joinPieces '/' (beforeMark (cleanSegments path.toList)) := by
  rw [relativePath, String.toList_ofList, toList_stripQuery_clean]
  apply Text.dropCopies_append (List.cons_ne_nil _ _)
  rcases exists_clean_joinPieces_beforeMark fun a ha => isCleanSegment_of_mem ha with
    ⟨a, more, ha, heq⟩ | hslash
  · rw [heq]
    exact not_dotSlash_prefix ha.ne_nil ha.ne_dot ha.slash_notMem
  · rintro ⟨rest, hrest⟩
    exact hslash (hrest ▸ by simp)

/-- It is not rooted. -/
theorem isPrefixOf_relativePath_clean (path : String) :
    ['/'].isPrefixOf (relativePath (stripQuery ("." ++ clean path))).toList = false := by
  rw [toList_relativePath_clean, Bool.eq_false_iff, Ne, List.isPrefixOf_iff_prefix]
  rintro ⟨rest, hrest⟩
  rcases exists_clean_joinPieces_beforeMark fun a ha => isCleanSegment_of_mem ha with
    ⟨a, more, ha, heq⟩ | hslash
  · rw [heq] at hrest
    cases a with
    | nil => exact ha.ne_nil rfl
    | cons c a =>
      obtain ⟨rfl, -⟩ := List.cons.inj hrest
      exact ha.slash_notMem (List.mem_cons_self ..)
  · exact hslash (hrest ▸ by simp)

/-- Of the segments of a clean path two dots are left only where the first mark stands right behind
them. -/
theorem dots_mem_beforeMark_iff {as : List (List Char)} (h : ∀ a ∈ as, IsCleanSegment a) :
    ['.', '.'] ∈ beforeMark as ↔
      ∃ before a after, as = before ++ a :: after ∧ (∀ b ∈ before, b.all isUnmarked = true) ∧
        (['.', '.', '?'] <+: a ∨ ['.', '.', '#'] <+: a) := by
  constructor
  · intro hmem
    rcases exists_first_mark as with hall | ⟨before, a, after, rfl, hbefore, hmark⟩
    · rw [beforeMark_of_all hall] at hmem
      exact absurd rfl (h _ hmem).ne_dots
    · rw [beforeMark_append hbefore hmark] at hmem
      refine ⟨before, a, after, rfl, hbefore, takeWhile_eq_dots_iff.1 ⟨hmark, ?_⟩⟩
      rcases List.mem_append.1 hmem with hmem | hmem
      · exact absurd rfl (h _ (List.mem_append_left _ hmem)).ne_dots
      · exact (List.mem_singleton.1 hmem).symm
  · rintro ⟨before, a, after, rfl, hbefore, ha⟩
    obtain ⟨hmark, hdots⟩ := takeWhile_eq_dots_iff.2 ha
    rw [beforeMark_append hbefore hmark, hdots]
    exact List.mem_append_right _ (List.mem_singleton_self _)

theorem slash_notMem_beforeMark {as : List (List Char)} (h : ∀ a ∈ as, IsCleanSegment a) :
    ∀ b ∈ beforeMark as, '/' ∉ b := by
  have hslash {a : List Char} (ha : a ∈ as) : '/' ∉ a := (h a ha).slash_notMem
  rcases exists_first_mark as with hall | ⟨before, a, after, rfl, hbefore, hmark⟩
  · rw [beforeMark_of_all hall]
    exact fun b hb => hslash hb
  · rw [beforeMark_append hbefore hmark]
    intro b hb
    rcases List.mem_append.1 hb with hb | hb
    · exact hslash (List.mem_append_left _ hb)
    · rw [List.mem_singleton.1 hb]
      intro hmem
      exact hslash (List.mem_append_right _ (List.mem_cons_self ..))
        ((List.takeWhile_prefix isUnmarked).subset hmem)

end Waymark.Specifier
