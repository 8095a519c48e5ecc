import Waymark.Proofs.Text.Pieces
import Waymark.Specifier
/-!
# Clean paths

A clean path is its segments: it begins with a slash, its segments are joined by
slashes, and no segment is empty, a dot or two dots, or holds a slash of either kind.
Read again, such a path has the same segments, so that cleaning it changes nothing.

## Main results

* `cleanSegments_join` — the segments of a clean path are those it was joined from.
* `clean_clean` — cleaning twice is cleaning once.
-/

namespace Waymark.Specifier

/-! ## Segments -/

/-- Whether a character separates the segments of a path. -/
def isSlash (c : Char) : Bool := c = '/' || c = '\\'

/-- A segment that cleaning leaves alone. -/
structure IsCleanSegment (a : List Char) : Prop where
  ne_nil : a ≠ []
  ne_dot : a ≠ ['.']
  ne_dots : a ≠ ['.', '.']
  noSlash : ∀ c ∈ a, isSlash c = false

theorem IsCleanSegment.slash_notMem {a : List Char} (h : IsCleanSegment a) : '/' ∉ a :=
  fun hmem => absurd (h.noSlash '/' hmem) (by decide)

theorem pushSegment_clean {a : List Char} (h : IsCleanSegment a) (kept : List (List Char)) :
    pushSegment kept a = a :: kept := by
  rw [pushSegment, if_neg (not_or.2 ⟨h.ne_nil, h.ne_dot⟩), if_neg h.ne_dots]

theorem foldl_pushSegment_clean {as : List (List Char)} (h : ∀ a ∈ as, IsCleanSegment a)
    (kept : List (List Char)) : as.foldl pushSegment kept = as.reverse ++ kept := by
  induction as generalizing kept with
  | nil => rfl
  | cons a as ih =>
    rw [List.foldl_cons, pushSegment_clean (h a (List.mem_cons_self ..)),
      ih fun x hx => h x (List.mem_cons_of_mem _ hx)]
    simp

/-- What is kept while a path is cleaned is among its pieces. -/
theorem mem_of_mem_foldl_pushSegment {ps kept : List (List Char)} {a : List Char}
    (h : a ∈ ps.foldl pushSegment kept) : a ∈ ps ∨ a ∈ kept := by
  induction ps generalizing kept with
  | nil => exact Or.inr h
  | cons p ps ih =>
    rcases ih h with hps | hkept
    · exact Or.inl (List.mem_cons_of_mem _ hps)
    · unfold pushSegment at hkept
      split at hkept
      · exact Or.inr hkept
      · split at hkept
        · exact Or.inr (List.mem_of_mem_tail hkept)
        · rcases List.mem_cons.1 hkept with rfl | hkept
          · exact Or.inl (List.mem_cons_self ..)
          · exact Or.inr hkept

theorem isCleanSegment_of_mem {path a : List Char} (h : a ∈ cleanSegments path) :
    IsCleanSegment a := by
  obtain ⟨hnil, hdot, hdots⟩ := mem_cleanSegments h
  refine ⟨hnil, hdot, hdots, ?_⟩
  rcases mem_of_mem_foldl_pushSegment (List.mem_reverse.1 h) with hmem | hmem
  · exact Text.notSeparator_of_mem_piecesWhere hmem
  · nomatch hmem

/-- Segments that cleaning leaves alone are what a path joined from them is read as. -/
theorem cleanSegments_join {as : List (List Char)} (h : ∀ a ∈ as, IsCleanSegment a) :
    cleanSegments ('/' :: Text.joinPieces '/' as) = as := by
  have hslash : isSlash '/' = true := rfl
  show ((Text.piecesWhere isSlash ([] ++ '/' :: Text.joinPieces '/' as)).foldl pushSegment
    []).reverse = as
  rw [Text.piecesWhere_append (by simp) '/' hslash]
  cases as with
  | nil => rfl
  | cons a as =>
    rw [Text.piecesWhere_joinPieces hslash (fun x hx => (h x hx).noSlash) (List.cons_ne_nil a as)]
    show ((a :: as).foldl pushSegment []).reverse = a :: as
    rw [foldl_pushSegment_clean h]
    simp

theorem cleanSegments_clean (path : String) :
    cleanSegments (clean path).toList = cleanSegments path.toList := by
  rw [toList_clean]
  exact cleanSegments_join fun _ ha => isCleanSegment_of_mem ha

@[simp] theorem clean_clean (path : String) : clean (clean path) = clean path := by
  show String.ofList ('/' :: Text.joinPieces '/' (cleanSegments (clean path).toList)) = clean path
  rw [cleanSegments_clean]
  rfl

/-- A path that begins with a name other than a dot does not begin with `./`. -/
theorem not_dotSlash_prefix {a t : List Char} (hne : a ≠ []) (hdot : a ≠ ['.']) (hslash : '/' ∉ a) :
    ¬['.', '/'] <+: a ++ t := by
  rintro ⟨rest, hrest⟩
  cases a with
  | nil => exact hne rfl
  | cons c a =>
    obtain ⟨rfl, hmore⟩ := List.cons.inj hrest
    cases a with
    | nil => exact hdot rfl
    | cons c a =>
      obtain ⟨rfl, -⟩ := List.cons.inj hmore
      exact hslash (by simp)

theorem not_prefix_joinPieces {as : List (List Char)} (h : ∀ a ∈ as, IsCleanSegment a) :
    ¬['.', '/'] <+: Text.joinPieces '/' as := by
  cases as with
  | nil =>
    intro hprefix
    exact absurd (List.prefix_nil.1 hprefix) (List.cons_ne_nil _ _)
  | cons a as =>
    have ha := h a (List.mem_cons_self ..)
    rw [Text.joinPieces_cons]
    exact not_dotSlash_prefix ha.ne_nil ha.ne_dot ha.slash_notMem

/-- Cleaning adds nothing but slashes. -/
theorem notMem_clean {c : Char} (hslash : c ≠ '/') {path : String} (h : c ∉ path.toList) :
    c ∉ (clean path).toList := by
  rw [toList_clean, List.mem_cons, not_or]
  refine ⟨hslash, fun hmem => ?_⟩
  rcases Text.mem_of_mem_joinPieces hmem with heq | ⟨a, ha, hc⟩
  · exact hslash heq
  · rcases mem_of_mem_foldl_pushSegment (List.mem_reverse.1 ha) with ha | ha
    · exact h (Text.mem_of_mem_piecesWhere ha hc)
    · nomatch ha

end Waymark.Specifier
