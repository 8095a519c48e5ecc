import Waymark.Proofs.Disk.Emptying
import Waymark.Proofs.Script.ServedUrl
/-!
# Paths that are cleaned in steps

Cleaning a path is a walk: a name goes one directory down, two dots go one up, and at the
root they stay where they are.  What has been walked so far is all that the rest of the way
depends on, so a path can be cleaned at any of its slashes first and again as a whole.

An import in a local module is resolved by such walks, and its last step is always one.
So it never leads out of the root, whatever the import map puts in its place and however
often it goes up.  All this is said of a specifier as it stands: a question mark is a
character like any other here.

## Main results

* `cleanSegments_append` — a path goes on from the segments that are kept of its front.
* `clean_append` — a front that is cleaned first makes no difference.
* `isCanonical_iff` — the canonical specifiers are those that cleaning keeps.
* `IsCanonical.namesBelow` — a canonical specifier goes down from the root by its names.
* `clean_confines` — the laws of cleaning, and where the import of a local module leads.
-/

namespace Waymark

namespace Specifier

/-! ## Steps -/

/-- A path goes on behind a slash from the segments that are kept of its front. -/
theorem cleanSegments_append (a b : List Char) :
    cleanSegments (a ++ '/' :: b) =
      ((Text.piecesWhere isSlash b).foldl pushSegment (cleanSegments a).reverse).reverse := by
  show ((Text.piecesWhere isSlash (a ++ '/' :: b)).foldl pushSegment []).reverse = _
  rw [Text.piecesWhere_append_cons a (show isSlash '/' = true from rfl), List.foldl_append,
    cleanSegments, List.reverse_reverse]
  rfl

/-- The front of a path can be cleaned before the path is. -/
theorem clean_append (a b : String) : clean (a ++ "/" ++ b) = clean (clean a ++ "/" ++ b) := by
  have hlist (front : String) :
      (front ++ "/" ++ b).toList = front.toList ++ '/' :: b.toList := by
    rw [String.toList_append, String.toList_append, List.append_assoc]
    rfl
  have hsegments : cleanSegments (a ++ "/" ++ b).toList =
      cleanSegments (clean a ++ "/" ++ b).toList := by
    rw [hlist, hlist, cleanSegments_append, cleanSegments_append, cleanSegments_clean]
  rw [clean, clean, hsegments]

/-! ## Canonical specifiers -/

/-- The canonical specifiers are those that cleaning keeps. -/
theorem isCanonical_iff {s : Specifier} : IsCanonical s ↔ s = "." ++ clean s := by
  constructor
  · rintro ⟨path, rfl⟩
    -- the dot in front is a segment that vanishes
    have hdot (t : List Char) : cleanSegments ('.' :: '/' :: t) = cleanSegments ('/' :: t) := rfl
    have hsegments : cleanSegments ("." ++ clean path).toList = cleanSegments path.toList := by
      rw [← cleanSegments_clean path, String.toList_append, toList_clean]
      exact hdot _
    have hclean : clean ("." ++ clean path) = clean path :=
      congrArg (fun as => String.ofList ('/' :: Text.joinPieces '/' as)) hsegments
    rw [hclean]
  · exact fun h => ⟨s, h⟩

/-- A canonical specifier goes down from the root, along names of which none leads up. -/
theorem IsCanonical.namesBelow {s : Specifier} (h : IsCanonical s) (d : Disk) :
    ∃ names, d.namesBelow (d.pathOf (relativePath s)) = some names ∧
      (∀ name ∈ names, Disk.IsPlain name) ∧ s = "./" ++ Disk.keyOf names := by
  obtain ⟨as, hs, has⟩ := h.toList
  have hrelative : (relativePath s).toList = Text.joinPieces '/' as := by
    rw [relativePath, String.toList_ofList, hs]
    exact Text.dropCopies_append (t := ['.', '/']) (List.cons_ne_nil _ _)
      (not_prefix_joinPieces has)
  have hrooted : ['/'].isPrefixOf (relativePath s).toList = false := by
    rw [hrelative, Bool.eq_false_iff, Ne, List.isPrefixOf_iff_prefix]
    rintro ⟨rest, hrest⟩
    cases as with
    | nil => nomatch hrest
    | cons a as =>
      have ha := has a (List.mem_cons_self ..)
      obtain ⟨c, a', rfl⟩ := List.exists_cons_of_ne_nil ha.ne_nil
      rw [Text.joinPieces_cons] at hrest
      obtain ⟨rfl, -⟩ := List.cons.inj hrest
      exact ha.slash_notMem (List.mem_cons_self ..)
  refine ⟨as.map String.ofList, ?_, ?_, ?_⟩
  · rw [Disk.namesBelow_pathOf hrooted, Disk.namesOf, hrelative,
      Text.segments_joinPieces (fun a ha => (has a ha).slash_notMem) fun a ha => (has a ha).ne_nil]
  · intro name hname
    obtain ⟨a, ha, rfl⟩ := List.mem_map.1 hname
    have hclean := has a ha
    exact Disk.isPlain_ofList hclean.ne_nil hclean.slash_notMem hclean.ne_dot hclean.ne_dots
  · have hnames : (as.map String.ofList).map String.toList = as := by
      rw [List.map_map]
      exact List.map_id'' (fun a => String.toList_ofList) as
    rw [← String.toList_inj, String.toList_append, Disk.toList_keyOf, hnames, hs]
    rfl

end Specifier

namespace Script

open Specifier

/-! ## What an import leads to -/

/-- What an import of a local module means is remote or canonical. -/
theorem isCanonical_of_resolve {map : ImportMap} {importer d : Specifier} {specifier : String}
    (hi : isRemote importer = false) (h : resolve map importer specifier = some d) :
    isRemote d = true ∨ IsCanonical d := by
  cases hd : isRemote d with
  | true => exact Or.inl rfl
  | false => exact Or.inr (isCanonical_of_resolveTarget hi hd h)

/-- A clean path is a slash and the segments it is joined from, each a name without slashes that is
no dot and not two.  Cleaning twice is cleaning once, and the front of a path can be cleaned first.
What an import of a local module means is therefore remote, or it is a local specifier that cleaning
keeps as it is: a way down from the root, on any disk, by names of which none leads up. -/
theorem clean_confines :
    (∀ a : String, ∃ as, (clean a).toList = '/' :: Text.joinPieces '/' as ∧
      ∀ s ∈ as, s ≠ [] ∧ s ≠ ['.'] ∧ s ≠ ['.', '.'] ∧ '/' ∉ s ∧ '\\' ∉ s) ∧
    (∀ a : String, clean (clean a) = clean a) ∧
    (∀ a b : String, clean (a ++ "/" ++ b) = clean (clean a ++ "/" ++ b)) ∧
    ∀ (map : ImportMap) (importer d : Specifier) (specifier : String),
      isRemote importer = false → resolve map importer specifier = some d →
      isRemote d = true ∨ (d = "." ++ clean d ∧ ∀ disk : Disk,
        ∃ names, disk.namesBelow (disk.pathOf (relativePath d)) = some names ∧
          (∀ name ∈ names, Disk.IsPlain name) ∧ d = "./" ++ Disk.keyOf names) := by
  refine ⟨?_, clean_clean, clean_append, ?_⟩
  · intro a
    refine ⟨cleanSegments a.toList, toList_clean a, fun s hs => ?_⟩
    have hclean := isCleanSegment_of_mem hs
    have hback : '\\' ∉ s := fun hmem => absurd (hclean.noSlash '\\' hmem) (by decide)
    exact ⟨hclean.ne_nil, hclean.ne_dot, hclean.ne_dots, hclean.slash_notMem, hback⟩
  · intro map importer d specifier hi h
    rcases isCanonical_of_resolve hi h with hremote | hcanonical
    · exact Or.inl hremote
    · exact Or.inr ⟨isCanonical_iff.1 hcanonical, hcanonical.namesBelow⟩

/-- An import that goes up more often than there are directories, with slashes of both kinds, ends
at the root and goes down from there. -/
theorem clean_confines_upward :
    let d : Specifier := "./lib/x.ts"
    isRemote "./routes/b.ts" = false ∧
      resolve ⟨Dict.ofList [("~/", "../..\\../lib/./")], Dict.empty⟩ "./routes/b.ts" "~/a/../x.ts" =
        some d ∧
      d = "." ++ clean d ∧ clean "routes/../.." = clean (clean "routes/..\\" ++ "/" ++ "..") := by
  intro d
  have hresolve : resolve ⟨Dict.ofList [("~/", "../..\\../lib/./")], Dict.empty⟩ "./routes/b.ts"
      "~/a/../x.ts" = some d := by decide +kernel
  obtain ⟨-, -, hsteps, hresolved⟩ := clean_confines
  refine ⟨by decide +kernel, hresolve, ?_, ?_⟩
  · rcases hresolved _ _ _ _ (by decide +kernel) hresolve with hremote | ⟨hcanonical, -⟩
    · exact absurd hremote (by decide +kernel)
    · exact hcanonical
  · rw [← hsteps "routes/..\\" ".."]
    decide +kernel

end Script
end Waymark
