import Waymark.Disk
import Waymark.Proofs.Specifier.Clean
/-!
# Paths and the names in them

A file below the root of a disk has names, a key that is these names with slashes in
between, and a path that is the key behind the root.  The names are read back from
either, whatever the root is and whether or not it ends in a slash.

## Main results

* `namesOf_keyOf` — the names of a key are those it was made of.
* `keyOf_inj` — different names make different keys.
* `namesBelow_pathOf` — the names of a path are those behind the root.
* `entrance?_pathOf` — a path below the root starts at the root.
-/

namespace Waymark

namespace Text

theorem intercalate_eq_joinPieces (c : Char) (as : List (List Char)) :
    [c].intercalate as = joinPieces c as := by
  induction as with
  | nil => rfl
  | cons a as ih =>
    cases as with
    | nil => simp [joinPieces]
    | cons b bs =>
      rw [List.intercalate_cons_cons, ih, joinPieces]
      simp

end Text

namespace Disk

/-! ## Keys -/

/-- A name that can stand between the slashes of a path. -/
structure IsName (name : String) : Prop where
  ne_empty : name ≠ ""
  noSlash : '/' ∉ name.toList

theorem toList_keyOf (names : List String) :
    (keyOf names).toList = Text.joinPieces '/' (names.map String.toList) := by
  rw [keyOf, String.toList_intercalate]
  exact Text.intercalate_eq_joinPieces '/' _

theorem namesOf_keyOf {names : List String} (h : ∀ name ∈ names, IsName name) :
    namesOf (keyOf names) = names := by
  have hslash : ∀ a ∈ names.map String.toList, '/' ∉ a := by
    intro a ha
    obtain ⟨name, hname, rfl⟩ := List.mem_map.1 ha
    exact (h name hname).noSlash
  have hne : ∀ a ∈ names.map String.toList, a ≠ [] := by
    intro a ha
    obtain ⟨name, hname, rfl⟩ := List.mem_map.1 ha
    simpa using (h name hname).ne_empty
  rw [namesOf, toList_keyOf, Text.segments_joinPieces hslash hne, List.map_map]
  exact (List.map_congr_left fun name _ => String.ofList_toList).trans (List.map_id names)

theorem isName_of_mem_namesOf {key name : String} (h : name ∈ namesOf key) : IsName name := by
  obtain ⟨segment, hsegment, rfl⟩ := List.mem_map.1 h
  obtain ⟨hpiece, hne⟩ := List.mem_filter.1 hsegment
  constructor
  · simpa using hne
  · rw [String.toList_ofList]
    exact Text.notMem_of_mem_pieces hpiece

/-- Different names make different keys. -/
theorem keyOf_inj {names names' : List String} (h : ∀ name ∈ names, IsName name)
    (h' : ∀ name ∈ names', IsName name) : keyOf names = keyOf names' ↔ names = names' := by
  constructor
  · intro hkey
    rw [← namesOf_keyOf h, ← namesOf_keyOf h', hkey]
  · exact congrArg keyOf

/-- The names of a key are told by the key that they make. -/
theorem namesOf_inj {key key' : String} (h : keyOf (namesOf key) = keyOf (namesOf key')) :
    namesOf key = namesOf key' :=
  (keyOf_inj (fun _ => isName_of_mem_namesOf) fun _ => isName_of_mem_namesOf).1 h

/-- No key is rooted. -/
theorem isPrefixOf_keyOf {names : List String} (h : ∀ name ∈ names, IsName name) :
    ['/'].isPrefixOf (keyOf names).toList = false := by
  rw [toList_keyOf]
  cases names with
  | nil => rfl
  | cons name names =>
    have hname := h name (List.mem_cons_self ..)
    obtain ⟨rest, hrest⟩ : ∃ rest, Text.joinPieces '/' ((name :: names).map String.toList) =
        name.toList ++ rest := by
      cases names with
      | nil => exact ⟨[], by simp [Text.joinPieces]⟩
      | cons other names => exact ⟨_, rfl⟩
    rw [hrest]
    cases hlist : name.toList with
    | nil => exact absurd (String.toList_eq_nil_iff.1 hlist) hname.ne_empty
    | cons c cs =>
      have hslash := hname.noSlash
      rw [hlist, List.mem_cons, not_or] at hslash
      simp [List.isPrefixOf, hslash.1]

/-! ## Paths -/

/-- A path that is not rooted is behind the root. -/
theorem namesBelow_pathOf {d : Disk} {path : String}
    (h : ['/'].isPrefixOf path.toList = false) :
    d.namesBelow (d.pathOf path) = some (namesOf path) := by
  rw [pathOf, join, h, if_neg Bool.false_ne_true]
  by_cases hroot : ['/'].isSuffixOf d.root.toList = true
  · rw [if_pos hroot, namesBelow, String.toList_append, Text.isPrefixOf?_append]
    dsimp only
    rw [if_pos (Or.inr (Or.inr hroot)), String.ofList_toList]
  · have hlist : (d.root ++ "/" ++ path).toList = d.root.toList ++ '/' :: path.toList := by simp
    have hbehind : ['/'].isPrefixOf ('/' :: path.toList) = true := by simp
    rw [if_neg hroot, namesBelow, hlist, Text.isPrefixOf?_append]
    dsimp only
    rw [if_pos (Or.inr (Or.inl hbehind)), namesOf, namesOf, String.toList_ofList,
      Text.segments_cons]

/-- The walk along the path of a key goes from the root through its names. -/
theorem entrance?_pathOf (d : Disk) {names : List String} (hnames : ∀ name ∈ names, IsName name) :
    d.entrance? (d.pathOf (keyOf names)) = some (.below [], names) := by
  rw [entrance?, namesBelow_pathOf (isPrefixOf_keyOf hnames), namesOf_keyOf hnames]

end Disk
end Waymark
