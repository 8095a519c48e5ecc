import Mathlib.Data.List.Induction
import Waymark.Proofs.Disk.Writing
/-!
# Trees of files

A disk as it is found has an entry under each of its keys that is in a directory: a key
is made of names that lead down, none of them too long, and all that stands in front of
the last one is a directory.  So a directory that holds an entry, at whatever depth, is
found under its path.

## Main results

* `IsTree.find?_of_prefix` — above an entry there are directories.
* `IsTree.lookup_directory` — a directory that holds an entry is found.
* `mem_filesBelow` — the files below a directory are those whose names are.
-/

namespace Waymark

namespace Text

/-- The first names joined are the beginning of all of them joined. -/
theorem joinPieces_prefix (d : Char) (as bs : List (List Char)) :
    joinPieces d as <+: joinPieces d (as ++ bs) := by
  cases bs with
  | nil => exact ⟨[], by rw [List.append_nil, List.append_nil]⟩
  | cons b bs =>
    rw [joinPieces_append d as (List.cons_ne_nil b bs)]
    cases as using List.reverseRecOn with
    | nil => exact List.nil_prefix
    | append_singleton as a =>
      rw [joinPieces_append d as (List.cons_ne_nil a []), List.flatMap_append,
        List.flatMap_singleton, List.append_assoc, List.append_assoc]
      exact (List.prefix_append_right_inj _).2 (List.prefix_append a _)

end Text

namespace Disk

/-! ## Trees of files -/

/-- A disk as it can be: each entry has a key of plain names that are not too long, in a directory
that is there, and a path that the system takes. -/
structure IsTree (d : Disk) : Prop where
  key {key : String} {entry : DiskEntry} (h : d.entries.get? key = some entry) :
    key ≠ "" ∧ key = keyOf (namesOf key)
  name {key : String} {entry : DiskEntry} (h : d.entries.get? key = some entry) :
    ∀ name ∈ namesOf key, IsPlain name ∧ name.utf8ByteSize ≤ maxNameSize
  parent {key : String} {entry : DiskEntry} (h : d.entries.get? key = some entry) :
    d.find? (namesOf key).dropLast = some .directory
  allowed {key : String} {entry : DiskEntry} (h : d.entries.get? key = some entry) :
    refusal? (d.pathOf key) = none

instance (name : String) : Decidable (IsName name) :=
  decidable_of_iff (name ≠ "" ∧ '/' ∉ name.toList)
    ⟨fun h => ⟨h.1, h.2⟩, fun h => ⟨h.ne_empty, h.noSlash⟩⟩

instance (name : String) : Decidable (IsPlain name) :=
  decidable_of_iff (IsName name ∧ name ≠ "." ∧ name ≠ "..")
    ⟨fun h => ⟨h.1, h.2.1, h.2.2⟩, fun h => ⟨h.toIsName, h.ne_dot, h.ne_dots⟩⟩

/-- Names below others begin with them. -/
theorem isBelow_iff {names dir : List String} :
    isBelow names dir = true ↔ names ≠ dir ∧ dir <+: names := by
  simp [isBelow]

/-- A name that is not too long leads into a directory where it is found. -/
theorem step_plain {d : Disk} {above : List String} {name : String} (hname : IsPlain name)
    (hsize : name.utf8ByteSize ≤ maxNameSize) (habove : d.find? above = some .directory)
    (hfound : (d.find? (above ++ [name])).isSome = true) :
    d.step (.below above) name = .ok (.below (above ++ [name])) := by
  unfold step
  dsimp only
  rw [habove]
  dsimp only
  rw [if_neg hname.ne_dot, if_neg hname.ne_dots, if_neg (Nat.not_lt.2 hsize), if_pos hfound]

/-- Plain names lead down through directories. -/
theorem walk_plain {d : Disk} {above names : List String}
    (hnames : ∀ name ∈ names, IsPlain name ∧ name.utf8ByteSize ≤ maxNameSize)
    (hdirs : ∀ front, front <+: names → d.find? (above ++ front) = some .directory) :
    d.walk (.below above) names = .ok (.below (above ++ names)) := by
  induction names generalizing above with
  | nil => rw [List.append_nil]; rfl
  | cons name names ih =>
    obtain ⟨hplain, hsize⟩ := hnames name (List.mem_cons_self ..)
    have habove : d.find? above = some .directory := by
      simpa using hdirs [] List.nil_prefix
    have hnext : d.find? (above ++ [name]) = some .directory :=
      hdirs [name] ⟨names, rfl⟩
    have hrest : d.walk (.below (above ++ [name])) names =
        .ok (.below (above ++ [name] ++ names)) := by
      apply ih fun other hother => hnames other (List.mem_cons_of_mem _ hother)
      intro front hfront
      rw [List.append_assoc]
      exact hdirs (name :: front) (List.cons_prefix_cons.2 ⟨rfl, hfront⟩)
    unfold walk at hrest ⊢
    rw [List.foldlM_cons, step_plain hplain hsize habove (by rw [hnext]; rfl)]
    rw [List.append_assoc] at hrest
    exact hrest

/-- Above an entry there are directories. -/
theorem IsTree.find?_of_prefix {d : Disk} (h : d.IsTree) {names dir : List String}
    {entry : DiskEntry} (hnames : ∀ name ∈ names, IsPlain name)
    (hentry : d.entries.get? (keyOf names) = some entry)
    (hdir : dir <+: names) (hne : dir ≠ names) : d.find? dir = some .directory := by
  induction names using List.reverseRecOn generalizing entry with
  | nil => exact absurd (List.prefix_nil.1 hdir) hne
  | append_singleton above name ih =>
    have hisName : ∀ other ∈ above ++ [name], IsName other :=
      fun other ho => (hnames other ho).toIsName
    have hparent := h.parent hentry
    rw [namesOf_keyOf hisName, List.dropLast_concat] at hparent
    have hprefix := (List.prefix_concat_iff.1 hdir).resolve_left hne
    by_cases heq : dir = above
    · rw [heq, hparent]
    · by_cases hroot : above = []
      · exact absurd (List.prefix_nil.1 (hroot ▸ hprefix)) (hroot ▸ heq)
      · rw [find?, if_neg hroot] at hparent
        exact ih (fun other ho => hnames other (List.mem_append_left _ ho)) hparent hprefix heq

/-- A path is refused if a longer one is not. -/
theorem refusal?_of_prefix {path more : String} (h : refusal? (path ++ more) = none) :
    refusal? path = none := by
  unfold refusal? at h ⊢
  rw [String.toList_append, String.utf8ByteSize_append] at h
  split at h
  · cases h
  · rename_i hnul
    split at h
    · cases h
    · rename_i hsize
      rw [if_neg (fun hmem => hnul (List.mem_append_left _ hmem)), if_neg (by omega)]

theorem exists_keyOf_append (dir rest : List String) :
    ∃ more, keyOf (dir ++ rest) = keyOf dir ++ more := by
  obtain ⟨more, hmore⟩ :=
    Text.joinPieces_prefix '/' (dir.map String.toList) (rest.map String.toList)
  refine ⟨String.ofList more, String.toList_inj.1 ?_⟩
  rw [String.toList_append, toList_keyOf, toList_keyOf, String.toList_ofList, List.map_append,
    hmore]

/-- A directory of a tree that holds an entry is found. -/
theorem IsTree.lookup_directory {d : Disk} (h : d.IsTree) {key : String} {entry : DiskEntry}
    (hentry : d.entries.get? key = some entry) {dir : List String}
    (hdir : isBelow (namesOf key) dir = true) :
    d.lookup (d.pathOf (keyOf dir)) = .ok (some dir, .directory) := by
  obtain ⟨hne, rest, hrest⟩ := isBelow_iff.1 hdir
  have hnames := h.name hentry
  have hkey := (h.key hentry).2
  have hallowed := h.allowed hentry
  rw [hkey] at hentry hallowed
  generalize namesOf key = names at *
  subst hrest
  have hplain : ∀ name ∈ dir ++ rest, IsPlain name := fun name hname => (hnames name hname).1
  have hisName : ∀ name ∈ dir, IsName name :=
    fun name hname => (hplain name (List.mem_append_left _ hname)).toIsName
  have hdirs : ∀ front, front <+: dir → d.find? ([] ++ front) = some .directory := by
    intro front hfront
    apply h.find?_of_prefix hplain hentry (hfront.trans (List.prefix_append _ _))
    intro heq
    have hlength := hfront.length_le
    have hsame : rest = [] := by
      rw [heq, List.length_append] at hlength
      exact List.length_eq_zero_iff.1 (by omega)
    exact hne (by rw [hsame, List.append_nil])
  have hrefusal : refusal? (d.pathOf (keyOf dir)) = none := by
    obtain ⟨more, hmore⟩ := exists_keyOf_append dir rest
    have hisNames : ∀ name ∈ dir ++ rest, IsName name :=
      fun name hname => (hplain name hname).toIsName
    rw [pathOf_eq_append d (isPrefixOf_keyOf hisNames), hmore, ← String.append_assoc,
      ← pathOf_eq_append d (isPrefixOf_keyOf hisName)] at hallowed
    exact refusal?_of_prefix hallowed
  have hentrance : d.entrance? (d.pathOf (keyOf dir)) = some (.below [], dir) :=
    entrance?_pathOf d hisName
  have hwalk : d.walk (.below []) dir = .ok (.below ([] ++ dir)) :=
    walk_plain (fun name hname => hnames name (List.mem_append_left _ hname)) hdirs
  unfold lookup
  rw [hrefusal, hentrance]
  dsimp only
  rw [hwalk]
  dsimp only [Bind.bind, Except.bind]
  rw [hdirs dir (List.prefix_refl dir)]
  rfl

/-- The files below a directory. -/
theorem mem_filesBelow {d : Disk} {dir names : List String} :
    names ∈ d.filesBelow dir ↔ ∃ key content, d.entries.get? key = some (.file content) ∧
      names = namesOf key ∧ isBelow (namesOf key) dir = true := by
  unfold filesBelow
  rw [List.mem_mergeSort, List.mem_filterMap]
  constructor
  · rintro ⟨⟨key, entry⟩, hmem, hentry⟩
    cases entry with
    | directory => cases hentry
    | file content =>
      dsimp only at hentry
      split at hentry
      · rename_i hbelow
        exact ⟨key, content, Dict.mem_entries_iff.1 hmem, (Option.some.inj hentry).symm, hbelow⟩
      · cases hentry
  · rintro ⟨key, content, hget, rfl, hbelow⟩
    exact ⟨(key, .file content), Dict.mem_entries_iff.2 hget, if_pos hbelow⟩

end Disk

end Waymark
