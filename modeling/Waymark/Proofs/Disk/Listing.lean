import Mathlib.Data.List.Perm.Basic
import Waymark.Proofs.Disk.Apart
/-!
# Listings of files

The files below a directory are listed in an order of their names that leaves nothing open,
and each of them once.  So a listing is told by the files that are in it, whatever has been
done to the disk before.

A file that is written, renamed or taken away under a path of plain names is the one with these
names, and the disk is as it should be after that.  Nothing else comes into the listings of
its directories, or goes from them.

## Main results

* `filter_filesBelow_congr` — where two disks have the same files of a kind they list them alike.
* `IsTree.write`, `mem_filesBelow_write` — a file that is written.
* `IsTree.removeFile`, `mem_filesBelow_removeFile` — a file that is taken away.
* `IsTree.renameFile`, `mem_filesBelow_renameFile` — a file that gets another name.
-/

namespace Waymark.Disk

/-! ## The order of names -/

theorem namesLe_cons {a b : String} {as bs : List String} :
    namesLe (a :: as) (b :: bs) = true ↔ a < b ∨ a = b ∧ namesLe as bs = true := by
  simp [namesLe]

theorem namesLe_total (as bs : List String) : namesLe as bs = true ∨ namesLe bs as = true := by
  induction as generalizing bs with
  | nil => exact Or.inl rfl
  | cons a as ih =>
    cases bs with
    | nil => exact Or.inr rfl
    | cons b bs =>
      rw [namesLe_cons, namesLe_cons]
      by_cases hlt : a < b
      · exact Or.inl (Or.inl hlt)
      · by_cases heq : a = b
        · exact (ih bs).imp (fun h => Or.inr ⟨heq, h⟩) (fun h => Or.inr ⟨heq.symm, h⟩)
        · exact Or.inr (Or.inl (lt_of_not_lt_of_ne hlt heq))

theorem namesLe_trans {as bs cs : List String} (h : namesLe as bs = true)
    (h' : namesLe bs cs = true) : namesLe as cs = true := by
  induction as generalizing bs cs with
  | nil => rfl
  | cons a as ih =>
    cases bs with
    | nil => nomatch h
    | cons b bs =>
      cases cs with
      | nil => nomatch h'
      | cons c cs =>
        rw [namesLe_cons] at h h' ⊢
        rcases h with hlt | ⟨rfl, hle⟩
        · rcases h' with hlt' | ⟨rfl, -⟩
          · exact Or.inl (String.lt_trans hlt hlt')
          · exact Or.inl hlt
        · rcases h' with hlt' | ⟨rfl, hle'⟩
          · exact Or.inl hlt'
          · exact Or.inr ⟨rfl, ih hle hle'⟩

theorem namesLe_antisymm {as bs : List String} (h : namesLe as bs = true)
    (h' : namesLe bs as = true) : as = bs := by
  induction as generalizing bs with
  | nil =>
    cases bs with
    | nil => rfl
    | cons b bs => nomatch h'
  | cons a as ih =>
    cases bs with
    | nil => nomatch h
    | cons b bs =>
      rw [namesLe_cons] at h h'
      rcases h with hlt | ⟨rfl, hle⟩
      · rcases h' with hlt' | ⟨rfl, -⟩
        · exact absurd (String.lt_trans hlt hlt') (String.lt_irrefl a)
        · exact absurd hlt (String.lt_irrefl b)
      · rcases h' with hlt' | ⟨-, hle'⟩
        · exact absurd hlt' (String.lt_irrefl a)
        · rw [ih hle hle']

/-! ## Listings -/

section
variable {d d' : Disk}

theorem filesBelow_ascend (d : Disk) (dir : List String) :
    (d.filesBelow dir).Pairwise fun names other => namesLe names other = true := by
  apply List.pairwise_mergeSort
  · exact fun _ _ _ => namesLe_trans
  · exact fun as bs => Bool.or_eq_true _ _ ▸ namesLe_total as bs

/-- The names of an entry that is a file below a directory. -/
def listed? (dir : List String) : String × DiskEntry → Option (List String)
  | (key, .file _) => if isBelow (namesOf key) dir then some (namesOf key) else none
  | (_, .directory) => none

theorem namesOf_of_listed? {dir names : List String} {e : String × DiskEntry}
    (h : listed? dir e = some names) : namesOf e.1 = names := by
  obtain ⟨key, entry⟩ := e
  cases entry with
  | file content =>
    have hnames : (if isBelow (namesOf key) dir then some (namesOf key) else none) = some names := h
    split at hnames
    · exact Option.some.inj hnames
    · cases hnames
  | directory => cases h

theorem filesBelow_eq (d : Disk) (dir : List String) :
    d.filesBelow dir = (d.entries.entries.filterMap (listed? dir)).mergeSort namesLe := by
  unfold filesBelow
  dsimp only
  congr 2
  funext ⟨key, entry⟩
  cases entry with
  | file content => rfl
  | directory => rfl

/-- No file is listed twice. -/
theorem IsTree.nodup_filesBelow (h : d.IsTree) (dir : List String) : (d.filesBelow dir).Nodup := by
  rw [filesBelow_eq, (List.mergeSort_perm _ _).nodup_iff]
  refine List.pairwise_filterMap.2 (d.entries.ascends.imp_of_mem ?_)
  intro e e' he he' hlt names hnames names' hnames' heq
  have hkey := (h.key (Dict.mem_entries_iff.1 he)).2
  have hkey' := (h.key (Dict.mem_entries_iff.1 he')).2
  -- two keys with the same names are the same
  have hsame : e.1 = e'.1 := by
    rw [hkey, hkey', namesOf_of_listed? hnames, namesOf_of_listed? hnames', heq]
  exact String.lt_irrefl e'.1 (hsame ▸ hlt)

/-- Two disks list the files of a kind alike if they have the same ones. -/
theorem filter_filesBelow_congr (h : d.IsTree) (h' : d'.IsTree) {dir : List String}
    {p : List String → Bool}
    (hfiles : ∀ names, p names = true → (names ∈ d.filesBelow dir ↔ names ∈ d'.filesBelow dir)) :
    (d.filesBelow dir).filter p = (d'.filesBelow dir).filter p := by
  have hperm : ((d.filesBelow dir).filter p).Perm ((d'.filesBelow dir).filter p) := by
    refine (List.perm_ext_iff_of_nodup ((h.nodup_filesBelow dir).filter p)
      ((h'.nodup_filesBelow dir).filter p)).2 ?_
    intro names
    rw [List.mem_filter, List.mem_filter, and_congr_left_iff]
    exact hfiles names
  exact hperm.eq_of_pairwise (fun _ _ _ _ => namesLe_antisymm)
    ((filesBelow_ascend d dir).filter p) ((filesBelow_ascend d' dir).filter p)

/-- A file is listed by the directories above it. -/
theorem mem_filesBelow_of_find? {names dir : List String} {content : ByteArray}
    (hnames : ∀ name ∈ names, IsName name) (hfile : d.find? names = some (.file content))
    (hbelow : isBelow names dir = true) : names ∈ d.filesBelow dir := by
  have hroot : names ≠ [] := by
    rintro rfl
    nomatch hfile
  rw [find?, if_neg hroot] at hfile
  have hkey := namesOf_keyOf hnames
  exact mem_filesBelow.2 ⟨keyOf names, content, hfile, hkey.symm, hkey.symm ▸ hbelow⟩

/-! ## Files that are written -/

/-- A name is looked up in a directory only if it is not too long. -/
theorem size_le_of_step {above : List String} {name : String} (hname : IsPlain name)
    (habove : d.find? above = some .directory)
    (h : d.step (.below above) name ≠ .error .nameTooLong) : name.utf8ByteSize ≤ maxNameSize := by
  by_contra hlong
  apply h
  unfold step
  dsimp only
  rw [habove]
  dsimp only
  rw [if_neg hname.ne_dot, if_neg hname.ne_dots, if_pos (Nat.lt_of_not_le hlong)]

/-- A file that can be made: in a directory that is there, with a name that is not too long and a
path that the system takes. -/
structure Takes (d : Disk) (names : List String) : Prop extends HasRoom d names where
  size : ∀ name ∈ names, name.utf8ByteSize ≤ maxNameSize
  allowed : refusal? (d.pathOf (keyOf names)) = none

section
variable {names : List String} {content : ByteArray}

/-- What is written under plain names is the file with these names. -/
theorem IsTree.takes_of_write (h : d.IsTree) (hnames : ∀ name ∈ names, IsPlain name)
    (hwrite : d.write (d.pathOf (keyOf names)) content = .ok d') :
    Takes d names ∧ d' = d.put names (.file content) := by
  have hisName : ∀ name ∈ names, IsName name := fun name hname => (hnames name hname).toIsName
  obtain ⟨found, there, htarget, hentry, -, rfl⟩ := exists_target_of_write hwrite
  obtain ⟨hallowed, start, above, name, parent, hentrance, hwalk, hends⟩ :=
    exists_of_target htarget hentry
  have hgrounded := grounded_walk (grounded_entrance hentrance) hwalk
  have hroom := hends.hasRoom hgrounded
  rw [entrance?_pathOf d hisName] at hentrance
  obtain ⟨rfl, rfl⟩ := Prod.mk.inj (Option.some.inj hentrance)
  have habove : ∀ other ∈ above, IsPlain other :=
    fun other hother => hnames other (List.mem_append_left _ hother)
  have hlast : IsPlain name := hnames name (List.mem_append_right _ (List.mem_singleton_self name))
  obtain rfl := eq_of_walk_plain habove hwalk
  rw [List.nil_append] at hgrounded hends
  have hfound : found = above ++ [name] ∧
      d.step (.below above) name ≠ .error .nameTooLong := by
    cases hends with
    | file hstep hfind =>
      refine ⟨Spot.below.inj (eq_of_step_plain hlast hstep), ?_⟩
      rw [hstep]
      nofun
    | free hparent hfree hstep =>
      obtain rfl := Spot.below.inj hparent
      refine ⟨hfree, ?_⟩
      rw [hstep]
      nofun
  obtain ⟨rfl, hstep⟩ := hfound
  have hdirectory := hroom.parent
  rw [List.dropLast_concat] at hdirectory
  refine ⟨⟨hroom, ?_, hallowed⟩, rfl⟩
  intro other hother
  rcases List.mem_append.1 hother with hother | hother
  · -- the directory is on the tree, so its names are not too long
    have hroot : above ≠ [] := List.ne_nil_of_mem hother
    rw [find?, if_neg hroot] at hdirectory
    have hsizes := h.name hdirectory
    rw [namesOf_keyOf fun other hother => (habove other hother).toIsName] at hsizes
    exact (hsizes other hother).2
  · obtain rfl := List.mem_singleton.1 hother
    exact size_le_of_step hlast hdirectory hstep

theorem get?_put (hroom : HasRoom d names) (entry : DiskEntry) (key : String) :
    (d.put names entry).entries.get? key =
      if key = keyOf names then some entry else d.entries.get? key := by
  rw [put_of_hasRoom hroom]
  exact Dict.get?_insert ..

/-- A tree stays one if a file is put where it can be made. -/
theorem IsTree.put (h : d.IsTree) (hnames : ∀ name ∈ names, IsPlain name) (htakes : Takes d names)
    (content : ByteArray) : (d.put names (.file content)).IsTree := by
  have hisName : ∀ name ∈ names, IsName name := fun name hname => (hnames name hname).toIsName
  have hgrows := put_grows htakes.toHasRoom content
  have hcases {key : String} {entry : DiskEntry}
      (hentry : (d.put names (.file content)).entries.get? key = some entry) :
      key = keyOf names ∨ d.entries.get? key = some entry := by
    rw [get?_put htakes.toHasRoom] at hentry
    split at hentry
    · rename_i hkey
      exact Or.inl hkey
    · exact Or.inr hentry
  constructor
  · intro key entry hentry
    rcases hcases hentry with rfl | hold
    · refine ⟨?_, by rw [namesOf_keyOf hisName]⟩
      intro hempty
      have hnil := namesOf_keyOf hisName
      rw [hempty] at hnil
      exact htakes.ne_root hnil.symm
    · exact h.key hold
  · intro key entry hentry
    rcases hcases hentry with rfl | hold
    · rw [namesOf_keyOf hisName]
      exact fun name hname => ⟨hnames name hname, htakes.size name hname⟩
    · exact h.name hold
  · intro key entry hentry
    rcases hcases hentry with rfl | hold
    · rw [namesOf_keyOf hisName]
      exact hgrows.directories _ htakes.parent
    · exact hgrows.directories _ (h.parent hold)
  · intro key entry hentry
    have hpath : (d.put names (.file content)).pathOf key = d.pathOf key := by
      rw [pathOf, hgrows.root, pathOf]
    rw [hpath]
    rcases hcases hentry with rfl | hold
    · exact htakes.allowed
    · exact h.allowed hold

/-- A tree stays one if a file is written. -/
theorem IsTree.write (h : d.IsTree) (hnames : ∀ name ∈ names, IsPlain name)
    (hwrite : d.write (d.pathOf (keyOf names)) content = .ok d') : d'.IsTree := by
  obtain ⟨htakes, rfl⟩ := h.takes_of_write hnames hwrite
  exact h.put hnames htakes content

/-- A file that is written is listed by its directories, and otherwise the same files are. -/
theorem mem_filesBelow_write (h : d.IsTree) (hnames : ∀ name ∈ names, IsPlain name)
    (hwrite : d.write (d.pathOf (keyOf names)) content = .ok d') {dir other : List String} :
    other ∈ d'.filesBelow dir ↔
      other ∈ d.filesBelow dir ∨ other = names ∧ isBelow names dir = true := by
  have hisName : ∀ name ∈ names, IsName name := fun name hname => (hnames name hname).toIsName
  obtain ⟨htakes, rfl⟩ := h.takes_of_write hnames hwrite
  rw [mem_filesBelow, mem_filesBelow]
  constructor
  · rintro ⟨key, found, hfile, rfl, hbelow⟩
    rw [get?_put htakes.toHasRoom] at hfile
    split at hfile
    · rename_i hkey
      rw [hkey, namesOf_keyOf hisName] at hbelow ⊢
      exact Or.inr ⟨rfl, hbelow⟩
    · exact Or.inl ⟨key, found, hfile, rfl, hbelow⟩
  · rintro (⟨key, found, hfile, rfl, hbelow⟩ | ⟨rfl, hbelow⟩)
    · by_cases hkey : key = keyOf names
      · exact ⟨key, content, by rw [get?_put htakes.toHasRoom, if_pos hkey], rfl, hbelow⟩
      · exact ⟨key, found, by rw [get?_put htakes.toHasRoom, if_neg hkey, hfile], rfl, hbelow⟩
    · refine ⟨keyOf other, content, ?_, ?_, ?_⟩
      · rw [get?_put htakes.toHasRoom, if_pos rfl]
      · rw [namesOf_keyOf hisName]
      · rw [namesOf_keyOf hisName]
        exact hbelow

end

/-! ## Files that are taken away -/

section
variable {names : List String}

theorem get?_clear_iff {key : String} {entry : DiskEntry} {whole : Bool} :
    (d.clear names whole).entries.get? key = some entry ↔
      d.entries.get? key = some entry ∧ isBelow (namesOf key) names = false ∧
        (whole = true → namesOf key ≠ names) := by
  show (d.entries.filter _).get? key = some entry ↔ _
  rw [Dict.get?_filter, Option.filter_eq_some_iff]
  refine and_congr_right fun _ => ?_
  cases whole with
  | false => simp
  | true => simp

/-- A tree stays one if all that lies below a directory is taken away. -/
theorem IsTree.clear (h : d.IsTree) (names : List String) (whole : Bool) :
    (d.clear names whole).IsTree := by
  constructor
  · exact fun hentry => h.key (get?_clear_iff.1 hentry).1
  · exact fun hentry => h.name (get?_clear_iff.1 hentry).1
  · intro key entry hentry
    obtain ⟨hold, hbelow, -⟩ := get?_clear_iff.1 hentry
    have hparent := h.parent hold
    have hisName : ∀ name ∈ (namesOf key).dropLast, IsName name :=
      fun name hname => isName_of_mem_namesOf (List.dropLast_subset _ hname)
    by_cases hroot : (namesOf key).dropLast = []
    · rw [hroot]
      rfl
    · rw [find?, if_neg hroot] at hparent ⊢
      rw [get?_clear_iff, namesOf_keyOf hisName]
      -- what takes the directory away takes the entry with it
      have hapart : ¬names <+: (namesOf key).dropLast := by
        intro hprefix
        have hdrop := List.dropLast_prefix (namesOf key)
        have hlength := hprefix.length_le
        have hpos : (namesOf key).length ≠ 0 := by
          intro hzero
          rw [List.length_eq_zero_iff.1 hzero] at hroot
          exact hroot rfl
        have hbelow' : isBelow (namesOf key) names = true := by
          rw [isBelow_iff]
          refine ⟨?_, hprefix.trans hdrop⟩
          intro hsame
          rw [← hsame, List.length_dropLast] at hlength
          omega
        exact Bool.false_ne_true (hbelow.symm.trans hbelow')
      refine ⟨hparent, ?_, ?_⟩
      · rw [Bool.eq_false_iff, Ne, isBelow_iff]
        exact fun hin => hapart hin.2
      · rintro - rfl
        exact hapart (List.prefix_refl _)
  · exact fun hentry => h.allowed (get?_clear_iff.1 hentry).1

/-- What is taken away under plain names is the file with these names. -/
theorem file_of_removeFile (hnames : ∀ name ∈ names, IsPlain name)
    (hremove : d.removeFile (d.pathOf (keyOf names)) = .ok d') :
    (∃ content, d.find? names = some (.file content)) ∧ d' = d.clear names true := by
  unfold removeFile at hremove
  obtain ⟨⟨place, entry⟩, hlookup, hcleared⟩ := exists_of_bind_eq_ok hremove
  cases entry with
  | directory =>
    cases place with
    | none => nomatch hcleared
    | some found => nomatch hcleared
  | file content =>
    obtain ⟨found, rfl, hleads, hfind⟩ := lookup_iff.1 hlookup
    obtain rfl := hleads.eq_of_plain hnames
    exact ⟨⟨content, hfind⟩, (Except.ok.inj hcleared).symm⟩

/-- A tree stays one if a file is taken away. -/
theorem IsTree.removeFile (h : d.IsTree) (hnames : ∀ name ∈ names, IsPlain name)
    (hremove : d.removeFile (d.pathOf (keyOf names)) = .ok d') : d'.IsTree := by
  obtain ⟨-, rfl⟩ := file_of_removeFile hnames hremove
  exact h.clear names true

/-- A file that is taken away is listed no more, and otherwise the same files are. -/
theorem mem_filesBelow_removeFile (h : d.IsTree) (hnames : ∀ name ∈ names, IsPlain name)
    (hremove : d.removeFile (d.pathOf (keyOf names)) = .ok d') {dir other : List String} :
    other ∈ d'.filesBelow dir ↔ other ∈ d.filesBelow dir ∧ other ≠ names := by
  obtain ⟨⟨content, hfile⟩, rfl⟩ := file_of_removeFile hnames hremove
  rw [mem_filesBelow, mem_filesBelow]
  constructor
  · rintro ⟨key, found, hget, rfl, hbelow⟩
    obtain ⟨hold, -, hne⟩ := get?_clear_iff.1 hget
    exact ⟨⟨key, found, hold, rfl, hbelow⟩, hne rfl⟩
  · rintro ⟨⟨key, found, hold, rfl, hbelow⟩, hne⟩
    refine ⟨key, found, get?_clear_iff.2 ⟨hold, ?_, fun _ => hne⟩, rfl, hbelow⟩
    -- there is nothing below a file
    rw [Bool.eq_false_iff, Ne, isBelow_iff]
    rintro ⟨-, hprefix⟩
    have hplain : ∀ name ∈ namesOf key, IsPlain name :=
      fun name hname => (h.name hold name hname).1
    have hkey := (h.key hold).2
    rw [hkey] at hold
    have hdirectory := h.find?_of_prefix hplain hold hprefix hne.symm
    rw [hfile] at hdirectory
    nomatch hdirectory

end

/-! ## Files that get other names -/

section
variable {names target : List String}

/-- A file gets another path: it is taken away, and written with its content under that path. -/
theorem exists_of_renameFile {old new : String} (hrename : d.renameFile old new = .ok d') :
    ∃ content d₁, d.removeFile old = .ok d₁ ∧ d₁.write new content = .ok d' := by
  unfold renameFile at hrename
  obtain ⟨content, -, hrename⟩ := exists_of_bind_eq_ok hrename
  obtain ⟨d₁, hremove, hwrite⟩ := exists_of_bind_eq_ok hrename
  exact ⟨content, d₁, hremove, hwrite⟩

theorem root_of_renameFile {old new : String} (hrename : d.renameFile old new = .ok d') :
    d'.root = d.root := by
  obtain ⟨content, d₁, hremove, hwrite⟩ := exists_of_renameFile hrename
  exact (write_grows hwrite).root.trans (removeFile_grows hremove).root.symm

theorem pathOf_of_removeFile {d₁ : Disk} {path : String} (hremove : d.removeFile path = .ok d₁)
    (key : String) : d.pathOf key = d₁.pathOf key := by
  rw [pathOf, pathOf, (removeFile_grows hremove).root]

/-- A tree stays one if a file gets another name. -/
theorem IsTree.renameFile (h : d.IsTree) (hnames : ∀ name ∈ names, IsPlain name)
    (htarget : ∀ name ∈ target, IsPlain name)
    (hrename : d.renameFile (d.pathOf (keyOf names)) (d.pathOf (keyOf target)) = .ok d') :
    d'.IsTree := by
  obtain ⟨content, d₁, hremove, hwrite⟩ := exists_of_renameFile hrename
  rw [pathOf_of_removeFile hremove] at hwrite
  exact (h.removeFile hnames hremove).write htarget hwrite

/-- A file that gets another name is listed under this one, and otherwise the same files are. -/
theorem mem_filesBelow_renameFile (h : d.IsTree) (hnames : ∀ name ∈ names, IsPlain name)
    (htarget : ∀ name ∈ target, IsPlain name)
    (hrename : d.renameFile (d.pathOf (keyOf names)) (d.pathOf (keyOf target)) = .ok d')
    {dir other : List String} :
    other ∈ d'.filesBelow dir ↔
      other ∈ d.filesBelow dir ∧ other ≠ names ∨ other = target ∧ isBelow target dir = true := by
  obtain ⟨content, d₁, hremove, hwrite⟩ := exists_of_renameFile hrename
  rw [pathOf_of_removeFile hremove] at hwrite
  rw [mem_filesBelow_write (h.removeFile hnames hremove) htarget hwrite,
    mem_filesBelow_removeFile h hnames hremove]

end

end

end Waymark.Disk
