import Mathlib.Data.Finset.Dedup
import Waymark.Pipeline
import Waymark.Proofs.Disk.Writing
import Waymark.Proofs.Route.Base
import Waymark.Proofs.Stylesheet.ImportTree
/-!
# Sheets bundled from a disk

A sheet that can be read is a file of the disk, so there are no more of them than files, and
the bound with which a sheet is bundled is never reached.  What is reported of the run is what
the tree of imports lists: either some sheet in it cannot be read, and the first of them is the
error, or all can be read and are reported where they first stand.

The sheet that is bundled was met when the run begins.  It may stand in the tree, and is
reported then, but it is not read for being there.

## Main results

* `mem_sheets` — a sheet that can be read is a file of the disk.
* `bundleSheet_lists` — what is read for a bundle, and what is reported with it.
-/

namespace Waymark

open Specifier (IsCanonical)

/-! ## Sheets on a disk -/

namespace Disk

/-- The sheets that files of the disk could be imported as. -/
def sheets (d : Disk) : Finset Specifier :=
  ((d.entries.entries.filter fun e => match e.2 with | .file _ => true | .directory => false).map
    fun e => "./" ++ e.1).toFinset

theorem card_sheets_le (d : Disk) : d.sheets.card ≤ d.fileCount :=
  (List.toFinset_card_le _).trans_eq (List.length_map _)

/-- A sheet that can be read is a file of the disk. -/
theorem mem_sheets {d : Disk} {s : Specifier} {text : String} (hs : IsCanonical s)
    (hread : Pipeline.readSheet d s = .ok text) : s ∈ d.sheets := by
  obtain ⟨path, rfl⟩ := hs
  obtain ⟨hspec, hrelative, hplain⟩ := RouteFiles.fileSpecifier_of_clean path
  generalize (Specifier.cleanSegments path.toList).map String.ofList = names at *
  rw [Pipeline.readSheet, hrelative] at hread
  obtain ⟨content, hfind⟩ := find?_of_readText hplain hread
  have hmem : (keyOf names, DiskEntry.file content) ∈ d.entries.entries := by
    rw [Dict.mem_entries_iff]
    unfold find? at hfind
    split at hfind
    · nomatch hfind
    · exact hfind
  rw [hspec]
  exact List.mem_toFinset.2 (List.mem_map.2 ⟨_, List.mem_filter.2 ⟨hmem, rfl⟩, rfl⟩)

/-- Sheets that are read by one path are the same. -/
theorem eq_of_pathOf {d : Disk} {s t : Specifier} (hs : IsCanonical s) (ht : IsCanonical t)
    (h : d.pathOf (Specifier.relativePath s) = d.pathOf (Specifier.relativePath t)) : s = t := by
  obtain ⟨path, rfl⟩ := hs
  obtain ⟨path', rfl⟩ := ht
  obtain ⟨hspec, hrelative, hplain⟩ := RouteFiles.fileSpecifier_of_clean path
  obtain ⟨hspec', hrelative', hplain'⟩ := RouteFiles.fileSpecifier_of_clean path'
  have hentrance := congrArg d.entrance? h
  rw [hrelative, hrelative', entrance?_pathOf d fun name hname => (hplain name hname).toIsName,
    entrance?_pathOf d fun name hname => (hplain' name hname).toIsName] at hentrance
  rw [hspec, hspec', (Prod.mk.inj (Option.some.inj hentrance)).2]

end Disk

/-! ## The tree of a bundle -/

namespace Stylesheet

variable {ε : Type}

/-- The sheets of a tree up to the first that cannot be read, with this one. -/
def upToUnread (read : Specifier → Except ε String) (entry : Specifier) :
    List Specifier → List Specifier
  | [] => []
  | s :: tree =>
    if s = entry then s :: upToUnread read entry tree
    else match read s with
      | .ok _ => s :: upToUnread read entry tree
      | .error _ => [s]

/-- The first sheet of a tree that cannot be read.  The sheet that is bundled need not be read. -/
def unread? (read : Specifier → Except ε String) (entry : Specifier) :
    List Specifier → Option (ReadError ε)
  | [] => none
  | s :: tree =>
    if s = entry then unread? read entry tree
    else match read s with
      | .ok _ => unread? read entry tree
      | .error cause => some ⟨s, cause⟩

section
variable {read : Specifier → Except ε String} {entry : Specifier} {before : List Specifier}

theorem unread?_append (h : ∀ s ∈ before, CanBeMet read [entry] s) (tree : List Specifier) :
    unread? read entry (before ++ tree) = unread? read entry tree ∧
      upToUnread read entry (before ++ tree) = before ++ upToUnread read entry tree := by
  induction before with
  | nil => exact ⟨rfl, rfl⟩
  | cons s before ih =>
    obtain ⟨hunread, hupTo⟩ := ih fun t ht => h t (List.mem_cons_of_mem _ ht)
    rw [List.cons_append, unread?, upToUnread]
    by_cases hs : s = entry
    · rw [if_pos hs, if_pos hs, hunread, hupTo]
      exact ⟨rfl, rfl⟩
    · obtain ⟨text, hread⟩ := (h s (List.mem_cons_self ..)).resolve_left
        (by simpa using hs)
      rw [if_neg hs, if_neg hs, hread]
      exact ⟨hunread, congrArg _ hupTo⟩

theorem unread?_cons_of_error {s : Specifier} {cause : ε} (hs : s ≠ entry)
    (hread : read s = .error cause) (tree : List Specifier) :
    unread? read entry (s :: tree) = some ⟨s, cause⟩ ∧
      upToUnread read entry (s :: tree) = [s] := by
  rw [unread?, upToUnread, if_neg hs, if_neg hs, hread]
  exact ⟨rfl, rfl⟩

end

end Stylesheet

namespace Pipeline

open Stylesheet

/-- The tree of the imports of a sheet that is bundled. -/
def sheetTree (d : Disk) (s : Specifier) (source : String) : List Specifier :=
  importTree (readSheet d) (d.sheets.erase (Specifier.stripQuery s))
    (importsOf s (rules source.toList))

/-- The bound with which a sheet is bundled is not reached. -/
theorem exists_inlines_start (d : Disk) (s : Specifier) (source : String) :
    ∃ reads,
      Inlines (readSheet d) s (rules source.toList) ⟨[Specifier.stripQuery s], []⟩ reads
        (inline (readSheet d) (d.fileCount + 1) s source.toList
          ⟨[Specifier.stripQuery s], []⟩) :=
  exists_inlines (fun _ _ => Disk.mem_sheets) (d.fileCount + 1) s source.toList
    ⟨[Specifier.stripQuery s], []⟩
    (Nat.lt_succ_of_le ((Finset.card_filter_le _ _).trans d.card_sheets_le))

theorem map_deps_bundleSheet (d : Disk) (options : Options) (s : Specifier) (source : String) :
    (bundleSheet d options s source).map Output.deps =
      match inline (readSheet d) (d.fileCount + 1) s source.toList
          ⟨[Specifier.stripQuery s], []⟩ with
      | .ok (_, m) => .ok m.deps
      | .error e => .error (.unreadable e.specifier e.cause) := by
  unfold bundleSheet bundle
  dsimp only
  cases inline (readSheet d) (d.fileCount + 1) s source.toList ⟨[Specifier.stripQuery s], []⟩ with
  | error e => rfl
  | ok behind => rfl

/-- When a run begins, nothing is settled but that each sheet is a file or the one that is
bundled. -/
theorem settled_start (d : Disk) (entry : Specifier) :
    Settled (readSheet d) (d.sheets.erase entry) ⟨[entry], []⟩ := by
  constructor
  · intro s hs hmem
    rw [List.mem_singleton.1 hs] at hmem
    exact absurd hmem (Finset.notMem_erase _ _)
  · intro s hs
    nomatch hs
  · intro s text hs hread
    by_cases heq : s = entry
    · exact Or.inr (List.mem_singleton.2 heq)
    · exact Or.inl (Finset.mem_erase.2 ⟨heq, Disk.mem_sheets hs hread⟩)

/-- A sheet is bundled in a run without a bound that reads no file twice and not the sheet that is
bundled.  If some sheet of its tree of imports cannot be read, the first of them is the error;
otherwise the sheets of the tree are reported where they first stand. -/
theorem bundleSheet_lists (d : Disk) (options : Options) (s : Specifier) (source : String) :
    ∃ reads,
      Inlines (readSheet d) s (rules source.toList) ⟨[Specifier.stripQuery s], []⟩ reads
        (inline (readSheet d) (d.fileCount + 1) s source.toList
          ⟨[Specifier.stripQuery s], []⟩) ∧
      (reads.map fun t => d.pathOf (Specifier.relativePath t)).Nodup ∧
      Specifier.stripQuery s ∉ reads ∧
      reads = fresh [Specifier.stripQuery s]
        (upToUnread (readSheet d) (Specifier.stripQuery s) (sheetTree d s source)) ∧
      (bundleSheet d options s source).map Output.deps =
        match unread? (readSheet d) (Specifier.stripQuery s) (sheetTree d s source) with
        | none => .ok (sheetTree d s source).eraseDups
        | some e => .error (.unreadable e.specifier e.cause) := by
  obtain ⟨reads, hrun⟩ := exists_inlines_start d s source
  obtain ⟨hnodup, hunmet⟩ := hrun.nodup
  have hpaths : (reads.map fun t => d.pathOf (Specifier.relativePath t)).Nodup :=
    hnodup.map_on fun _ ht _ hu => Disk.eq_of_pathOf (hrun.isCanonical _ ht) (hrun.isCanonical _ hu)
  have hsettled := settled_start d (Specifier.stripQuery s)
  refine ⟨reads, hrun, hpaths, fun hmem => hunmet _ hmem (List.mem_singleton_self _), ?_⟩
  cases hresult : inline (readSheet d) (d.fileCount + 1) s source.toList
      ⟨[Specifier.stripQuery s], []⟩ with
  | ok behind =>
    rw [map_deps_bundleSheet, hresult]
    rw [hresult] at hrun
    obtain ⟨-, hdeps, hreads, hmet⟩ := hrun.lists hsettled
    obtain ⟨hunread, hupTo⟩ := unread?_append hmet []
    rw [List.append_nil] at hunread hupTo
    rw [sheetTree, hunread, hupTo, unread?, upToUnread, List.append_nil]
    refine ⟨hreads, ?_⟩
    dsimp only
    rw [hdeps, List.nil_append, fresh_unseen]
  | error e =>
    rw [map_deps_bundleSheet, hresult]
    rw [hresult] at hrun
    obtain ⟨before, after, htree, hbefore, hnew, hread, hreads⟩ := hrun.stops hsettled
    obtain ⟨hunread, hupTo⟩ := unread?_append hbefore (e.specifier :: after)
    obtain ⟨hfirst, hlast⟩ :=
      unread?_cons_of_error (fun h => hnew (List.mem_singleton.2 h)) hread after
    rw [sheetTree, htree, hunread, hupTo, hfirst, hlast]
    exact ⟨hreads, rfl⟩

end Pipeline
end Waymark
