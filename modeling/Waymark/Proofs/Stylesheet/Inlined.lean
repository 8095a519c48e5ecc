import Mathlib.Data.Finset.Card
import Waymark.Proofs.Specifier.RequestPath
import Waymark.Stylesheet.Bundle
/-!
# Sheets that are put in

The run of putting the imports of a sheet in, rule by rule, without a bound on its depth,
together with the sheets that are read in it.  The bound with which sheets are bundled is
never reached: a sheet is only read if no sheet of its name was met before, so each level
of the walk leaves one file less that could still be read.

## Main results

* `Inlines.seen` — the sheets met in a run are those that were read, and those met before it.
* `Inlines.nodup` — no sheet is read twice in a run, and none that was met before it.
* `exists_inlines` — with a bound above the number of files that are not met yet, putting imports
  in is such a run.
-/

namespace Waymark.Stylesheet

open Specifier (IsCanonical)

variable {ε : Type} {read : Specifier → Except ε String}

/-! ## Imported sheets -/

/-- The sheet a rule names is named by a clean path, whoever imports it. -/
theorem isCanonical_resolveImport (importer : Specifier) (href : List Char) :
    IsCanonical (resolveImport importer href) := by
  unfold resolveImport
  split
  · exact ⟨_, rfl⟩
  · exact ⟨_, rfl⟩

@[simp] theorem seen_report (m : Met) (s : Specifier) : (m.report s).seen = m.seen := by
  unfold Met.report
  split <;> rfl

@[simp] theorem seen_visit (m : Met) (s : Specifier) : (m.visit s).seen = s :: m.seen := rfl

@[simp] theorem deps_visit (m : Met) (s : Specifier) : (m.visit s).deps = m.deps := rfl

/-! ## Runs -/

/-- What the pieces behind a text come to, with the text in front. -/
def prepend (front : List Char) (behind : List Char × Met) : List Char × Met :=
  (front ++ behind.1, behind.2)

/-- The pieces of a sheet are gone through from what was met before: these sheets are read for it,
in this order, and this comes of it. -/
inductive Inlines (read : Specifier → Except ε String) :
    Specifier → List Piece → Met → List Specifier →
      Except (ReadError ε) (List Char × Met) → Prop where
  | nil {importer : Specifier} {m : Met} : Inlines read importer [] m [] (.ok ([], m))
  | char {importer : Specifier} {c : Char} {ps : List Piece} {m : Met} {reads : List Specifier}
      {result : Except (ReadError ε) (List Char × Met)}
      (rest : Inlines read importer ps m reads result) :
      Inlines read importer (.char c :: ps) m reads (result.map (prepend [c]))
  | stays {importer : Specifier} {r : ImportRule} {ps : List Piece} {m : Met}
      {reads : List Specifier} {result : Except (ReadError ε) (List Char × Met)}
      (hstays : staysImported importer r.href = true)
      (rest : Inlines read importer ps m reads result) :
      Inlines read importer (.rule r :: ps) m reads (result.map (prepend r.text))
  /-- A sheet that was met before is reported, and the rule vanishes. -/
  | again {importer : Specifier} {r : ImportRule} {ps : List Piece} {m : Met}
      {reads : List Specifier} {result : Except (ReadError ε) (List Char × Met)}
      (hlocal : staysImported importer r.href = false)
      (hseen : resolveImport importer r.href ∈ m.seen)
      (rest : Inlines read importer ps (m.report (resolveImport importer r.href)) reads result) :
      Inlines read importer (.rule r :: ps) m reads result
  | unread {importer : Specifier} {r : ImportRule} {ps : List Piece} {m : Met} {cause : ε}
      (hlocal : staysImported importer r.href = false)
      (hnew : resolveImport importer r.href ∉ m.seen)
      (hread : read (resolveImport importer r.href) = .error cause) :
      Inlines read importer (.rule r :: ps) m [resolveImport importer r.href]
        (.error ⟨resolveImport importer r.href, cause⟩)
  /-- A sheet is read, but one that it imports, in turn, cannot be. -/
  | fails {importer : Specifier} {r : ImportRule} {ps : List Piece} {m : Met} {text : String}
      {reads : List Specifier} {e : ReadError ε}
      (hlocal : staysImported importer r.href = false)
      (hnew : resolveImport importer r.href ∉ m.seen)
      (hread : read (resolveImport importer r.href) = .ok text)
      (inner : Inlines read (resolveImport importer r.href) (rules text.toList)
        ((m.report (resolveImport importer r.href)).visit (resolveImport importer r.href)) reads
        (.error e)) :
      Inlines read importer (.rule r :: ps) m (resolveImport importer r.href :: reads) (.error e)
  /-- The text of a sheet is put in place of the rule. -/
  | puts {importer : Specifier} {r : ImportRule} {ps : List Piece} {m m' : Met} {text : String}
      {front : List Char} {reads more : List Specifier}
      {result : Except (ReadError ε) (List Char × Met)}
      (hlocal : staysImported importer r.href = false)
      (hnew : resolveImport importer r.href ∉ m.seen)
      (hread : read (resolveImport importer r.href) = .ok text)
      (inner : Inlines read (resolveImport importer r.href) (rules text.toList)
        ((m.report (resolveImport importer r.href)).visit (resolveImport importer r.href)) reads
        (.ok (front, m')))
      (rest : Inlines read importer ps m' more result) :
      Inlines read importer (.rule r :: ps) m (resolveImport importer r.href :: (reads ++ more))
        (result.map (prepend front))

theorem exists_of_map_prepend {result : Except (ReadError ε) (List Char × Met)}
    {front text : List Char} {m : Met} (h : result.map (prepend front) = .ok (text, m)) :
    ∃ behind, result = .ok (behind, m) ∧ text = front ++ behind := by
  cases result with
  | error e => nomatch h
  | ok behind =>
    obtain ⟨rfl, rfl⟩ := Prod.mk.inj (Except.ok.inj h)
    exact ⟨behind.1, rfl, rfl⟩

theorem eq_of_map_prepend {result : Except (ReadError ε) (List Char × Met)} {front : List Char}
    {e : ReadError ε} (h : result.map (prepend front) = .error e) : result = .error e := by
  cases result with
  | error e' => exact congrArg _ (Except.error.inj h)
  | ok behind => nomatch h

/-- The sheets met in a run are those that were read in it, the last one first, and those met
before. -/
theorem Inlines.seen {importer : Specifier} {ps : List Piece} {m m' : Met}
    {reads : List Specifier} {text : List Char}
    (h : Inlines read importer ps m reads (.ok (text, m'))) :
    m'.seen = reads.reverse ++ m.seen := by
  generalize hresult : Except.ok (text, m') = result at h
  induction h generalizing text m' with
  | nil => rw [(Prod.mk.inj (Except.ok.inj hresult)).2]; rfl
  | char rest ih =>
    obtain ⟨behind, hbehind, -⟩ := exists_of_map_prepend hresult.symm
    exact ih hbehind.symm
  | stays _ rest ih =>
    obtain ⟨behind, hbehind, -⟩ := exists_of_map_prepend hresult.symm
    exact ih hbehind.symm
  | again _ _ rest ih => simpa using ih hresult
  | unread => nomatch hresult
  | fails => nomatch hresult
  | puts _ _ _ inner rest ihinner ihrest =>
    obtain ⟨behind, hbehind, -⟩ := exists_of_map_prepend hresult.symm
    rw [ihrest hbehind.symm, ihinner rfl]
    simp

/-- No sheet is read twice in a run, and none that was met before. -/
theorem Inlines.nodup {importer : Specifier} {ps : List Piece} {m : Met} {reads : List Specifier}
    {result : Except (ReadError ε) (List Char × Met)}
    (h : Inlines read importer ps m reads result) :
    reads.Nodup ∧ ∀ s ∈ reads, s ∉ m.seen := by
  induction h with
  | nil => simp
  | char rest ih => exact ih
  | stays _ rest ih => exact ih
  | again _ _ rest ih => simpa using ih
  | unread _ hnew => simpa using hnew
  | fails _ hnew _ inner ih =>
    simp only [seen_visit, seen_report, List.mem_cons, not_or] at ih
    refine ⟨List.nodup_cons.2 ⟨fun hmem => (ih.2 _ hmem).1 rfl, ih.1⟩, ?_⟩
    intro s hs
    rcases List.mem_cons.1 hs with rfl | hs
    · exact hnew
    · exact (ih.2 s hs).2
  | @puts importer r ps m m' text front reads more result _ hnew _ inner rest ihinner ihrest =>
    have hseen := inner.seen
    rw [seen_visit, seen_report] at hseen
    simp only [seen_visit, seen_report, List.mem_cons, not_or] at ihinner
    -- what is read later was not met up to then
    have hlater : ∀ s ∈ more, s ∉ reads ∧ s ≠ resolveImport importer r.href ∧ s ∉ m.seen := by
      intro s hs
      have hnot := ihrest.2 s hs
      rw [hseen] at hnot
      simpa [not_or] using hnot
    constructor
    · rw [List.nodup_cons, List.nodup_append]
      refine ⟨?_, ihinner.1, ihrest.1, ?_⟩
      · intro hmem
        rcases List.mem_append.1 hmem with hmem | hmem
        · exact (ihinner.2 _ hmem).1 rfl
        · exact (hlater _ hmem).2.1 rfl
      · rintro s hs t ht rfl
        exact (hlater s ht).1 hs
    · intro s hs
      rcases List.mem_cons.1 hs with rfl | hs
      · exact hnew
      rcases List.mem_append.1 hs with hs | hs
      · exact (ihinner.2 s hs).2
      · exact (hlater s hs).2.2

/-- Only sheets that are named by clean paths are read. -/
theorem Inlines.isCanonical {importer : Specifier} {ps : List Piece} {m : Met}
    {reads : List Specifier} {result : Except (ReadError ε) (List Char × Met)}
    (h : Inlines read importer ps m reads result) : ∀ s ∈ reads, IsCanonical s := by
  induction h with
  | nil => simp
  | char rest ih => exact ih
  | stays _ rest ih => exact ih
  | again _ _ rest ih => exact ih
  | unread =>
    intro s hs
    exact List.mem_singleton.1 hs ▸ isCanonical_resolveImport _ _
  | fails _ _ _ inner ih =>
    intro s hs
    rcases List.mem_cons.1 hs with rfl | hs
    · exact isCanonical_resolveImport _ _
    · exact ih s hs
  | puts _ _ _ inner rest ihinner ihrest =>
    intro s hs
    rcases List.mem_cons.1 hs with rfl | hs
    · exact isCanonical_resolveImport _ _
    rcases List.mem_append.1 hs with hs | hs
    · exact ihinner s hs
    · exact ihrest s hs

/-! ## The bound -/

/-- The files that have not been met yet. -/
def unmet (files : Finset Specifier) (m : Met) : Finset Specifier := files.filter (· ∉ m.seen)

theorem card_unmet_visit {files : Finset Specifier} {m : Met} {s : Specifier} (hs : s ∈ files)
    (hnew : s ∉ m.seen) : (unmet files ((m.report s).visit s)).card < (unmet files m).card := by
  apply Finset.card_lt_card
  refine Finset.ssubset_iff_subset_ne.2 ⟨?_, ?_⟩
  · intro t ht
    simp only [unmet, seen_visit, seen_report, List.mem_cons, not_or, Finset.mem_filter] at ht ⊢
    exact ⟨ht.1, ht.2.2⟩
  · intro heq
    have hmem : s ∈ unmet files m := Finset.mem_filter.2 ⟨hs, hnew⟩
    rw [← heq] at hmem
    simp [unmet] at hmem

theorem card_unmet_le {files : Finset Specifier} {m m' : Met} (h : ∀ s ∈ m.seen, s ∈ m'.seen) :
    (unmet files m').card ≤ (unmet files m).card := by
  apply Finset.card_le_card
  intro s hs
  obtain ⟨hfile, hnot⟩ := Finset.mem_filter.1 hs
  exact Finset.mem_filter.2 ⟨hfile, fun hseen => hnot (h s hseen)⟩

/-- The pieces of a sheet, where the sheets that it imports are gone through in a run as long as
few enough files are left. -/
theorem exists_inlines_pieces {files : Finset Specifier} {depth : Nat}
    (hfiles : ∀ s text, IsCanonical s → read s = .ok text → s ∈ files)
    (hinner : ∀ s text m, (unmet files m).card < depth →
      ∃ reads, Inlines read s (rules text) m reads (inline read depth s text m))
    (importer : Specifier) (ps : List Piece) (m : Met) (hm : (unmet files m).card ≤ depth) :
    ∃ reads, Inlines read importer ps m reads
      (inlinePieces (fun dep m =>
        match read dep with
        | .ok text => inline read depth dep text.toList m
        | .error cause => .error ⟨dep, cause⟩) importer ps m) := by
  induction ps generalizing m with
  | nil => exact ⟨[], .nil⟩
  | cons piece ps ih =>
    cases piece with
    | char c =>
      obtain ⟨reads, hrest⟩ := ih m hm
      refine ⟨reads, ?_⟩
      have hchar := hrest.char (c := c)
      unfold inlinePieces
      generalize inlinePieces _ importer ps m = result at hchar ⊢
      cases result with
      | error e => exact hchar
      | ok behind => exact hchar
    | rule r =>
      unfold inlinePieces
      cases hstays : staysImported importer r.href with
      | true =>
        obtain ⟨reads, hrest⟩ := ih m hm
        refine ⟨reads, ?_⟩
        have hkept := hrest.stays hstays
        rw [if_pos rfl]
        generalize inlinePieces _ importer ps m = result at hkept ⊢
        cases result with
        | error e => exact hkept
        | ok behind => exact hkept
      | false =>
        rw [if_neg Bool.false_ne_true]
        dsimp only
        by_cases hseen : resolveImport importer r.href ∈ m.seen
        · have hsame : unmet files (m.report (resolveImport importer r.href)) = unmet files m := by
            simp [unmet]
          obtain ⟨reads, hrest⟩ := ih (m.report (resolveImport importer r.href)) (hsame ▸ hm)
          rw [if_pos (by simpa using hseen)]
          exact ⟨reads, hrest.again hstays hseen⟩
        · rw [if_neg (by simpa using hseen)]
          cases hread : read (resolveImport importer r.href) with
          | error cause => exact ⟨_, .unread hstays hseen hread⟩
          | ok text =>
            have hfile := hfiles _ text (isCanonical_resolveImport importer r.href) hread
            obtain ⟨reads, hdep⟩ := hinner (resolveImport importer r.href) text.toList _
              ((card_unmet_visit hfile hseen).trans_le hm)
            dsimp only
            generalize inline read depth _ text.toList _ = result at hdep ⊢
            cases result with
            | error e => exact ⟨_, hdep.fails hstays hseen hread⟩
            | ok behind =>
              obtain ⟨front, m'⟩ := behind
              have hgrown : ∀ s ∈ m.seen, s ∈ m'.seen := by
                intro s hs
                rw [hdep.seen]
                simp [hs]
              obtain ⟨more, hrest⟩ := ih m' ((card_unmet_le hgrown).trans hm)
              refine ⟨resolveImport importer r.href :: (reads ++ more), ?_⟩
              have hputs := hdep.puts hstays hseen hread hrest
              dsimp only [Bind.bind, Except.bind]
              generalize inlinePieces _ importer ps m' = result at hputs ⊢
              cases result with
              | error e => exact hputs
              | ok behind => exact hputs

/-- Where there are fewer files left than the bound, it is not reached. -/
theorem exists_inlines {files : Finset Specifier}
    (hfiles : ∀ s text, IsCanonical s → read s = .ok text → s ∈ files) (depth : Nat)
    (importer : Specifier) (source : List Char) (m : Met) (hm : (unmet files m).card < depth) :
    ∃ reads,
      Inlines read importer (rules source) m reads (inline read depth importer source m) := by
  induction depth generalizing importer source m with
  | zero => exact absurd hm (Nat.not_lt_zero _)
  | succ depth ih =>
    exact exists_inlines_pieces hfiles (fun s text m hm => ih s text m hm) importer (rules source) m
      (Nat.le_of_lt_succ hm)

end Waymark.Stylesheet
