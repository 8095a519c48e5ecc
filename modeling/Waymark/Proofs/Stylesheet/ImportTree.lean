import Mathlib.Data.Finset.Erase
import Waymark.Proofs.Stylesheet.Inlined
/-!
# The order in which sheets are met

The imports of a sheet make a tree: below each imported sheet stand those that it imports,
down to where a chain of imports comes back to a sheet that is on it, or to one that cannot
be read.  A walk that keeps no memory but of the chain it is on lists this tree, with many
sheets in many places.  The walk that bundles a sheet remembers all that it has met, goes
into each sheet once, and yet it meets the sheets in the order in which they first stand in
the tree: below a sheet that was left there is nothing that it has not met.

## Main results

* `importTree_subset` — below sheets whose imports were all met, all was met.
* `Inlines.lists` — a run that ends well reports what is new in the tree, and reads it.
* `Inlines.stops` — one that fails ends at the first sheet of the tree that cannot be read.
-/

namespace Waymark.Stylesheet

open Specifier (IsCanonical)

/-! ## First occurrences -/

section
variable {α : Type} [DecidableEq α] {seen : List α}

/-- What is in a list and was not seen before, each once where it first stands. -/
def fresh (seen l : List α) : List α := (l.filter (· ∉ seen)).eraseDups

@[simp] theorem fresh_nil (seen : List α) : fresh seen [] = [] := rfl

theorem fresh_unseen (l : List α) : fresh [] l = l.eraseDups := by simp [fresh]

@[simp] theorem mem_fresh {l : List α} {x : α} : x ∈ fresh seen l ↔ x ∈ l ∧ x ∉ seen := by
  simp [fresh]

theorem fresh_cons_of_mem {x : α} (l : List α) (h : x ∈ seen) :
    fresh seen (x :: l) = fresh seen l := by
  simp [fresh, h]

theorem fresh_cons_of_notMem {x : α} (l : List α) (h : x ∉ seen) :
    fresh seen (x :: l) = x :: fresh (x :: seen) l := by
  have hfilter : (l.filter (· ∉ seen)).filter (fun y => !y == x) = l.filter (· ∉ x :: seen) := by
    rw [List.filter_filter]
    apply List.filter_congr
    intro y _
    by_cases hy : y = x <;> simp [hy]
  rw [fresh, List.filter_cons_of_pos (by simpa using h), List.eraseDups_cons, hfilter]
  rfl

theorem fresh_append (seen l l' : List α) :
    fresh seen (l ++ l') = fresh seen l ++ fresh (fresh seen l ++ seen) l' := by
  have hrest : (l'.filter (· ∉ seen)).removeAll (l.filter (· ∉ seen)) =
      l'.filter (· ∉ fresh seen l ++ seen) := by
    rw [List.removeAll, List.filter_filter]
    apply List.filter_congr
    intro y _
    by_cases hy : y ∈ seen <;> simp [hy]
  rw [fresh, List.filter_append, List.eraseDups_append, hrest]
  rfl

theorem fresh_congr {seen' : List α} (l : List α) (h : ∀ x, x ∈ seen ↔ x ∈ seen') :
    fresh seen l = fresh seen' l := by
  simp [fresh, h]

theorem fresh_of_subset {l : List α} (h : ∀ x ∈ l, x ∈ seen) : fresh seen l = [] := by
  have hnone : l.filter (· ∉ seen) = [] := by simpa using h
  rw [fresh, hnone, List.eraseDups_nil]

theorem fresh_append_of_subset {l : List α} (l' : List α) (h : ∀ x ∈ l, x ∈ seen) :
    fresh seen (l ++ l') = fresh seen l' := by
  rw [fresh_append, fresh_of_subset h, List.nil_append, List.nil_append]

end

variable {ε : Type} {read : Specifier → Except ε String} {files : Finset Specifier}

/-! ## Trees of imports -/

/-- The local sheets that the pieces of a sheet import, in order. -/
def importsOf (importer : Specifier) (ps : List Piece) : List Specifier :=
  ps.filterMap fun
    | .char _ => none
    | .rule r =>
      if staysImported importer r.href then none else some (resolveImport importer r.href)

/-- The sheets that a sheet imports; none if it cannot be read. -/
def sheetImports (read : Specifier → Except ε String) (s : Specifier) : List Specifier :=
  match read s with
  | .ok text => importsOf s (rules text.toList)
  | .error _ => []

/-- Imported sheets and, below each of them, those that it imports.  `files` are the sheets that
are not on the chain of imports so far. -/
def importTree (read : Specifier → Except ε String) (files : Finset Specifier)
    (imports : List Specifier) : List Specifier :=
  imports.flatMap fun s =>
    s :: if _h : s ∈ files then importTree read (files.erase s) (sheetImports read s) else []
termination_by files.card
decreasing_by exact Finset.card_erase_lt_of_mem _h

/-- What stands below a sheet of the tree. -/
def treeBelow (read : Specifier → Except ε String) (files : Finset Specifier) (s : Specifier) :
    List Specifier :=
  if s ∈ files then importTree read (files.erase s) (sheetImports read s) else []

@[simp] theorem importTree_nil : importTree read files [] = [] := by
  rw [importTree]
  rfl

theorem importTree_cons (s : Specifier) (imports : List Specifier) :
    importTree read files (s :: imports) =
      s :: (treeBelow read files s ++ importTree read files imports) := by
  rw [importTree, List.flatMap_cons, ← importTree]
  rfl

/-! ## What was met -/

/-- What was met is settled, but for the sheets on the chain, which are not among `files`: all that
the others import was met as well. -/
structure Settled (read : Specifier → Except ε String) (files : Finset Specifier) (m : Met) :
    Prop where
  imports : ∀ s ∈ m.seen, s ∈ files → ∀ t ∈ sheetImports read s, t ∈ m.deps
  seen : ∀ s ∈ m.deps, s ∈ m.seen
  covers : ∀ s text, IsCanonical s → read s = .ok text → s ∈ files ∨ s ∈ m.seen

theorem mem_deps_report {m : Met} {s t : Specifier} :
    t ∈ (m.report s).deps ↔ t ∈ m.deps ∨ t = s := by
  unfold Met.report
  split
  · rename_i hs
    exact ⟨Or.inl, fun h => h.elim id fun heq => heq ▸ hs⟩
  · simp

/-- Reporting a sheet first changes nothing of what is reported in the end. -/
theorem deps_append_fresh_cons (m : Met) (s : Specifier) (l : List Specifier) :
    m.deps ++ fresh m.deps (s :: l) = (m.report s).deps ++ fresh (m.report s).deps l := by
  unfold Met.report
  split
  · rename_i hs
    rw [fresh_cons_of_mem l hs]
  · rename_i hs
    rw [fresh_cons_of_notMem l hs, List.append_assoc]
    exact congrArg _ (congrArg _ (fresh_congr l (by simp [or_comm])))

/-- Below sheets whose imports were all met, all was met. -/
theorem importTree_subset {m : Met} (h : Settled read files m) {inner : Finset Specifier}
    (hinner : inner ⊆ files) {imports : List Specifier} (himports : ∀ s ∈ imports, s ∈ m.deps) :
    ∀ s ∈ importTree read inner imports, s ∈ m.deps := by
  induction inner using Finset.strongInduction generalizing imports with
  | H inner ih =>
    induction imports with
    | nil => simp
    | cons s imports ihimports =>
      have hs := himports s (List.mem_cons_self ..)
      intro t ht
      rw [importTree_cons, List.mem_cons, List.mem_append] at ht
      rcases ht with rfl | hbelow | hrest
      · exact hs
      · unfold treeBelow at hbelow
        split at hbelow
        · rename_i hmem
          exact ih _ (Finset.erase_ssubset hmem) ((Finset.erase_subset _ _).trans hinner)
            (h.imports s (h.seen s hs) (hinner hmem)) t hbelow
        · nomatch hbelow
      · exact ihimports (fun u hu => himports u (List.mem_cons_of_mem _ hu)) t hrest

variable {importer : Specifier} {m m' : Met}

/-- Below a sheet that was met and is not on the chain there is nothing new. -/
theorem Settled.treeBelow_subset (h : Settled read files m) {s : Specifier} (hs : s ∈ m.seen) :
    ∀ t ∈ treeBelow read files s, t ∈ m.deps := by
  unfold treeBelow
  split
  · rename_i hmem
    exact importTree_subset h (Finset.erase_subset _ _) (h.imports s hs hmem)
  · simp

theorem Settled.report (h : Settled read files m) {s : Specifier} (hs : s ∈ m.seen) :
    Settled read files (m.report s) := by
  constructor
  · intro t ht hmem u hu
    rw [seen_report] at ht
    exact mem_deps_report.2 (Or.inl (h.imports t ht hmem u hu))
  · intro t ht
    rw [seen_report]
    exact (mem_deps_report.1 ht).elim (h.seen t) fun heq => heq ▸ hs
  · intro t text htext hread
    rw [seen_report]
    exact h.covers t text htext hread

/-- When a sheet is gone into, it is on the chain. -/
theorem Settled.visit (h : Settled read files m) (s : Specifier) :
    Settled read (files.erase s) ((m.report s).visit s) := by
  constructor
  · intro t ht hmem u hu
    obtain ⟨hne, hmem⟩ := Finset.mem_erase.1 hmem
    rw [seen_visit, seen_report] at ht
    exact mem_deps_report.2
      (Or.inl (h.imports t ((List.mem_cons.1 ht).resolve_left hne) hmem u hu))
  · intro t ht
    rw [seen_visit, seen_report]
    exact List.mem_cons.2 ((mem_deps_report.1 ht).symm.imp_right (h.seen t))
  · intro t text htext hread
    rw [seen_visit, seen_report]
    by_cases hts : t = s
    · exact Or.inr (List.mem_cons.2 (Or.inl hts))
    · exact (h.covers t text htext hread).imp (fun hmem => Finset.mem_erase.2 ⟨hts, hmem⟩)
        (List.mem_cons_of_mem _)

/-- When it is left, all that it imports was met. -/
theorem Settled.leave {s : Specifier} (h : Settled read (files.erase s) m)
    (hs : ∀ t ∈ sheetImports read s, t ∈ m.deps) : Settled read files m := by
  refine ⟨?_, h.seen, ?_⟩
  · intro t ht hmem
    by_cases hts : t = s
    · exact hts ▸ hs
    · exact h.imports t ht (Finset.mem_erase.2 ⟨hts, hmem⟩)
  · intro t text htext hread
    exact (h.covers t text htext hread).imp_left (Finset.erase_subset _ _ ·)

theorem mem_importTree {imports : List Specifier} {s : Specifier} (h : s ∈ imports) :
    s ∈ importTree read files imports := by
  induction imports with
  | nil => nomatch h
  | cons t imports ih =>
    rw [importTree_cons]
    rcases List.mem_cons.1 h with rfl | h
    · exact List.mem_cons_self ..
    · exact List.mem_cons_of_mem _ (List.mem_append_right _ (ih h))

/-- A sheet that was met, or can be read. -/
def CanBeMet (read : Specifier → Except ε String) (seen : List Specifier) (s : Specifier) : Prop :=
  s ∈ seen ∨ ∃ text, read s = .ok text

theorem CanBeMet.of_visit {seen : List Specifier} {s t : Specifier} {text : String}
    (h : CanBeMet read (s :: seen) t) (hread : read s = .ok text) : CanBeMet read seen t := by
  rcases h with hseen | htext
  · rcases List.mem_cons.1 hseen with rfl | hseen
    · exact Or.inr ⟨text, hread⟩
    · exact Or.inl hseen
  · exact Or.inr htext

/-! ## Runs -/

theorem importsOf_cons {r : ImportRule} (ps : List Piece)
    (hlocal : staysImported importer r.href = false) :
    importsOf importer (.rule r :: ps) =
      resolveImport importer r.href :: importsOf importer ps := by
  simp [importsOf, hlocal]

/-- Below a sheet that is gone into stands what its pieces import. -/
theorem Settled.treeBelow_eq (h : Settled read files m) {s : Specifier} {source : String}
    (hs : IsCanonical s) (hnew : s ∉ m.seen) (hread : read s = .ok source) :
    treeBelow read files s =
      importTree read (files.erase s) (importsOf s (rules source.toList)) := by
  rw [treeBelow, if_pos ((h.covers s source hs hread).resolve_right hnew), sheetImports, hread]

/-- The sheets of a tree can all be met, and what is new among them is reported and read, in
order. -/
structure Lists (read : Specifier → Except ε String) (files : Finset Specifier) (m : Met)
    (tree reads : List Specifier) (m' : Met) : Prop where
  settled : Settled read files m'
  deps : m'.deps = m.deps ++ fresh m.deps tree
  reads : reads = fresh m.seen tree
  canBeMet : ∀ s ∈ tree, CanBeMet read m.seen s

/-- A sheet that was gone into is left: all below it was met, and what was new of it was reported
and read. -/
structure Left (read : Specifier → Except ε String) (files : Finset Specifier) (m : Met)
    (s : Specifier) (reads : List Specifier) (m' : Met) : Prop where
  settled : Settled read files m'
  deps : m'.deps = (m.report s).deps ++ fresh (m.report s).deps (treeBelow read files s)
  seen : m'.seen = reads.reverse ++ s :: m.seen
  reads : reads = fresh (s :: m.seen) (treeBelow read files s)
  below : ∀ t ∈ treeBelow read files s, CanBeMet read m.seen t
  met : ∀ t ∈ m'.seen, CanBeMet read m.seen t

theorem Inlines.left {s : Specifier} {source : String} {reads : List Specifier}
    {front : List Char}
    (h : Inlines read s (rules source.toList) ((m.report s).visit s) reads (.ok (front, m')))
    (hm : Settled read files m) (hs : IsCanonical s) (hnew : s ∉ m.seen)
    (hread : read s = .ok source)
    (hlists : Lists read (files.erase s) ((m.report s).visit s)
      (importTree read (files.erase s) (importsOf s (rules source.toList))) reads m') :
    Left read files m s reads m' := by
  have hbelow := hm.treeBelow_eq hs hnew hread
  obtain ⟨hsettled, hdeps, hreads, hmet⟩ := hlists
  have hseen := h.seen
  rw [← hbelow, deps_visit] at hdeps
  rw [← hbelow, seen_visit, seen_report] at hreads
  rw [← hbelow, seen_visit, seen_report] at hmet
  rw [seen_visit, seen_report] at hseen
  refine ⟨hsettled.leave fun t ht => ?_, hdeps, hseen, hreads,
    fun t ht => (hmet t ht).of_visit hread, ?_⟩
  · rw [sheetImports, hread] at ht
    rw [hdeps, List.mem_append, mem_fresh]
    exact (em (t ∈ (m.report s).deps)).imp_right fun hnot => ⟨hbelow ▸ mem_importTree ht, hnot⟩
  · intro t ht
    rw [hseen, List.mem_append, List.mem_reverse, List.mem_cons] at ht
    rcases ht with ht | rfl | ht
    · rw [hreads, mem_fresh] at ht
      exact (hmet t ht.1).of_visit hread
    · exact Or.inr ⟨source, hread⟩
    · exact Or.inl ht

/-- A run that ends well reports and reads what is new in the tree of the imports, in order, and
finds nothing in the tree that cannot be read. -/
theorem Inlines.lists {ps : List Piece} {reads : List Specifier} {text : List Char}
    (h : Inlines read importer ps m reads (.ok (text, m'))) (hm : Settled read files m) :
    Lists read files m (importTree read files (importsOf importer ps)) reads m' := by
  generalize hresult : Except.ok (text, m') = result at h
  induction h generalizing files text m' with
  | nil =>
    obtain ⟨-, rfl⟩ := Prod.mk.inj (Except.ok.inj hresult)
    exact ⟨hm, by simp [importsOf], by simp [importsOf], by simp [importsOf]⟩
  | char rest ih =>
    obtain ⟨behind, hbehind, -⟩ := exists_of_map_prepend hresult.symm
    exact ih hm hbehind.symm
  | stays hstays rest ih =>
    obtain ⟨behind, hbehind, -⟩ := exists_of_map_prepend hresult.symm
    have himports := ih hm hbehind.symm
    simpa [importsOf, hstays] using himports
  | @again importer r ps m reads result hlocal hseen rest ih =>
    obtain ⟨hsettled, hdeps, hreads, hmet⟩ := ih (hm.report hseen) hresult
    have hbelow := hm.treeBelow_subset hseen
    rw [seen_report] at hreads hmet
    rw [importsOf_cons ps hlocal, importTree_cons]
    refine ⟨hsettled, ?_, ?_, ?_⟩
    · rw [hdeps, deps_append_fresh_cons, fresh_append_of_subset _ fun t ht =>
        mem_deps_report.2 (Or.inl (hbelow t ht))]
    · rw [hreads, fresh_cons_of_mem _ hseen, fresh_append_of_subset _ fun t ht =>
        hm.seen t (hbelow t ht)]
    · intro t ht
      rw [List.mem_cons, List.mem_append] at ht
      rcases ht with rfl | ht | ht
      · exact Or.inl hseen
      · exact Or.inl (hm.seen t (hbelow t ht))
      · exact hmet t ht
  | unread => nomatch hresult
  | fails => nomatch hresult
  | @puts importer r ps m m₁ source front reads more result hlocal hnew hread inner rest ihinner
      ihrest =>
    obtain ⟨behind, hbehind, -⟩ := exists_of_map_prepend hresult.symm
    have hleft := inner.left hm (isCanonical_resolveImport importer r.href) hnew hread
      (ihinner (hm.visit _) rfl)
    obtain ⟨hsettled, hdeps, hreads, hmet⟩ := ihrest hleft.settled hbehind.symm
    rw [importsOf_cons ps hlocal, importTree_cons]
    refine ⟨hsettled, ?_, ?_, ?_⟩
    · rw [hdeps, deps_append_fresh_cons, fresh_append, ← List.append_assoc, ← hleft.deps]
      exact congrArg _ (fresh_congr _ (by simp [hleft.deps, or_comm]))
    · rw [fresh_cons_of_notMem _ hnew, fresh_append, ← hleft.reads, hreads]
      exact congrArg _ (congrArg _ (fresh_congr _ (by simp [hleft.seen])))
    · intro t ht
      rw [List.mem_cons, List.mem_append] at ht
      rcases ht with rfl | ht | ht
      · exact Or.inr ⟨source, hread⟩
      · exact hleft.below t ht
      · exact (hmet t ht).elim (hleft.met t) Or.inr

/-- A run that fails ends at the first sheet of the tree that was not met and cannot be read, and
reads what is new in the tree up to there. -/
theorem Inlines.stops {ps : List Piece} {reads : List Specifier} {e : ReadError ε}
    (h : Inlines read importer ps m reads (.error e)) (hm : Settled read files m) :
    ∃ before after,
      importTree read files (importsOf importer ps) = before ++ e.specifier :: after ∧
      (∀ s ∈ before, CanBeMet read m.seen s) ∧
      e.specifier ∉ m.seen ∧ read e.specifier = .error e.cause ∧
      reads = fresh m.seen (before ++ [e.specifier]) := by
  generalize hresult : Except.error e = result at h
  induction h generalizing files with
  | nil => nomatch hresult
  | char rest ih => exact ih hm (eq_of_map_prepend hresult.symm).symm
  | stays hstays rest ih =>
    have himports := ih hm (eq_of_map_prepend hresult.symm).symm
    simpa [importsOf, hstays] using himports
  | @again importer r ps m reads result hlocal hseen rest ih =>
    obtain ⟨before, after, htree, hbefore, hnew, hread, hreads⟩ := ih (hm.report hseen) hresult
    have hbelow := hm.treeBelow_subset hseen
    rw [seen_report] at hbefore hnew hreads
    refine ⟨resolveImport importer r.href ::
      (treeBelow read files (resolveImport importer r.href) ++ before), after, ?_, ?_, hnew, hread,
      ?_⟩
    · rw [importsOf_cons ps hlocal, importTree_cons, htree, List.cons_append, List.append_assoc]
    · intro t ht
      rw [List.mem_cons, List.mem_append] at ht
      rcases ht with rfl | ht | ht
      · exact Or.inl hseen
      · exact Or.inl (hm.seen t (hbelow t ht))
      · exact hbefore t ht
    · rw [hreads, List.cons_append, fresh_cons_of_mem _ hseen, List.append_assoc,
        fresh_append_of_subset _ fun t ht => hm.seen t (hbelow t ht)]
  | @unread importer r ps m cause hlocal hnew hread =>
    obtain rfl := Except.error.inj hresult
    refine ⟨[], _, by rw [importsOf_cons ps hlocal, importTree_cons]; rfl, by simp, hnew, hread, ?_⟩
    rw [List.nil_append, fresh_cons_of_notMem _ hnew, fresh_nil]
  | @fails importer r ps m source reads e' hlocal hnew hread inner ih =>
    obtain rfl := Except.error.inj hresult
    obtain ⟨before, after, htree, hbefore, hnew', hread', hreads⟩ := ih (hm.visit _) rfl
    rw [seen_visit, seen_report] at hbefore hnew' hreads
    refine ⟨resolveImport importer r.href :: before, after ++ importTree read files
      (importsOf importer ps), ?_, ?_, fun hmem => hnew' (List.mem_cons_of_mem _ hmem), hread', ?_⟩
    · rw [importsOf_cons ps hlocal, importTree_cons,
        hm.treeBelow_eq (isCanonical_resolveImport importer r.href) hnew hread, htree,
        List.cons_append, List.append_assoc, List.cons_append]
    · intro t ht
      rcases List.mem_cons.1 ht with rfl | ht
      · exact Or.inr ⟨source, hread⟩
      · exact (hbefore t ht).of_visit hread
    · rw [hreads, List.cons_append, fresh_cons_of_notMem _ hnew]
  | @puts importer r ps m m₁ source front reads more result hlocal hnew hread inner rest ihinner
      ihrest =>
    have hleft := inner.left hm (isCanonical_resolveImport importer r.href) hnew hread
      (inner.lists (hm.visit _))
    obtain ⟨before, after, htree, hbefore, hnew', hread', hreads⟩ :=
      ihrest hleft.settled (eq_of_map_prepend hresult.symm).symm
    refine ⟨resolveImport importer r.href ::
      (treeBelow read files (resolveImport importer r.href) ++ before), after, ?_, ?_, ?_, hread',
      ?_⟩
    · rw [importsOf_cons ps hlocal, importTree_cons, htree, List.cons_append, List.append_assoc]
    · intro t ht
      rw [List.mem_cons, List.mem_append] at ht
      rcases ht with rfl | ht | ht
      · exact Or.inr ⟨source, hread⟩
      · exact hleft.below t ht
      · exact (hbefore t ht).elim (hleft.met t) Or.inr
    · exact fun hmem => hnew' (hleft.seen ▸ by simp [hmem])
    · rw [List.cons_append, fresh_cons_of_notMem _ hnew, List.append_assoc, fresh_append,
        ← hleft.reads, hreads]
      exact congrArg _ (congrArg _ (fresh_congr _ (by simp [hleft.seen])))

end Waymark.Stylesheet
