import Waymark.Proofs.Stylesheet.ImportTree
/-!
# Sheets in one text

Its imports cut a sheet into stretches; the style rules of a sheet whose imports come first
all stand in the last of them.  A browser that follows every import reads the stretches of
all sheets in one long order, those of a sheet that is imported twice in two places of it,
and goes into a sheet as often as it is imported but not again below itself.

Bundled, the stretches stand once each, in the order of their first places.  For a sheet
that is met again was either left, and then all that stands below it was put in, or it is
being put in.

## Main results

* `PutIn.stretchesBelow_subset` — below a sheet that was met before nothing new stands.
* `Inlines.stretches` — a run puts in what is new of the stretches, in order.
-/

namespace Waymark.Stylesheet

open Specifier (IsCanonical)

/-! ## Stretches -/

/-- What stands in a sheet between two of its imports, before the first or behind the last. -/
structure Stretch where
  sheet : Specifier
  /-- How many imports stand before it. -/
  index : Nat
  text : List Char
  deriving DecidableEq, Repr

/-- The stretches of a sheet from the current one on, which began with `own`, and where it imports
a sheet what stands `below` it. -/
def stretchesFrom (below : Specifier → List Stretch) (importer sheet : Specifier) :
    Nat → List Char → List Piece → List Stretch
  | n, own, [] => [⟨sheet, n, own⟩]
  | n, own, .char c :: ps => stretchesFrom below importer sheet n (own ++ [c]) ps
  | n, own, .rule r :: ps =>
    if staysImported importer r.href then
      stretchesFrom below importer sheet n (own ++ r.text) ps
    else
      ⟨sheet, n, own⟩ :: (below (resolveImport importer r.href) ++
        stretchesFrom below importer sheet (n + 1) [] ps)

variable {ε : Type}

/-- The stretches that an import of a sheet stands for, every import followed.  `files` are the
sheets that are not on the chain of imports so far. -/
def stretchesBelow (read : Specifier → Except ε String) (files : Finset Specifier)
    (s : Specifier) : List Stretch :=
  if _h : s ∈ files then
    match read s with
    | .ok text => stretchesFrom (stretchesBelow read (files.erase s)) s s 0 [] (rules text.toList)
    | .error _ => []
  else []
termination_by files.card
decreasing_by exact Finset.card_erase_lt_of_mem _h

/-- The stretches of a sheet itself. -/
def ownStretches (read : Specifier → Except ε String) (s : Specifier) : List Stretch :=
  match read s with
  | .ok text => stretchesFrom (fun _ => []) s s 0 [] (rules text.toList)
  | .error _ => []

variable {read : Specifier → Except ε String} {files : Finset Specifier}
  {importer sheet : Specifier}

theorem stretchesBelow_of_notMem {s : Specifier} (h : s ∉ files) :
    stretchesBelow read files s = [] := by
  rw [stretchesBelow, dif_neg h]

theorem stretchesBelow_of_read {s : Specifier} {text : String} (h : s ∈ files)
    (hread : read s = .ok text) :
    stretchesBelow read files s =
      stretchesFrom (stretchesBelow read (files.erase s)) s s 0 [] (rules text.toList) := by
  rw [stretchesBelow, dif_pos h, hread]

theorem stretchesBelow_of_error {s : Specifier} {cause : ε} (hread : read s = .error cause) :
    stretchesBelow read files s = [] := by
  by_cases h : s ∈ files
  · rw [stretchesBelow, dif_pos h, hread]
  · exact stretchesBelow_of_notMem h

/-- A stretch is one of the sheet itself, or stands below a sheet that it imports. -/
theorem mem_stretchesFrom {below : Specifier → List Stretch} {ps : List Piece} {n : Nat}
    {own : List Char} {x : Stretch} :
    x ∈ stretchesFrom below importer sheet n own ps ↔
      x ∈ stretchesFrom (fun _ => []) importer sheet n own ps ∨
        ∃ s ∈ importsOf importer ps, x ∈ below s := by
  induction ps generalizing n own with
  | nil => simp [stretchesFrom, importsOf]
  | cons piece ps ih =>
    cases piece with
    | char c => exact ih
    | rule r =>
      cases hlocal : staysImported importer r.href with
      | true =>
        have himports : importsOf importer (.rule r :: ps) = importsOf importer ps := by
          simp [importsOf, hlocal]
        rw [stretchesFrom, stretchesFrom, if_pos hlocal, if_pos hlocal, himports]
        exact ih
      | false =>
        rw [stretchesFrom, stretchesFrom, if_neg (by simp [hlocal]), if_neg (by simp [hlocal]),
          importsOf_cons ps hlocal]
        simp only [List.mem_cons, List.mem_append, ih, List.not_mem_nil, false_or,
          exists_eq_or_imp]
        tauto

theorem sheet_of_mem_own {ps : List Piece} {n : Nat} {own : List Char} {x : Stretch}
    (h : x ∈ stretchesFrom (fun _ => []) importer sheet n own ps) : x.sheet = sheet := by
  induction ps generalizing n own with
  | nil => exact (List.mem_singleton.1 h) ▸ rfl
  | cons piece ps ih =>
    cases piece with
    | char c => exact ih h
    | rule r =>
      unfold stretchesFrom at h
      split at h
      · exact ih h
      · rcases List.mem_cons.1 h with rfl | h
        · rfl
        · exact ih h

/-- Only sheets that are not on the chain stand below a sheet. -/
theorem sheet_mem_of_mem_below {s : Specifier} {x : Stretch}
    (h : x ∈ stretchesBelow read files s) : x.sheet ∈ files := by
  induction files using Finset.strongInduction generalizing s with
  | H files ih =>
    by_cases hs : s ∈ files
    · cases hread : read s with
      | error cause =>
        rw [stretchesBelow_of_error hread] at h
        nomatch h
      | ok text =>
        rw [stretchesBelow_of_read hs hread, mem_stretchesFrom] at h
        rcases h with hown | ⟨t, -, ht⟩
        · exact sheet_of_mem_own hown ▸ hs
        · exact Finset.mem_of_mem_erase (ih _ (Finset.erase_ssubset hs) ht)
    · rw [stretchesBelow_of_notMem hs] at h
      nomatch h

/-! ## What was put in -/

variable {m m' : Met} {put : List Stretch}

/-- These stretches were put in: all those of the sheets that were met and are not on the chain,
and none of a sheet that was not met. -/
structure PutIn (read : Specifier → Except ε String) (files : Finset Specifier) (m : Met)
    (put : List Stretch) : Prop where
  settled : Settled read files m
  own : ∀ s ∈ m.seen, s ∈ files → ∀ x ∈ ownStretches read s, x ∈ put
  met : ∀ x ∈ put, x.sheet ∈ m.seen

/-- Below a sheet that was met before nothing new stands. -/
theorem PutIn.stretchesBelow_subset (h : PutIn read files m put) {inner : Finset Specifier}
    (hinner : inner ⊆ files) {s : Specifier} (hs : s ∈ m.seen) :
    ∀ x ∈ stretchesBelow read inner s, x ∈ put := by
  induction inner using Finset.strongInduction generalizing s with
  | H inner ih =>
    intro x hx
    by_cases hmem : s ∈ inner
    · cases hread : read s with
      | error cause =>
        rw [stretchesBelow_of_error hread] at hx
        nomatch hx
      | ok text =>
        rw [stretchesBelow_of_read hmem hread, mem_stretchesFrom] at hx
        rcases hx with hown | ⟨t, ht, hx⟩
        · refine h.own s hs (hinner hmem) x ?_
          rw [ownStretches, hread]
          exact hown
        · refine ih _ (Finset.erase_ssubset hmem) ((Finset.erase_subset _ _).trans hinner)
            (h.settled.seen t (h.settled.imports s hs (hinner hmem) t ?_)) x hx
          rw [sheetImports, hread]
          exact ht
    · rw [stretchesBelow_of_notMem hmem] at hx
      nomatch hx

/-- One more stretch of a sheet on the chain is put in. -/
theorem PutIn.extend (h : PutIn read files m put) {x : Stretch} (hx : x.sheet ∈ m.seen) :
    PutIn read files m (put ++ [x]) := by
  refine ⟨h.settled, fun s hs hmem y hy => List.mem_append_left _ (h.own s hs hmem y hy), ?_⟩
  intro y hy
  rcases List.mem_append.1 hy with hy | hy
  · exact h.met y hy
  · exact List.mem_singleton.1 hy ▸ hx

theorem PutIn.report (h : PutIn read files m put) {s : Specifier} (hs : s ∈ m.seen) :
    PutIn read files (m.report s) put := by
  refine ⟨h.settled.report hs, ?_, ?_⟩
  · rw [seen_report]
    exact h.own
  · rw [seen_report]
    exact h.met

theorem PutIn.visit (h : PutIn read files m put) (s : Specifier) :
    PutIn read (files.erase s) ((m.report s).visit s) put := by
  refine ⟨h.settled.visit s, ?_, ?_⟩
  · intro t ht hmem x hx
    obtain ⟨hne, hmem⟩ := Finset.mem_erase.1 hmem
    rw [seen_visit, seen_report] at ht
    exact h.own t ((List.mem_cons.1 ht).resolve_left hne) hmem x hx
  · intro x hx
    rw [seen_visit, seen_report]
    exact List.mem_cons_of_mem _ (h.met x hx)

theorem PutIn.leave {s : Specifier} (h : PutIn read (files.erase s) m put)
    (hsettled : Settled read files m) (hs : ∀ x ∈ ownStretches read s, x ∈ put) :
    PutIn read files m put := by
  refine ⟨hsettled, ?_, h.met⟩
  intro t ht hmem
  by_cases hts : t = s
  · exact hts ▸ hs
  · exact h.own t ht (Finset.mem_erase.2 ⟨hts, hmem⟩)

/-! ## Runs -/

theorem fresh_cons_extend {x : Stretch} (l : List Stretch) (h : x ∉ put) :
    fresh put (x :: l) = x :: fresh (put ++ [x]) l := by
  rw [fresh_cons_of_notMem l h]
  exact congrArg _ (fresh_congr l (by simp [or_comm]))

theorem fresh_append_extend (l l' : List Stretch) :
    fresh put (l ++ l') = fresh put l ++ fresh (put ++ fresh put l) l' := by
  rw [fresh_append]
  exact congrArg _ (fresh_congr l' (by simp [or_comm]))

theorem mem_append_fresh {l : List Stretch} {x : Stretch} (h : x ∈ l) : x ∈ put ++ fresh put l := by
  rw [List.mem_append, mem_fresh]
  exact (em (x ∈ put)).imp_right fun hnot => ⟨h, hnot⟩

theorem index_lt_of_mem_extend {n : Nat} (h : ∀ x ∈ put, x.sheet = sheet → x.index < n)
    (own : List Char) : ∀ x ∈ put ++ [⟨sheet, n, own⟩], x.sheet = sheet → x.index < n + 1 := by
  intro x hx hsheet
  rcases List.mem_append.1 hx with hx | hx
  · exact Nat.lt_succ_of_lt (h x hx hsheet)
  · exact (List.mem_singleton.1 hx) ▸ Nat.lt_succ_self n

/-- A run puts in what is new of the stretches from the current one on, in order.  Nothing of the
sheet from this stretch on was put in before. -/
theorem Inlines.stretches {ps : List Piece} {reads : List Specifier} {text : List Char}
    (h : Inlines read importer ps m reads (.ok (text, m'))) (own : List Char) (n : Nat)
    (hput : PutIn read files m put) (hchain : sheet ∉ files) (hsheet : sheet ∈ m.seen)
    (hbefore : ∀ x ∈ put, x.sheet = sheet → x.index < n) :
    own ++ text =
        (fresh put (stretchesFrom (stretchesBelow read files) importer sheet n own ps)).flatMap
          Stretch.text ∧
      PutIn read files m'
        (put ++ fresh put (stretchesFrom (stretchesBelow read files) importer sheet n own ps)) := by
  generalize hresult : Except.ok (text, m') = result at h
  induction h generalizing files text m' own n put sheet with
  | nil =>
    obtain ⟨rfl, rfl⟩ := Prod.mk.inj (Except.ok.inj hresult)
    have hnew : (⟨sheet, n, own⟩ : Stretch) ∉ put := fun hmem => (hbefore _ hmem rfl).false
    rw [stretchesFrom, fresh_cons_of_notMem _ hnew, fresh_nil]
    exact ⟨by simp, hput.extend hsheet⟩
  | char rest ih =>
    obtain ⟨behind, hbehind, rfl⟩ := exists_of_map_prepend hresult.symm
    rw [stretchesFrom, ← List.append_assoc]
    exact ih _ n hput hchain hsheet hbefore hbehind.symm
  | stays hstays rest ih =>
    obtain ⟨behind, hbehind, rfl⟩ := exists_of_map_prepend hresult.symm
    rw [stretchesFrom, if_pos hstays, ← List.append_assoc]
    exact ih _ n hput hchain hsheet hbefore hbehind.symm
  | @again importer r ps m reads result hlocal hseen rest ih =>
    have hnew : (⟨sheet, n, own⟩ : Stretch) ∉ put := fun hmem => (hbefore _ hmem rfl).false
    have hput' := hput.extend (x := ⟨sheet, n, own⟩) hsheet
    obtain ⟨htext, hafter⟩ := ih [] (n + 1) (hput'.report hseen) hchain (by rwa [seen_report])
      (index_lt_of_mem_extend hbefore own) hresult
    rw [stretchesFrom, if_neg (by simp [hlocal]), fresh_cons_extend _ hnew,
      fresh_append_of_subset _ (hput'.stretchesBelow_subset subset_rfl hseen)]
    refine ⟨?_, ?_⟩
    · rw [List.flatMap_cons, ← htext]
      rfl
    · rw [← List.singleton_append, ← List.append_assoc]
      exact hafter
  | unread => nomatch hresult
  | fails => nomatch hresult
  | @puts importer r ps m m₁ source front reads more result hlocal hnew hread inner rest ihinner
      ihrest =>
    obtain ⟨behind, hbehind, rfl⟩ := exists_of_map_prepend hresult.symm
    have hcanonical := isCanonical_resolveImport importer r.href
    rw [stretchesFrom, if_neg (by simp [hlocal])]
    generalize resolveImport importer r.href = dep at *
    have hfirst : (⟨sheet, n, own⟩ : Stretch) ∉ put := fun hmem => (hbefore _ hmem rfl).false
    have hput' := hput.extend (x := ⟨sheet, n, own⟩) hsheet
    have hfile : dep ∈ files :=
      (hput.settled.covers dep source hcanonical hread).resolve_right hnew
    -- nothing of the imported sheet was put in, for it was not met
    obtain ⟨hfront, hinside⟩ := ihinner [] 0 (hput'.visit dep) (Finset.notMem_erase _ _)
      (List.mem_cons_self ..) (fun x hx hdep => absurd (hput'.met x hx) (hdep ▸ hnew)) rfl
    rw [← stretchesBelow_of_read hfile hread] at hfront hinside
    have hleft := hinside.leave
      (inner.left hput.settled hcanonical hnew hread (inner.lists (hput.settled.visit _))).settled
      (fun x hx => mem_append_fresh (by
        rw [ownStretches, hread] at hx
        rw [stretchesBelow_of_read hfile hread, mem_stretchesFrom]
        exact Or.inl hx))
    have hseen : sheet ∈ m₁.seen := by
      rw [inner.seen, seen_visit, seen_report]
      simp [hsheet]
    obtain ⟨htext, hafter⟩ := ihrest [] (n + 1) hleft hchain hseen (by
      intro x hx hxsheet
      rcases List.mem_append.1 hx with hx | hx
      · exact index_lt_of_mem_extend hbefore own x hx hxsheet
      · exact absurd (hxsheet ▸ sheet_mem_of_mem_below (mem_fresh.1 hx).1) hchain) hbehind.symm
    rw [fresh_cons_extend _ hfirst, fresh_append_extend]
    refine ⟨?_, ?_⟩
    · rw [List.flatMap_cons, List.flatMap_append, ← htext, ← hfront]
      rfl
    · rw [← List.singleton_append, ← List.append_assoc, ← List.append_assoc]
      exact hafter

end Waymark.Stylesheet
