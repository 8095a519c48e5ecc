import Mathlib.Data.List.GetD
import Mathlib.Data.Set.Card
import Mathlib.Order.Bounds.Basic
import Waymark.Build.Closure
import Waymark.Proofs.App.Runs
/-!
# Walks in levels

Where modules lead to others, a walk from some seeds comes to all that can be reached,
each in the level of its distance: the least number of steps it takes to get there.
Nothing is assumed of where modules lead.  There may be cycles, many ways to one
module, and no end.

The walk itself only asks where the modules of a level lead.  `Emits` says what has to
be known of that, and what the state is like in between.  A bound is there for walks
without an end: what the others come to is the same within any bound that they end in.

## Main results

* `collectWithin_of_le` — a walk that has ended does not depend on its bound.
* `isLeast_reached` — what is reached is the least set that holds the seeds and is closed.
* `lt_ncard_of_atDistance` — a finite set has no room for a distance beyond its size.
* `collectWithin_levels` — the levels of a walk hold what is at their distance.
* `collect_levels` — the same of a whole walk, from its seeds.
-/

namespace Waymark.Build

/-! ## Bounds -/

section
variable {ε σ : Type} {emit : List Specifier → ExceptT ε (StateM σ) (List Specifier)}

/-- A walk that has ended, or failed, does so alike within every greater bound. -/
theorem collectWithin_of_le {bound bound' : Nat} (hle : bound ≤ bound')
    {done level : List Specifier} {a a' : σ} {result : Except ε (Option (List Specifier))}
    (hrun : (collectWithin emit bound done level).run.run a = (result, a'))
    (hresult : result ≠ .ok none) :
    (collectWithin emit bound' done level).run.run a = (result, a') := by
  induction bound generalizing bound' done level a with
  | zero =>
    cases level with
    | nil =>
      rw [collectWithin_nil] at hrun ⊢
      exact hrun
    | cons s level =>
      obtain ⟨rfl, rfl⟩ := Prod.mk.inj hrun
      exact absurd rfl hresult
  | succ bound ih =>
    cases level with
    | nil =>
      rw [collectWithin_nil] at hrun ⊢
      exact hrun
    | cons s level =>
      cases bound' with
      | zero => nomatch hle
      | succ bound' =>
        rw [collectWithin, run_action_bind] at hrun ⊢
        rcases hemit : (emit (s :: level)).run.run a with ⟨e | found, a₁⟩
        · rw [hemit] at hrun
          exact hrun
        · rw [hemit] at hrun
          exact ih (Nat.le_of_succ_le_succ hle) hrun

end

section
variable {outDir : String} {seeds : List Specifier}

/-- Modules that are written are those of a walk that has ended. -/
theorem collect_of_collectModules {bound : Nat} {modules : List Specifier} {a a' : App}
    (hrun : (collectModulesWithin bound outDir seeds).run.run a = (.ok modules, a')) :
    (collect (emitLevel outDir) bound seeds).run.run a = (.ok (some modules), a') := by
  unfold collectModulesWithin at hrun
  obtain ⟨result, a₁, hwalk, hrun⟩ := exists_of_run_bind hrun
  cases result with
  | none => nomatch hrun
  | some found =>
    obtain ⟨hmodules, rfl⟩ := Prod.mk.inj hrun
    obtain rfl := Except.ok.inj hmodules
    exact hwalk

/-- What is written depends on the bound only as long as the walk does not end. -/
theorem collectModulesWithin_of_le {bound bound' : Nat} (hle : bound ≤ bound') {a : App}
    (hends : ((collectModulesWithin bound outDir seeds).run.run a).1 ≠ .error .tooLarge) :
    (collectModulesWithin bound' outDir seeds).run.run a =
      (collectModulesWithin bound outDir seeds).run.run a := by
  unfold collectModulesWithin at hends ⊢
  rw [run_action_bind] at hends ⊢
  rw [run_action_bind]
  rcases hwalk : (collect (emitLevel outDir) bound seeds).run.run a with ⟨result, a₁⟩
  rw [hwalk] at hends
  have hresult : result ≠ .ok none := by
    rintro rfl
    exact hends rfl
  have hwalk' : (collect (emitLevel outDir) bound' seeds).run.run a = (result, a₁) :=
    collectWithin_of_le hle hwalk hresult
  rw [hwalk']

end

section
variable {next : Specifier → List Specifier} {seeds : List Specifier}

/-! ## What is reached -/

/-- A module can be come to in a number of steps from the seeds. -/
inductive Trail (next : Specifier → List Specifier) (seeds : List Specifier) :
    Nat → Specifier → Prop where
  | seed {s : Specifier} (h : s ∈ seeds) : Trail next seeds 0 s
  | step {n : Nat} {s t : Specifier} (h : Trail next seeds n s) (ht : t ∈ next s) :
      Trail next seeds (n + 1) t

/-- All modules that can be come to. -/
def reached (next : Specifier → List Specifier) (seeds : List Specifier) : Set Specifier :=
  {s | ∃ n, Trail next seeds n s}

/-- A set that holds the seeds, and with a module all that it leads to. -/
structure ClosedUnder (next : Specifier → List Specifier) (seeds : List Specifier)
    (S : Set Specifier) : Prop where
  seeds : ∀ s ∈ seeds, s ∈ S
  next : ∀ s ∈ S, ∀ t ∈ next s, t ∈ S

theorem closedUnder_reached : ClosedUnder next seeds (reached next seeds) where
  seeds _ hs := ⟨0, .seed hs⟩
  next _ hs _ ht := let ⟨n, hn⟩ := hs; ⟨n + 1, hn.step ht⟩

theorem isLeast_reached : IsLeast {S | ClosedUnder next seeds S} (reached next seeds) := by
  refine ⟨closedUnder_reached, ?_⟩
  rintro S hS s ⟨n, hn⟩
  induction hn with
  | seed h => exact hS.seeds _ h
  | step _ ht ih => exact hS.next _ ih _ ht

/-! ## Distances -/

/-- The least number of steps in which a module can be come to. -/
def AtDistance (next : Specifier → List Specifier) (seeds : List Specifier) (n : Nat)
    (s : Specifier) : Prop :=
  Trail next seeds n s ∧ ∀ m < n, ¬Trail next seeds m s

theorem AtDistance.mem_reached {n : Nat} {s : Specifier} (h : AtDistance next seeds n s) :
    s ∈ reached next seeds := ⟨n, h.1⟩

theorem Trail.exists_atDistance {n : Nat} {s : Specifier} (h : Trail next seeds n s) :
    ∃ m ≤ n, AtDistance next seeds m s := by
  induction n using Nat.strongRecOn with
  | ind n ih =>
    by_cases hshorter : ∃ m < n, Trail next seeds m s
    · obtain ⟨m, hm, htrail⟩ := hshorter
      obtain ⟨k, hk, hdist⟩ := ih m hm htrail
      exact ⟨k, by omega, hdist⟩
    · exact ⟨n, Nat.le_refl n, h, fun m hm htrail => hshorter ⟨m, hm, htrail⟩⟩

theorem AtDistance.unique {m n : Nat} {s : Specifier} (hm : AtDistance next seeds m s)
    (hn : AtDistance next seeds n s) : m = n := by
  by_contra hne
  rcases Nat.lt_or_gt_of_ne hne with hlt | hlt
  · exact hn.2 m hlt hm.1
  · exact hm.2 n hlt hn.1

theorem atDistance_zero {s : Specifier} : AtDistance next seeds 0 s ↔ s ∈ seeds := by
  constructor
  · rintro ⟨⟨h⟩, -⟩
    exact h
  · intro h
    exact ⟨.seed h, fun m hm => absurd hm (Nat.not_lt_zero m)⟩

/-- What is one step further is what a module at this distance leads to, unless it is nearer. -/
theorem atDistance_succ {n : Nat} {t : Specifier} :
    AtDistance next seeds (n + 1) t ↔
      (∃ s, AtDistance next seeds n s ∧ t ∈ next s) ∧ ∀ m ≤ n, ¬AtDistance next seeds m t := by
  constructor
  · rintro ⟨htrail, hfar⟩
    have hne : ∀ m ≤ n, ¬AtDistance next seeds m t := fun m hm hdist =>
      hfar m (Nat.lt_succ_of_le hm) hdist.1
    cases htrail with
    | step h ht =>
      refine ⟨⟨_, ⟨h, ?_⟩, ht⟩, hne⟩
      intro m hm hshort
      exact hfar (m + 1) (Nat.succ_lt_succ hm) (hshort.step ht)
  · rintro ⟨⟨s, hs, ht⟩, hne⟩
    refine ⟨hs.1.step ht, ?_⟩
    intro m hm htrail
    obtain ⟨k, hk, hdist⟩ := htrail.exists_atDistance
    exact hne k (by omega) hdist

/-- On the way to a module every smaller distance is met. -/
theorem AtDistance.exists_of_le {m n : Nat} {t : Specifier} (h : AtDistance next seeds n t)
    (hm : m ≤ n) : ∃ s, AtDistance next seeds m s := by
  induction n generalizing t with
  | zero =>
    obtain rfl := Nat.le_zero.1 hm
    exact ⟨t, h⟩
  | succ n ih =>
    by_cases hlast : m = n + 1
    · exact ⟨t, hlast ▸ h⟩
    · obtain ⟨⟨s, hs, -⟩, -⟩ := atDistance_succ.1 h
      exact ih hs (by omega)

theorem lt_ncard_of_atDistance (hfin : (reached next seeds).Finite) {n : Nat} {t : Specifier}
    (h : AtDistance next seeds n t) : n < (reached next seeds).ncard := by
  -- One module at each distance up to `n`, and all of them different.
  choose f hf using fun m : Fin (n + 1) => h.exists_of_le (Nat.le_of_lt_succ m.isLt)
  have hinj : Function.Injective f := by
    intro i j hij
    exact Fin.ext ((hf i).unique (hij ▸ hf j))
  have hsub : Set.range f ⊆ reached next seeds := by
    rintro s ⟨i, rfl⟩
    exact (hf i).mem_reached
  have hcard : (Set.range f).ncard = n + 1 := by
    rw [Set.ncard_range_of_injective hinj, Nat.card_fin]
  have hle := Set.ncard_le_ncard hsub hfin
  omega

/-! ## Levels -/

/-- Lists of what is at the distances `n`, `n + 1` and so on. -/
inductive LevelsFrom (next : Specifier → List Specifier) (seeds : List Specifier) :
    Nat → List (List Specifier) → Prop where
  | nil {n : Nat} : LevelsFrom next seeds n []
  | cons {n : Nat} {level : List Specifier} {levels : List (List Specifier)}
      (hnodup : level.Nodup) (hmem : ∀ s, s ∈ level ↔ AtDistance next seeds n s)
      (h : LevelsFrom next seeds (n + 1) levels) : LevelsFrom next seeds n (level :: levels)

theorem LevelsFrom.mem_getD {n : Nat} {levels : List (List Specifier)}
    (h : LevelsFrom next seeds n levels) {i : Nat} (hi : i < levels.length) {s : Specifier} :
    s ∈ levels.getD i [] ↔ AtDistance next seeds (n + i) s := by
  induction h generalizing i with
  | nil => exact absurd hi (Nat.not_lt_zero i)
  | @cons n level levels _ hmem _ ih =>
    cases i with
    | zero => exact hmem s
    | succ i =>
      have hadd : n + (i + 1) = n + 1 + i := by omega
      rw [hadd]
      exact ih (Nat.lt_of_succ_lt_succ hi)

theorem LevelsFrom.mem_flatten {n : Nat} {levels : List (List Specifier)}
    (h : LevelsFrom next seeds n levels) {s : Specifier} :
    s ∈ levels.flatten ↔ ∃ i < levels.length, AtDistance next seeds (n + i) s := by
  rw [List.mem_flatten]
  constructor
  · rintro ⟨level, hlevel, hs⟩
    obtain ⟨i, hi, rfl⟩ := List.getElem_of_mem hlevel
    refine ⟨i, hi, (h.mem_getD hi).1 ?_⟩
    rwa [List.getD_eq_getElem _ _ hi]
  · rintro ⟨i, hi, hs⟩
    have hmem := (h.mem_getD hi).2 hs
    rw [List.getD_eq_getElem _ _ hi] at hmem
    exact ⟨levels[i], List.getElem_mem hi, hmem⟩

/-- No module is in two levels, or twice in one. -/
theorem LevelsFrom.nodup_flatten {n : Nat} {levels : List (List Specifier)}
    (h : LevelsFrom next seeds n levels) : levels.flatten.Nodup := by
  induction h with
  | nil => exact List.nodup_nil
  | @cons n level levels hnodup hmem h ih =>
    rw [List.flatten_cons]
    refine List.nodup_append.2 ⟨hnodup, ih, ?_⟩
    rintro s hs t ht rfl
    obtain ⟨i, -, hi⟩ := h.mem_flatten.1 ht
    have heq := ((hmem s).1 hs).unique hi
    omega

end

/-! ## Walking -/

/-- What a walk needs of the way a level is emitted: from a state fit for what has been emitted so
far, and for modules that can be reached, a success comes with the modules that the level leads to
and with a state that is fit again.  All modules of the level have been served. -/
structure Emits {ε σ : Type} (emit : List Specifier → ExceptT ε (StateM σ) (List Specifier))
    (next : Specifier → List Specifier) (served : Specifier → Prop) (members : Set Specifier)
    (Fit : List Specifier → σ → Prop) : Prop where
  level : ∀ {emitted level found : List Specifier} {a a' : σ}, Fit emitted a →
    (∀ s ∈ level, s ∈ members) → (emit level).run.run a = (.ok found, a') →
      Fit (emitted ++ level) a' ∧ (∀ s ∈ level, served s) ∧
        ∀ t, t ∈ found ↔ ∃ s ∈ level, t ∈ next s

section
variable {ε σ : Type} {emit : List Specifier → ExceptT ε (StateM σ) (List Specifier)}
  {next : Specifier → List Specifier} {seeds : List Specifier} {served : Specifier → Prop}
  {Fit : List Specifier → σ → Prop}

theorem mem_done {n : Nat} {done level : List Specifier}
    (hlevel : ∀ s, s ∈ level ↔ AtDistance next seeds n s)
    (hdone : ∀ s, s ∈ done ↔ ∃ m < n, AtDistance next seeds m s) (t : Specifier) :
    t ∈ done ++ level ↔ ∃ m ≤ n, AtDistance next seeds m t := by
  rw [List.mem_append, hdone, hlevel]
  constructor
  · rintro (⟨m, hm, h⟩ | h)
    · exact ⟨m, Nat.le_of_lt hm, h⟩
    · exact ⟨n, Nat.le_refl n, h⟩
  · rintro ⟨m, hm, h⟩
    rcases Nat.lt_or_eq_of_le hm with hlt | rfl
    · exact Or.inl ⟨m, hlt, h⟩
    · exact Or.inr h

/-- The level after one that was emitted: what it leads to, without what has been done. -/
theorem mem_nextLevel {n : Nat} {done level found : List Specifier}
    (hlevel : ∀ s, s ∈ level ↔ AtDistance next seeds n s)
    (hdone : ∀ s, s ∈ done ↔ ∃ m < n, AtDistance next seeds m s)
    (hfound : ∀ t, t ∈ found ↔ ∃ s ∈ level, t ∈ next s) (t : Specifier) :
    t ∈ ordered (found.filter (· ∉ ordered (done ++ level))) ↔
      AtDistance next seeds (n + 1) t := by
  rw [mem_ordered, List.mem_filter, decide_eq_true_eq, mem_ordered, mem_done hlevel hdone, hfound,
    atDistance_succ]
  simp only [hlevel, not_exists, not_and]

/-- What the levels of a walk from distance `n` say of its result. -/
structure Walked (next : Specifier → List Specifier) (seeds : List Specifier) (n bound : Nat)
    (done : List Specifier) (result : Option (List Specifier))
    (levels : List (List Specifier)) : Prop where
  ascend : LevelsFrom next seeds n levels
  /-- A walk that ends leaves nothing further away. -/
  whole : ∀ modules, result = some modules → modules.Nodup ∧
    (∀ s, s ∈ modules ↔ s ∈ done ∨ s ∈ levels.flatten) ∧
      ∀ s, ¬AtDistance next seeds (n + levels.length) s
  /-- A walk is cut short only if there is something beyond its bound. -/
  cut : result = none → levels.length = bound ∧ ∃ s, AtDistance next seeds (n + bound) s

theorem walked_nil {n bound : Nat} {done : List Specifier}
    (hlevel : ∀ s, s ∈ [] ↔ AtDistance next seeds n s) (hdone : done.Nodup) :
    Walked next seeds n bound done (some done) [] where
  ascend := .nil
  whole := by
    rintro modules hmodules
    obtain rfl := Option.some.inj hmodules
    refine ⟨hdone, fun s => by simp, fun s hs => ?_⟩
    exact absurd ((hlevel s).2 hs) List.not_mem_nil
  cut h := nomatch h

theorem Walked.cons {n bound : Nat} {done level : List Specifier}
    {result : Option (List Specifier)} {levels : List (List Specifier)} (hnodup : level.Nodup)
    (hlevel : ∀ s, s ∈ level ↔ AtDistance next seeds n s)
    (h : Walked next seeds (n + 1) bound (ordered (done ++ level)) result levels) :
    Walked next seeds n (bound + 1) done result (level :: levels) where
  ascend := .cons hnodup hlevel h.ascend
  whole := by
    intro modules hmodules
    obtain ⟨hmodules_nodup, hmem, hfar⟩ := h.whole modules hmodules
    refine ⟨hmodules_nodup, ?_, ?_⟩
    · intro s
      rw [hmem, mem_ordered, List.mem_append, List.flatten_cons, List.mem_append, or_assoc]
    · intro s
      have hadd : n + (level :: levels).length = n + 1 + levels.length := by
        rw [List.length_cons]
        omega
      rw [hadd]
      exact hfar s
  cut := by
    intro hresult
    obtain ⟨hlength, s, hs⟩ := h.cut hresult
    have hadd : n + (bound + 1) = n + 1 + bound := by omega
    exact ⟨congrArg Nat.succ hlength, s, hadd ▸ hs⟩

theorem collectWithin_levels (h : Emits emit next served (reached next seeds) Fit) {bound n : Nat}
    {done level emitted : List Specifier} {a a' : σ} {result : Option (List Specifier)}
    (hfit : Fit emitted a) (hnodup : level.Nodup)
    (hlevel : ∀ s, s ∈ level ↔ AtDistance next seeds n s) (hdone_nodup : done.Nodup)
    (hdone : ∀ s, s ∈ done ↔ ∃ m < n, AtDistance next seeds m s)
    (hrun : (collectWithin emit bound done level).run.run a = (.ok result, a')) :
    ∃ levels, Walked next seeds n bound done result levels ∧
      (∀ s ∈ levels.flatten, served s) ∧ Fit (emitted ++ levels.flatten) a' := by
  induction bound generalizing n done level emitted a with
  | zero =>
    cases level with
    | nil =>
      obtain ⟨hresult, rfl⟩ := Prod.mk.inj hrun
      obtain rfl := Except.ok.inj hresult
      exact ⟨[], walked_nil hlevel hdone_nodup, by simp, by simpa using hfit⟩
    | cons s level =>
      obtain ⟨hresult, rfl⟩ := Prod.mk.inj hrun
      obtain rfl := Except.ok.inj hresult
      refine ⟨[], ⟨.nil, fun _ hmodules => (nomatch hmodules), fun _ => ⟨rfl, s, ?_⟩⟩, by simp,
        by simpa using hfit⟩
      exact (hlevel s).1 (List.mem_cons_self ..)
  | succ bound ih =>
    cases level with
    | nil =>
      obtain ⟨hresult, rfl⟩ := Prod.mk.inj hrun
      obtain rfl := Except.ok.inj hresult
      exact ⟨[], walked_nil hlevel hdone_nodup, by simp, by simpa using hfit⟩
    | cons s level =>
      obtain ⟨found, a₁, hemit, hrun⟩ := exists_of_run_bind hrun
      obtain ⟨hfit₁, hserved, hfound⟩ :=
        h.level hfit (fun t ht => ((hlevel t).1 ht).mem_reached) hemit
      have hdone₁ : ∀ t, t ∈ ordered (done ++ s :: level) ↔
          ∃ m < n + 1, AtDistance next seeds m t := by
        intro t
        rw [mem_ordered, mem_done hlevel hdone]
        simp only [Nat.lt_succ_iff]
      obtain ⟨levels, hwalked, hserved₁, hfit'⟩ := ih hfit₁ (nodup_ordered _)
        (mem_nextLevel hlevel hdone hfound) (nodup_ordered _) hdone₁ hrun
      refine ⟨(s :: level) :: levels, hwalked.cons hnodup hlevel, ?_, ?_⟩
      · intro t ht
        rw [List.flatten_cons] at ht
        rcases List.mem_append.1 ht with ht | ht
        · exact hserved t ht
        · exact hserved₁ t ht
      · rwa [List.flatten_cons, ← List.append_assoc]

/-! ## Whole walks -/

/-- The levels of a walk that ended are all there are. -/
theorem Walked.mem_getD {bound : Nat} {modules : List Specifier}
    {levels : List (List Specifier)} (h : Walked next seeds 0 bound [] (some modules) levels)
    (n : Nat) (s : Specifier) : s ∈ levels.getD n [] ↔ AtDistance next seeds n s := by
  obtain ⟨-, -, hfar⟩ := h.whole modules rfl
  by_cases hn : n < levels.length
  · rw [h.ascend.mem_getD hn, Nat.zero_add]
  · rw [List.getD_eq_default _ _ (Nat.not_lt.1 hn)]
    constructor
    · intro hs
      nomatch hs
    · intro hs
      obtain ⟨t, ht⟩ := hs.exists_of_le (Nat.not_lt.1 hn)
      exact absurd ((Nat.zero_add levels.length).symm ▸ ht) (hfar t)

theorem Walked.mem_iff {bound : Nat} {modules : List Specifier} {levels : List (List Specifier)}
    (h : Walked next seeds 0 bound [] (some modules) levels) (s : Specifier) :
    s ∈ modules ↔ s ∈ reached next seeds := by
  obtain ⟨-, hmem, -⟩ := h.whole modules rfl
  rw [hmem, h.ascend.mem_flatten]
  constructor
  · rintro (hs | ⟨i, -, hs⟩)
    · nomatch hs
    · exact hs.mem_reached
  · rintro ⟨n, hn⟩
    obtain ⟨m, -, hs⟩ := hn.exists_atDistance
    refine Or.inr ⟨m, ?_, (Nat.zero_add m).symm ▸ hs⟩
    by_contra hm
    have hmem := (h.mem_getD m s).2 hs
    rw [List.getD_eq_default _ _ (Nat.not_lt.1 hm)] at hmem
    nomatch hmem

/-- A walk from its seeds. -/
theorem collect_levels (h : Emits emit next served (reached next seeds) Fit) {bound : Nat}
    {a a' : σ} {result : Option (List Specifier)} (hfit : Fit [] a)
    (hrun : (collect emit bound seeds).run.run a = (.ok result, a')) :
    ∃ levels, Walked next seeds 0 bound [] result levels ∧
      (∀ s ∈ levels.flatten, served s) ∧ Fit levels.flatten a' := by
  have hlevel : ∀ s, s ∈ ordered seeds ↔ AtDistance next seeds 0 s := by
    intro s
    rw [mem_ordered, atDistance_zero]
  have hdone : ∀ s, s ∈ [] ↔ ∃ m < 0, AtDistance next seeds m s := by
    intro s
    simp
  exact collectWithin_levels h hfit (nodup_ordered seeds) hlevel List.nodup_nil hdone hrun

end

end Waymark.Build
