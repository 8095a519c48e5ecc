import Mathlib.Data.Set.Card
import Mathlib.Data.Set.Finite.Lattice
import Mathlib.Order.Interval.Finset.Nat
import Waymark.Proofs.Bundle.Run
/-!
# Every module is loaded once

The bundler that a policy drives asks for a module when an import of it is to be
copied and its key is new.  Two URLs have one key when they differ in the version
that they ask for, so that a server that hands out new versions with every answer
does not keep the walk going: each step of it writes the entry or a module whose key
was new, and where there are finitely many keys the walk ends.

All that is fetched belongs into the bundle, except the module that stands in for the
compiler.

## Main results

* `vendorKey_congr` — URLs that differ in their version have one key.
* `copyAll_of_le` — a walk that has ended does not depend on its bound.
* `mustInline_of_resolve` — only what belongs into the bundle is to be copied.
* `bundle_loads_once` — no key is loaded twice, nothing else is fetched, and where the keys are
  finitely many the walk ends.
-/

namespace Waymark.Bundle

variable {ε σ : Type}

/-! ## Keys -/

/-- The parts of a URL's query that are no version. -/
def unversioned (u : Url) : List (List Char × List Char) :=
  u.queryPairs.filter fun (k, _) => k ≠ ['v']

theorem vendorKey_congr {a b : String} {u v : Url} (ha : Url.parse a = .ok u)
    (hb : Url.parse b = .ok v) (hsame : ({ u with query := none } : Url) = { v with query := none })
    (hpairs : unversioned u = unversioned v) : vendorKey a = vendorKey b := by
  have hkey (q : Option (List Char)) : ({ u with query := q } : Url) = { v with query := q } :=
    congrArg (fun w : Url => { w with query := q }) hsame
  unfold vendorKey
  rw [ha, hb]
  unfold unversioned at hpairs
  dsimp only
  rw [hpairs, hkey]

/-! ## Bounds -/

section
variable {plugin : Plugin (ExceptT ε (StateM σ))} {unloaded : String → ε}
  {write : String → String → ExceptT ε (StateM σ) Unit}

theorem copyAll_nil (fuel : Nat) (seen : List String) :
    copyAll plugin unloaded write fuel seen [] = pure true := by
  cases fuel with
  | zero => rfl
  | succ fuel => rfl

theorem copyAll_of_le {fuel fuel' : Nat} (hle : fuel ≤ fuel') {seen : List String}
    {queue : List Pending} {s : σ}
    (hends : ((copyAll plugin unloaded write fuel seen queue).run.run s).1 ≠ .ok false) :
    (copyAll plugin unloaded write fuel' seen queue).run.run s =
      (copyAll plugin unloaded write fuel seen queue).run.run s := by
  induction fuel generalizing fuel' seen queue s with
  | zero =>
    cases queue with
    | nil => rw [copyAll_nil, copyAll_nil]
    | cons module queue => exact absurd rfl hends
  | succ fuel ih =>
    cases queue with
    | nil => rw [copyAll_nil, copyAll_nil]
    | cons module queue =>
      cases fuel' with
      | zero => nomatch hle
      | succ fuel' =>
        rw [copyAll, run_action_bind] at hends
        rw [copyAll, copyAll, run_action_bind, run_action_bind]
        rcases hplan : (planAll plugin unloaded module ⟨[], seen, []⟩
          (Script.mentions module.contents.toList)).run.run s with ⟨e | plan, s₁⟩
        · rfl
        · rw [hplan] at hends
          dsimp only at hends ⊢
          rw [run_action_bind] at hends
          rw [run_action_bind, run_action_bind]
          rcases hwrite : (write module.out (rewriteModule plan module.contents)).run.run s₁ with
            ⟨e | done, s₂⟩
          · rfl
          · rw [hwrite] at hends
            exact ih (Nat.le_of_succ_le_succ hle) hends

theorem Task.run_of_le (task : Task ε σ) {fuel fuel' : Nat} (hle : fuel ≤ fuel') {s : σ}
    (hends : (task.run plugin fuel s).1 ≠ .ok false) :
    task.run plugin fuel' s = task.run plugin fuel s :=
  copyAll_of_le hle hends

end

/-! ## What is fetched -/

theorem mustInline_of_resolve {p : Policy} {r : Request} {path : String}
    (h : p.resolve r = .resolved path .http) : p.mustInline path = true := by
  unfold Policy.resolve at h
  dsimp only at h
  split at h
  · nomatch h
  · split at h
    · split at h
      · rename_i hinline
        obtain ⟨rfl, -⟩ := Resolution.resolved.inj h
        exact hinline
      · nomatch h
    · split at h
      · split at h
        · rename_i hinline
          obtain ⟨rfl, -⟩ := Resolution.resolved.inj h
          exact hinline
        · nomatch h
      · split at h
        · nomatch h
        · nomatch (Resolution.resolved.inj h).2

/-- What is fetched belongs into the bundle, or is fetched for the compiler. -/
theorem mustInline_or_of_fetched {p : Policy} {t : Trace}
    (h : t.Sound p.resolve fun path => [p.loadUrl path]) {url : String} (hurl : url ∈ t.fetched) :
    p.mustInline url = true ∨ url = p.distUrl ∧ p.transformerUrl ∈ t.loaded := by
  rw [h.fetched, List.mem_flatMap] at hurl
  obtain ⟨path, hpath, hurl⟩ := hurl
  obtain rfl := List.mem_singleton.mp hurl
  obtain ⟨r, hr⟩ := h.resolved path hpath
  by_cases heq : path = p.transformerUrl
  · right
    constructor
    · exact if_pos heq
    · exact heq ▸ hpath
  · left
    rw [Policy.loadUrl_of_ne heq]
    exact mustInline_of_resolve hr

/-! ## Every key once -/

/-- The keys that a run loads, whatever its bound. -/
def Task.keys (task : Task ε σ) (plugin : Plugin (Traced ε σ)) (s : σ) : Set String :=
  {key | ∃ fuel, key ∈ (task.watched plugin fuel s).2.2.loaded.map vendorKey}

theorem Task.finite_keys {task : Task ε σ} {plugin : Plugin (Traced ε σ)} {s : σ} {fuel : Nat}
    (hends : (task.watched plugin fuel s).1 ≠ .ok false) : (task.keys plugin s).Finite := by
  have hfinite : (⋃ n ∈ Set.Iic fuel,
      {key | key ∈ (task.watched plugin n s).2.2.loaded.map vendorKey}).Finite :=
    (Set.finite_Iic fuel).biUnion fun n _ => List.finite_toSet _
  apply hfinite.subset
  rintro key ⟨n, hkey⟩
  by_cases hle : n ≤ fuel
  · exact Set.mem_biUnion hle hkey
  · -- The run had ended before.
    have heq : task.watched plugin n s = task.watched plugin fuel s :=
      copyAll_of_le (Nat.le_of_not_le hle) hends
    rw [heq] at hkey
    exact Set.mem_biUnion (Set.mem_Iic.mpr (Nat.le_refl fuel)) hkey

theorem Task.length_le_keys {task : Task ε σ} {plugin : Plugin (Traced ε σ)} {s : σ} {fuel : Nat}
    (hfinite : (task.keys plugin s).Finite)
    (honce : ((task.watched plugin fuel s).2.2.loaded.map vendorKey).Nodup) :
    (task.watched plugin fuel s).2.2.loaded.length ≤ (task.keys plugin s).ncard := by
  have hsub : (((task.watched plugin fuel s).2.2.loaded.map vendorKey).toFinset : Set String) ⊆
      task.keys plugin s := by
    intro key hkey
    exact ⟨fuel, List.mem_toFinset.mp hkey⟩
  have hle := Set.ncard_le_ncard hsub hfinite
  rw [Set.ncard_coe_finset, List.toFinset_card_of_nodup honce, List.length_map] at hle
  exact hle

/-- A run that a policy drives loads no key twice and fetches only what belongs into the bundle or
stands in for the compiler.  Where it meets finitely many keys, it ends. -/
theorem bundle_loads_once (p : Policy) (get : String → ExceptT ε (StateM σ) RemoteText)
    (task : Task ε σ) (s : σ) :
    (∀ fuel, ∃ t : Trace,
      task.watched (p.plugin (notedGet get)) fuel s =
        ((task.run (p.plugin get) fuel s).1, (task.run (p.plugin get) fuel s).2, t) ∧
      (t.loaded.map vendorKey).Nodup ∧ t.fetched = t.loaded.map p.loadUrl ∧
      ∀ url ∈ t.fetched,
        p.mustInline url = true ∨ url = p.distUrl ∧ p.transformerUrl ∈ t.loaded) ∧
    ((task.keys (p.plugin (notedGet get)) s).Finite →
      ∀ fuel > (task.keys (p.plugin (notedGet get)) s).ncard,
        (task.run (p.plugin get) fuel s).1 ≠ .ok false ∧
        ∀ more ≥ fuel, task.run (p.plugin get) more s = task.run (p.plugin get) fuel s) := by
  have hloads := notesLoads_policy p get
  have heq := fun fuel => task.watched_eq (pluginErases_policy p get) fuel s
  constructor
  · intro fuel
    have hsound := task.sound_watched hloads fuel s
    refine ⟨_, heq fuel, hsound.once, ?_, fun url hurl => mustInline_or_of_fetched hsound hurl⟩
    rw [hsound.fetched]
    exact List.map_eq_flatMap.symm
  · intro hfinite fuel hfuel
    have hends : (task.run (p.plugin get) fuel s).1 ≠ .ok false := by
      intro hfalse
      have hwatched : (task.watched (p.plugin (notedGet get)) fuel s).1 = .ok false := by
        rw [heq fuel]
        exact hfalse
      have hended := task.ended_watched hloads hwatched
      have hlength := task.length_le_keys hfinite hended.sound.once
      have hbound := hended.bound rfl
      omega
    exact ⟨hends, fun more hmore => task.run_of_le hmore hends⟩

/-- An app that imports nothing by other names. -/
def plainPolicy : Policy := ⟨"https://f", "https://u", "http://h", .empty⟩

/-- A server with two modules that import one another, by a new version with each answer. -/
def renewing (url : String) : ExceptT Unit (StateM Nat) RemoteText :=
  ExceptT.mk fun n =>
    let other := if "http://h/a".toList.isPrefixOf url.toList then "/b.ts" else "/a.ts"
    (.ok ⟨"import \"" ++ other ++ "?v=" ++ toString n ++ "\";", none⟩, n + 1)

/-- A program that imports one of them. -/
def renewingTask : Task Unit Nat where
  unloaded _ := ()
  write _ _ := pure ()
  entryName := "server.js"
  injected := []
  contents := "import \"http://h/a.ts\";"

theorem renewingTask_ends :
    (renewingTask.watched (plainPolicy.plugin (notedGet renewing)) 3 0).1 ≠ .ok false := by
  have hwhole : ((renewingTask.watched (plainPolicy.plugin (notedGet renewing)) 3 0).1.toOption ==
      some true) = true := by decide +kernel
  intro hends
  rw [hends] at hwhole
  nomatch hwhole

/-- Two modules that import one another by new versions are loaded once each. -/
theorem bundle_loads_once_renewing :
    (renewingTask.keys (plainPolicy.plugin (notedGet renewing)) 0).Finite ∧
    ∀ fuel > (renewingTask.keys (plainPolicy.plugin (notedGet renewing)) 0).ncard,
      (renewingTask.run (plainPolicy.plugin renewing) fuel 0).1 ≠ .ok false ∧
      ∀ more ≥ fuel, renewingTask.run (plainPolicy.plugin renewing) more 0 =
        renewingTask.run (plainPolicy.plugin renewing) fuel 0 :=
  have hfinite := Task.finite_keys renewingTask_ends
  ⟨hfinite, (bundle_loads_once plainPolicy renewing renewingTask 0).2 hfinite⟩

end Waymark.Bundle
