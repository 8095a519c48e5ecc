import Mathlib.Logic.Relation
import Waymark.Graph
import Waymark.Proofs.Text.Order
/-!
# Who is affected by a change

A change of a module affects the modules that depend on it, those that depend on these,
and so on.  They are found by going through a queue, starting from the module itself;
modules may depend on each other in a ring, and the module itself is left out even then.

What carries the search is that of every module met so far, either it is still in the
queue or all its dependents have been met.

## Main results

* `mem_dependents_iff` — dependents by their records.
* `spread_closed` — the search leaves out no dependent of what it has met.
* `mem_affected_iff` — the affected modules are those that depend on the module, at any
  distance.
* `affected_lists` — the affected modules are the recorded ones from which the module is reached
  along dependencies, each once and in the order of octets.
-/

namespace Waymark

namespace Graph

variable {g : Graph} {origin : Specifier}

theorem mem_dependents_iff {s t : Specifier} :
    t ∈ g.dependents s ↔ ∃ r, g.get? t = some r ∧ s ∈ r.deps := by
  simp only [mem_dependents, Dict.mem_entries_iff]
  exact Iff.rfl

theorem mem_freshDependents {seen : List Specifier} {x d : Specifier} :
    d ∈ g.freshDependents origin seen x ↔ d ∈ g.dependents x ∧ d ≠ origin ∧ d ∉ seen := by
  simp [freshDependents]

/-! ## The search -/

/-- If of all that was met only what is in the queue has dependents that were not met, then in the
end nothing has. -/
theorem spread_closed (seen queue : List Specifier)
    (h : ∀ x, x = origin ∨ x ∈ seen →
      x ∈ queue ∨ ∀ d ∈ g.dependents x, d = origin ∨ d ∈ seen) :
    ∀ x, x = origin ∨ x ∈ g.spread origin seen queue →
      ∀ d ∈ g.dependents x, d = origin ∨ d ∈ g.spread origin seen queue := by
  induction seen, queue using spread.induct g origin with
  | case1 seen =>
    intro x hx d hd
    rw [spread] at hx ⊢
    rcases h x hx with hqueue | hmet
    · nomatch hqueue
    · exact hmet d hd
  | case2 seen y queue fresh ih =>
    rw [spread]
    apply ih
    intro x hx
    by_cases hy : x = y
    · right
      intro d hd
      by_cases horigin : d = origin
      · exact Or.inl horigin
      · right
        by_cases hseen : d ∈ seen
        · exact List.mem_append_left _ hseen
        · exact List.mem_append_right _ (mem_freshDependents.2 ⟨hy ▸ hd, horigin, hseen⟩)
    · by_cases hfresh : x ∈ fresh
      · exact Or.inl (List.mem_append_right _ hfresh)
      · have hmet : x = origin ∨ x ∈ seen :=
          hx.imp_right fun hx => (List.mem_append.1 hx).resolve_right hfresh
        rcases h x hmet with hqueue | hdependents
        · left
          exact List.mem_append_left _ ((List.mem_cons.1 hqueue).resolve_left hy)
        · right
          intro d hd
          exact (hdependents d hd).imp_right (List.mem_append_left _)

/-- Whatever holds of all that was met and is handed on from modules to their dependents holds of
all that is met. -/
theorem spread_induction {P : Specifier → Prop}
    (hnext : ∀ x, P x → ∀ d ∈ g.dependents x, d ≠ origin → P d) (seen queue : List Specifier)
    (hseen : ∀ x ∈ seen, x ≠ origin ∧ P x) (hqueue : ∀ x ∈ queue, P x) :
    ∀ x ∈ g.spread origin seen queue, x ≠ origin ∧ P x := by
  induction seen, queue using spread.induct g origin with
  | case1 seen =>
    rw [spread]
    exact hseen
  | case2 seen y queue fresh ih =>
    have hy : P y := hqueue y (List.mem_cons_self ..)
    have hfresh : ∀ x ∈ fresh, x ≠ origin ∧ P x := by
      intro x hx
      obtain ⟨hdependent, hne, -⟩ := mem_freshDependents.1 hx
      exact ⟨hne, hnext y hy x hdependent hne⟩
    rw [spread]
    apply ih
    · intro x hx
      rcases List.mem_append.1 hx with hx | hx
      · exact hseen x hx
      · exact hfresh x hx
    · intro x hx
      rcases List.mem_append.1 hx with hx | hx
      · exact hqueue x (List.mem_cons_of_mem _ hx)
      · exact (hfresh x hx).2

/-! ## What is affected -/

/-- A module depends on another one, directly or through others. -/
def DependsOn (g : Graph) : Specifier → Specifier → Prop :=
  Relation.TransGen fun s t => t ∈ g.dependents s

theorem mem_affected_iff {s t : Specifier} :
    t ∈ g.affected s ↔ t ≠ s ∧ g.DependsOn s t := by
  rw [affected, mem_ordered]
  constructor
  · intro h
    have hhanded : ∀ x, (x = s ∨ g.DependsOn s x) → ∀ d ∈ g.dependents x, d ≠ s →
        (d = s ∨ g.DependsOn s d) := by
      rintro x (rfl | hx) d hd -
      · exact Or.inr (.single hd)
      · exact Or.inr (hx.tail hd)
    obtain ⟨hne, hdepends⟩ := spread_induction hhanded [] [s] (by simp) (by simp) t h
    exact ⟨hne, hdepends.resolve_left hne⟩
  · rintro ⟨hne, hdepends⟩
    have hclosed : ∀ x, x = s ∨ x ∈ g.spread s [] [s] →
        ∀ d ∈ g.dependents x, d = s ∨ d ∈ g.spread s [] [s] :=
      spread_closed [] [s] (by simp)
    have hmet : t = s ∨ t ∈ g.spread s [] [s] := by
      induction hdepends with
      | single hd => exact hclosed s (Or.inl rfl) _ hd
      | @tail x y _ hd ih =>
        by_cases hx : x = s
        · exact hclosed x (Or.inl hx) _ hd
        · exact hclosed x (ih hx) _ hd
    exact hmet.resolve_left hne

/-- A module that lists the changed one among its dependencies is affected. -/
theorem mem_affected_of_deps {s t : Specifier} {r : ModuleRecord} (ht : g.get? t = some r)
    (hs : s ∈ r.deps) (hne : t ≠ s) : t ∈ g.affected s :=
  mem_affected_iff.2 ⟨hne, .single (mem_dependents_iff.2 ⟨r, ht, hs⟩)⟩

/-! ## The list -/

/-- The record of `t` lists `s` among its dependencies. -/
def Lists (g : Graph) (t s : Specifier) : Prop := ∃ r, g.get? t = some r ∧ s ∈ r.deps

/-- From `t` one comes to `s` by following one dependency or more. -/
def Reaches (g : Graph) : Specifier → Specifier → Prop := Relation.TransGen g.Lists

/-- Who depends on a module reaches it, and the other way round. -/
theorem dependsOn_iff_reaches {s t : Specifier} : g.DependsOn s t ↔ g.Reaches t s := by
  have hstep : (fun s t => t ∈ g.dependents s) = Function.swap g.Lists := by
    funext s t
    exact propext mem_dependents_iff
  rw [DependsOn, hstep]
  exact Relation.transGen_swap

/-- Dependencies are followed from recorded modules only. -/
theorem Reaches.mem_keys {s t : Specifier} (h : g.Reaches t s) : t ∈ g.records.keys := by
  obtain ⟨x, ⟨r, hr, -⟩, -⟩ := Relation.TransGen.head'_iff.1 h
  exact List.mem_map.2 ⟨(t, r), Dict.mem_entries_iff.2 hr, rfl⟩

/-- In any graph, with rings or dependencies on modules that have no record, the modules affected
by a change are listed in strictly ascending order of their octets, so that none stands there
twice, and they are exactly the recorded modules other than the changed one from which that one is
reached along one dependency or more. -/
theorem affected_lists (g : Graph) (s : Specifier) :
    (g.affected s).Pairwise
      (fun a b => Text.Utf8.encode a.toList < Text.Utf8.encode b.toList) ∧
    ∀ t, t ∈ g.affected s ↔ t ∈ g.records.keys ∧ t ≠ s ∧ g.Reaches t s := by
  constructor
  · exact (Text.Utf8.pairwise_ordered (g.spread s [] [s])).imp Text.Utf8.encode_lt_iff.2
  · intro t
    rw [mem_affected_iff, dependsOn_iff_reaches]
    exact ⟨fun ⟨hne, hreaches⟩ => ⟨hreaches.mem_keys, hne, hreaches⟩, fun h => h.2⟩

theorem lists_iff {s t : Specifier} :
    g.Lists t s ↔ ∃ deps, (g.get? t).map (·.deps) = some deps ∧ s ∈ deps := by
  constructor
  · rintro ⟨r, hr, hs⟩
    exact ⟨r.deps, by rw [hr, Option.map_some], hs⟩
  · rintro ⟨deps, hdeps, hs⟩
    obtain ⟨r, hr, rfl⟩ := Option.map_eq_some_iff.1 hdeps
    exact ⟨r, hr, hs⟩

/-- Who is affected depends on nothing but the dependencies that are recorded. -/
theorem affected_congr {g g' : Graph}
    (h : ∀ k, (g'.get? k).map (·.deps) = (g.get? k).map (·.deps)) (s : Specifier) :
    g'.affected s = g.affected s := by
  have hlists : g'.Lists = g.Lists := by
    funext t u
    rw [eq_iff_iff, lists_iff, lists_iff, h]
  have hmem : ∀ t, t ∈ g'.affected s ↔ t ∈ g.affected s := by
    intro t
    rw [mem_affected_iff, mem_affected_iff, dependsOn_iff_reaches, dependsOn_iff_reaches,
      Reaches, Reaches, hlists]
  have hperm : (g'.affected s).Perm (g.affected s) :=
    (List.perm_ext_iff_of_nodup (nodup_ordered _) (nodup_ordered _)).2 hmem
  refine hperm.eq_of_pairwise ?_ (Text.Utf8.pairwise_ordered _) (Text.Utf8.pairwise_ordered _)
  intro a b _ _ hab hba
  exact absurd (String.lt_trans hab hba) (String.lt_irrefl a)

end Graph
end Waymark
