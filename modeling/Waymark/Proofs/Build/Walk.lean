import Waymark.Proofs.Build.Turns
/-!
# The modules that a client reaches

What is written for the client is all that can be reached from some seeds, and no more:
the least set that holds the seeds and, with a module, whatever that module leads to.
Every module of it is requested once, in the level of its distance, however many
modules lead to it and whether or not it leads back to itself.

The bound on a walk only has to do with endless ones.  A set of modules that is finite
is walked to its end within as many levels as it has modules, and from there on the
bound makes no difference.

## Main results

* `collected_of_run` — what a walk has collected when it ends.
* `collect_emitLevel` — walks end, collect what is reached, and fail where a module is not served.
* `collectModules_collected` — the same of the walk that a build makes.
-/

namespace Waymark.Build

open App

section
variable {app : App} {outDir : String} {seeds : List Specifier}

/-! ## What a walk collects -/

theorem emits_emitLevel (hsteady : Steady app outDir seeds) :
    Emits (emitLevel outDir) (leadsTo app) (Served app) (reached (leadsTo app) seeds)
      (fun emitted a => Since app outDir seeds emitted app a) where
  level := by
    intro emitted level found a a' hsince hlevel hrun
    obtain ⟨hstep, hserved, rfl⟩ := emitLevel_found hsteady hsince hlevel hrun
    exact ⟨hsince.trans hstep, hserved, fun t => List.mem_flatMap⟩

/-- A walk that ended with these modules has collected what can be reached, level by level. -/
structure Collected (app : App) (seeds modules : List Specifier) (app' : App) : Prop where
  least : IsLeast {S | ClosedUnder (leadsTo app) seeds S} {s | s ∈ modules}
  nodup : modules.Nodup
  /-- The requests that were made are those for the modules of the levels, in order. -/
  levels : ∃ (levels : List (List Specifier)) (uris : List Uri),
    (∀ n s, s ∈ levels.getD n [] ↔ AtDistance (leadsTo app) seeds n s) ∧
      levels.flatten.Nodup ∧ (∀ s, s ∈ levels.flatten ↔ s ∈ modules) ∧
        app'.requests = app.requests ++ uris ∧
          List.Forall₂ (fun s uri => Uri.parse (Specifier.requestPath s) = .ok uri)
            levels.flatten uris
  served : ∀ s ∈ modules, Served app s

theorem forall₂_filterMap_uriOf? {ss : List Specifier} (h : ∀ s ∈ ss, Served app s) :
    List.Forall₂ (fun s uri => Uri.parse (Specifier.requestPath s) = .ok uri) ss
      (ss.filterMap uriOf?) := by
  induction ss with
  | nil => exact .nil
  | cons s ss ih =>
    obtain ⟨uri, huri, -⟩ := h s (List.mem_cons_self ..)
    rw [List.filterMap_cons_some (uriOf?_of_parse huri)]
    exact .cons huri (ih fun t ht => h t (List.mem_cons_of_mem _ ht))

theorem collected_of_run (hsteady : Steady app outDir seeds) {bound : Nat}
    {modules : List Specifier} {app' : App}
    (hrun : (collect (emitLevel outDir) bound seeds).run.run app = (.ok (some modules), app')) :
    Collected app seeds modules app' := by
  obtain ⟨levels, hwalked, hserved, hsince⟩ :=
    collect_levels (emits_emitLevel hsteady) (Since.refl app) hrun
  obtain ⟨hnodup, hmem, -⟩ := hwalked.whole modules rfl
  have hflatten : ∀ s, s ∈ levels.flatten ↔ s ∈ modules := by
    intro s
    rw [hmem]
    simp
  have hreached : {s | s ∈ modules} = reached (leadsTo app) seeds :=
    Set.ext fun s => hwalked.mem_iff s
  exact
    { least := hreached ▸ isLeast_reached
      nodup := hnodup
      levels := ⟨levels, levels.flatten.filterMap uriOf?, hwalked.mem_getD,
        hwalked.ascend.nodup_flatten, hflatten, hsince.requests, forall₂_filterMap_uriOf? hserved⟩
      served := fun s hs => hserved s ((hflatten s).2 hs) }

/-- A walk over finitely many modules ends, and the bound makes no difference to it.  A walk that
ends well has collected what can be reached.  A module that is not served makes the walk fail, at
the latest when its level is come to. -/
theorem collect_emitLevel (hsteady : Steady app outDir seeds) :
    ((members app seeds).Finite → ∀ bound, (members app seeds).ncard ≤ bound →
      ((collect (emitLevel outDir) bound seeds).run.run app).1 ≠ .ok none ∧
        (collect (emitLevel outDir) bound seeds).run.run app =
          (collect (emitLevel outDir) (members app seeds).ncard seeds).run.run app) ∧
      (∀ bound modules app',
        (collect (emitLevel outDir) bound seeds).run.run app = (.ok (some modules), app') →
          Collected app seeds modules app') ∧
      ∀ bound n s, AtDistance (leadsTo app) seeds n s → ¬Served app s → n < bound →
        ∃ e, ((collect (emitLevel outDir) bound seeds).run.run app).1 = .error e := by
  have hends : (members app seeds).Finite → ∀ bound, (members app seeds).ncard ≤ bound →
      ((collect (emitLevel outDir) bound seeds).run.run app).1 ≠ .ok none := by
    intro hfinite bound hbound hnone
    rcases hrun : (collect (emitLevel outDir) bound seeds).run.run app with ⟨result, app'⟩
    rw [hrun] at hnone
    dsimp only at hnone
    subst hnone
    obtain ⟨levels, hwalked, -, -⟩ :=
      collect_levels (emits_emitLevel hsteady) (Since.refl app) hrun
    obtain ⟨-, s, hs⟩ := hwalked.cut rfl
    have hlt := lt_ncard_of_atDistance hfinite hs
    unfold members at hbound
    omega
  refine ⟨?_, ?_, ?_⟩
  · intro hfinite bound hbound
    refine ⟨hends hfinite bound hbound, ?_⟩
    exact collectWithin_of_le hbound rfl (hends hfinite _ (Nat.le_refl _))
  · intro bound modules app' hrun
    exact collected_of_run hsteady hrun
  · intro bound n s hs hserved hn
    rcases hrun : (collect (emitLevel outDir) bound seeds).run.run app with ⟨e | result, app'⟩
    · exact ⟨e, rfl⟩
    · refine absurd ?_ hserved
      obtain ⟨levels, hwalked, hall, -⟩ :=
        collect_levels (emits_emitLevel hsteady) (Since.refl app) hrun
      refine hall s (hwalked.ascend.mem_flatten.2 ⟨n, ?_, (Nat.zero_add n).symm ▸ hs⟩)
      cases result with
      | none => rwa [(hwalked.cut rfl).1]
      | some modules =>
        by_contra hlevels
        have hmem := (hwalked.mem_getD n s).2 hs
        rw [List.getD_eq_default _ _ (Nat.not_lt.1 hlevels)] at hmem
        nomatch hmem

/-- Two modules that lead to each other, one of them to itself as well. -/
theorem collect_emitLevel_cycle :
    let around : Surroundings :=
      ⟨fun url =>
        if url = "https://h/a.js" then .ok ⟨"import './b.js';", none⟩
        else if url = "https://h/b.js" then .ok ⟨"import './b.js'; import './a.js';", none⟩
        else .error (.request url),
        fun _ => none, fun _ s _ => .error (.request s)⟩
    let app : App := ⟨around, Pipeline.standard true ImportMap.empty, ⟨"/app", Dict.empty⟩, {},
      none, RouteTable.empty, 3000, 3000, Dict.empty, 7, [], []⟩
    Steady app "/app/out" ["https://h/a.js"] ∧
      ∃ app', (collect (emitLevel "/app/out") 2 ["https://h/a.js"]).run.run app =
          (.ok (some ["https://h/a.js", "https://h/b.js"]), app') ∧
        Collected app ["https://h/a.js"] ["https://h/a.js", "https://h/b.js"] app' := by
  intro around app
  have ha : leadsTo app "https://h/a.js" = ["https://h/b.js"] := by decide +kernel
  have hb : leadsTo app "https://h/b.js" = ["https://h/b.js", "https://h/a.js"] := by
    decide +kernel
  have hclosed : ClosedUnder (leadsTo app) ["https://h/a.js"]
      {s | s = "https://h/a.js" ∨ s = "https://h/b.js"} := by
    refine ⟨by simp, ?_⟩
    rintro s (rfl | rfl) t ht
    · rw [ha] at ht
      simpa using Or.inr ht
    · rw [hb] at ht
      simpa [or_comm] using ht
  have hmembers : ∀ s ∈ members app ["https://h/a.js"], s ∈ ["https://h/a.js", "https://h/b.js"] :=
    fun s hs => by simpa using isLeast_reached.2 hclosed hs
  have hrequest : ∀ s ∈ ["https://h/a.js", "https://h/b.js"], requestOf? s = some ⟨s, false⟩ := by
    decide +kernel
  have hremote : ∀ s ∈ ["https://h/a.js", "https://h/b.js"],
      app.pipeline.classify s = .script ∧ Specifier.isRemote s = true ∧ app.homeUri? s = none := by
    decide +kernel
  have hnext : ∀ s ∈ ["https://h/a.js", "https://h/b.js"],
      ∀ t ∈ ["https://h/a.js", "https://h/b.js"],
        nextSpecifiers (askOne (askOne app s) t).graph s = leadsTo app s := by
    decide +kernel
  have hsteady : Steady app "/app/out" ["https://h/a.js"] := by
    refine steady_of_remote ⟨true, ImportMap.empty, rfl⟩ (fun _ => rfl) ?_ ?_
    · intro s hs r hr
      rw [hrequest s (hmembers s hs)] at hr
      obtain rfl := Option.some.inj hr
      exact hremote s (hmembers s hs)
    · intro s hs t ht
      exact hnext s (hmembers s hs) t (hmembers t ht)
  have hresult : ((collect (emitLevel "/app/out") 2 ["https://h/a.js"]).run.run app).1 =
      .ok (some ["https://h/a.js", "https://h/b.js"]) := eq_ok_of_toOption (by decide +kernel)
  rcases hrun : (collect (emitLevel "/app/out") 2 ["https://h/a.js"]).run.run app with
    ⟨result, app'⟩
  rw [hrun] at hresult
  dsimp only at hresult
  subst hresult
  exact ⟨hsteady, app', rfl, (collect_emitLevel hsteady).2.1 2 _ app' hrun⟩

/-- So has a walk that a build makes. -/
theorem collectModules_collected (hsteady : Steady app outDir seeds) {modules : List Specifier}
    {bound : Nat} {app' : App}
    (hrun : (collectModulesWithin bound outDir seeds).run.run app = (.ok modules, app')) :
    Collected app seeds modules app' :=
  collected_of_run hsteady (collect_of_collectModules hrun)

end

end Waymark.Build
