import Mathlib.Data.List.Forall2
import Waymark.Proofs.Bundle.Trace
/-!
# What a bundling run does

The modules of a run are the entry and those the plugin gave for it.  At any time
some of them are written and the others wait in the queue, in the order they came in
(`Queued`).  A module is asked for when an import of it is planned whose key has not
been seen; the keys seen are those of the modules asked for, so that none of them is
asked for again.

A run that ends has written all its modules.  One that meets its bound has asked for
at least as many modules as it has written.

## Main results

* `ensures_planAll` — planning a module asks for what its imports mean and has not been seen.
* `ensures_copyAll` — a walk keeps the modules of the run apart into written and queued ones.
* `Task.sound_watched` — however a run ends, nothing was asked for twice.
* `Task.ended_watched` — what a run has been given and written when it ends.
-/

namespace Waymark.Bundle

variable {ε σ : Type}

/-! ## Modules of a run -/

/-- The modules of a run: the entry, and what was given. -/
def Trace.modules (entry : Pending) (t : Trace) : List Pending :=
  entry :: t.given.map fun (path, loaded) => ⟨copyOf path, loaded.contents, some path, .http⟩

/-- The trace after a module was asked for, which fetches what `fetches` says. -/
def Trace.ask (fetches : String → List String) (path : String) (t : Trace) : Trace :=
  { t with loaded := t.loaded ++ [path], fetched := t.fetched ++ fetches path }

/-- Whether the loads of a plugin are noted, each with the texts it fetches. -/
def NotesLoads (plugin : Plugin (Traced ε σ)) (fetches : String → List String) : Prop :=
  ∀ path t₀, Ensures (· = t₀) (plugin.load path .http)
    (fun given t => t = (t₀.ask fetches path).give path given) (· = t₀.ask fetches path)

/-- The loads of a plugin are noted if, apart from that, they only fetch. -/
theorem notesLoads_noted {plugin : Plugin (Traced ε σ)} {fetches : String → List String}
    (h : ∀ path (t₀ : Trace), Ensures (· = t₀.load path) (plugin.load path .http)
      (fun _ t => t = t₀.ask fetches path) (· = t₀.ask fetches path)) :
    NotesLoads plugin.noted fetches := by
  intro path t₀
  have hgive : Ensures (· = t₀.load path) (notingResult (.give path) (plugin.load path .http))
      (fun given t => t = (t₀.ask fetches path).give path given) (· = t₀.ask fetches path) :=
    (h path t₀).notingResult fun given _ ht => congrArg (Trace.give path given) ht
  exact hgive.noting fun _ ht => congrArg (Trace.load path) ht

theorem notesLoads_lifted (plugin : Plugin (ExceptT ε (StateM σ))) :
    NotesLoads plugin.lifted.noted fun _ => [] := by
  apply notesLoads_noted
  intro path t₀
  have hask : t₀.load path = t₀.ask (fun _ => []) path := by simp [Trace.load, Trace.ask]
  rw [hask]
  exact Ensures.lifted (fun _ _ ht => ht) fun _ ht => ht

theorem notesLoads_policy (p : Policy) (get : String → ExceptT ε (StateM σ) RemoteText) :
    NotesLoads (p.plugin (notedGet get)).noted fun path => [p.loadUrl path] := by
  apply notesLoads_noted
  intro path t₀
  have hlifted : Ensures (· = t₀.ask (fun path => [p.loadUrl path]) path)
      (lifted (get (p.loadUrl path)))
      (fun _ t => t = t₀.ask (fun path => [p.loadUrl path]) path)
      (· = t₀.ask (fun path => [p.loadUrl path]) path) :=
    Ensures.lifted (fun _ _ ht => ht) fun _ ht => ht
  have hget : Ensures (· = t₀.load path) (notedGet get (p.loadUrl path))
      (fun _ t => t = t₀.ask (fun path => [p.loadUrl path]) path)
      (· = t₀.ask (fun path => [p.loadUrl path]) path) :=
    hlifted.noting fun _ ht => congrArg (Trace.fetch (p.loadUrl path)) ht
  refine hget.bind fun content => ?_
  exact Ensures.pure fun t (ht : t = t₀.ask (fun path => [p.loadUrl path]) path) => ht

/-! ## What has been asked for -/

/-- What holds of a trace at any time: no key is asked for twice, what is asked for is an import
that is to be copied, and what is fetched is fetched for what is asked for. -/
structure Trace.Sound (resolve : Request → Resolution) (fetches : String → List String)
    (t : Trace) : Prop where
  once : (t.loaded.map vendorKey).Nodup
  resolved : ∀ path ∈ t.loaded, ∃ r, resolve r = .resolved path .http
  fetched : t.fetched = t.loaded.flatMap fetches

theorem Trace.Sound.ask {resolve : Request → Resolution} {fetches : String → List String}
    {t : Trace} (h : t.Sound resolve fetches) {path : String} {r : Request}
    (hr : resolve r = .resolved path .http) (hnew : vendorKey path ∉ t.loaded.map vendorKey) :
    (t.ask fetches path).Sound resolve fetches where
  once := by
    show ((t.loaded ++ [path]).map vendorKey).Nodup
    rw [List.map_append, List.nodup_append]
    refine ⟨h.once, by simp, ?_⟩
    rintro key hkey _ hpath rfl
    rw [List.map_singleton, List.mem_singleton] at hpath
    exact hnew (hpath ▸ hkey)
  resolved := by
    intro path' hpath'
    rcases List.mem_append.mp hpath' with hpath' | hpath'
    · exact h.resolved path' hpath'
    · exact ⟨r, List.mem_singleton.mp hpath' ▸ hr⟩
  fetched := by
    show t.fetched ++ fetches path = (t.loaded ++ [path]).flatMap fetches
    rw [h.fetched, List.flatMap_append, List.flatMap_singleton]

/-- What a specifier of a module is replaced with, as its first mention is decided. -/
def Decided (resolve : Request → Resolution) (module : Pending) (seen : List String)
    (specifier target : String) : Prop :=
  ∃ m ∈ Script.mentions module.contents.toList, String.ofList m.specifier = specifier ∧
    match resolve (module.request m) with
    | .external path => target = path
    | .resolved path .file => target = path
    | .resolved path .http => target = relativeImport module.out (copyOf path) ∧ vendorKey path ∈ seen

theorem Decided.mono {resolve : Request → Resolution} {module : Pending} {seen seen' : List String}
    {specifier target : String} (h : Decided resolve module seen specifier target)
    (hseen : seen ⊆ seen') : Decided resolve module seen' specifier target := by
  obtain ⟨m, hm, hspecifier, htarget⟩ := h
  refine ⟨m, hm, hspecifier, ?_⟩
  split at htarget
  · exact htarget
  · exact htarget
  · exact ⟨htarget.1, hseen htarget.2⟩

/-- A file as it is written for a module: every import in it is replaced as decided. -/
def Rewritten (resolve : Request → Resolution) (seen : List String) (module : Pending)
    (file : String × String) : Prop :=
  ∃ plan : Plan, file = (module.out, rewriteModule plan module.contents) ∧
    (∀ m ∈ Script.mentions module.contents.toList,
      (plan.replacements.lookup (String.ofList m.specifier)).isSome) ∧
    ∀ specifier target, plan.replacements.lookup specifier = some target →
      Decided resolve module seen specifier target

theorem Rewritten.mono {resolve : Request → Resolution} {seen seen' : List String}
    {module : Pending} {file : String × String} (h : Rewritten resolve seen module file)
    (hseen : seen ⊆ seen') : Rewritten resolve seen' module file := by
  obtain ⟨plan, hfile, hall, hdecided⟩ := h
  exact ⟨plan, hfile, hall, fun specifier target hlookup =>
    (hdecided specifier target hlookup).mono hseen⟩

/-! ## Planning -/

/-- What holds while the imports of a module are planned, the run having come to `t₀` before. -/
structure Planned (resolve : Request → Resolution) (fetches : String → List String)
    (entry module : Pending) (t₀ : Trace) (plan : Plan) (t : Trace) : Prop where
  sound : t.Sound resolve fetches
  given : t.given.map (·.1) = t.loaded
  seen : plan.seen = t.loaded.map vendorKey
  grows : t₀.loaded <+: t.loaded
  modules : t.modules entry = t₀.modules entry ++ plan.fetched
  written : t.written = t₀.written
  decided : ∀ specifier target, plan.replacements.lookup specifier = some target →
    Decided resolve module plan.seen specifier target

section
variable {plugin : Plugin (Traced ε σ)} {fetches : String → List String} {unloaded : String → ε}
  {entry module : Pending} {t₀ : Trace} {plan : Plan}

theorem ensures_planCopy (hloads : NotesLoads plugin fetches) {path : String} {r : Request}
    (hr : plugin.resolve r = .resolved path .http) :
    Ensures (Planned plugin.resolve fetches entry module t₀ plan)
      (planCopy plugin unloaded plan path)
      (fun plan' t => Planned plugin.resolve fetches entry module t₀ plan' t ∧
        vendorKey path ∈ plan'.seen ∧ plan'.replacements = plan.replacements)
      (Trace.Sound plugin.resolve fetches) := by
  unfold planCopy
  split
  · rename_i hseen
    exact Ensures.pure fun t ht => ⟨ht, hseen, rfl⟩
  · rename_i hnew
    intro s t ht
    have hsound : (t.ask fetches path).Sound plugin.resolve fetches :=
      ht.sound.ask hr (ht.seen ▸ hnew)
    have hload : Ensures (· = t) (plugin.load path .http)
        (fun given t' => t' = (t.ask fetches path).give path given)
        (Trace.Sound plugin.resolve fetches) := by
      apply (hloads path t).weaken (fun _ h => h) (fun _ _ h => h)
      rintro _ rfl
      exact hsound
    refine hload.bind ?_ s t rfl
    · rintro (_ | loaded)
      · refine Ensures.throw ?_
        rintro _ rfl
        exact ⟨hsound.once, hsound.resolved, hsound.fetched⟩
      · refine Ensures.pure ?_
        rintro _ rfl
        have hseen : plan.seen ++ [vendorKey path] = (t.loaded ++ [path]).map vendorKey := by
          rw [List.map_append, ht.seen, List.map_singleton]
        refine ⟨⟨⟨hsound.once, hsound.resolved, hsound.fetched⟩, ?_, hseen, ?_, ?_, ht.written, ?_⟩,
          List.mem_append_right _ (List.mem_singleton.mpr rfl), rfl⟩
        · show (t.given ++ [(path, loaded)]).map (·.1) = t.loaded ++ [path]
          rw [List.map_append, ht.given, List.map_singleton]
        · exact ht.grows.trans (List.prefix_append _ _)
        · have hmodules := ht.modules
          simp only [Trace.modules, Trace.give, Trace.ask, Plan.fetch, Option.map_some,
            Option.toList_some, List.map_append, List.map_cons, List.map_nil] at hmodules ⊢
          rw [← List.cons_append, hmodules, List.append_assoc]
        · intro specifier target hlookup
          exact (ht.decided specifier target hlookup).mono (List.subset_append_left _ _)

theorem Planned.replace {resolve : Request → Resolution} {t : Trace}
    (h : Planned resolve fetches entry module t₀ plan t) {m : Script.Mention} {target : String}
    (hm : Decided resolve module plan.seen (String.ofList m.specifier) target) :
    Planned resolve fetches entry module t₀ (plan.replace m target) t := by
  refine ⟨h.sound, h.given, h.seen, h.grows, h.modules, h.written, ?_⟩
  intro specifier target' hlookup
  have hlookup : (plan.replacements ++ [(String.ofList m.specifier, target)]).lookup specifier =
    some target' := hlookup
  rw [List.lookup_append] at hlookup
  cases hold : plan.replacements.lookup specifier with
  | some old =>
    rw [hold] at hlookup
    exact h.decided specifier target' (hold.trans hlookup)
  | none =>
    rw [hold] at hlookup
    have hlookup : [(String.ofList m.specifier, target)].lookup specifier = some target' := hlookup
    by_cases heq : specifier = String.ofList m.specifier
    · subst heq
      rw [List.lookup_cons_self] at hlookup
      obtain rfl := Option.some.inj hlookup
      exact hm
    · rw [List.lookup_cons, beq_false_of_ne heq] at hlookup
      nomatch hlookup

theorem lookup_replace (plan : Plan) (m : Script.Mention) (target : String) :
    ((plan.replace m target).replacements.lookup (String.ofList m.specifier)).isSome := by
  show ((plan.replacements ++ [(String.ofList m.specifier, target)]).lookup _).isSome
  rw [List.lookup_append, List.lookup_cons_self]
  cases plan.replacements.lookup (String.ofList m.specifier) with
  | none => rfl
  | some _ => rfl

theorem isSome_lookup_of_prefix {old new : List (String × String)} (h : old <+: new)
    {specifier : String} (hold : (old.lookup specifier).isSome) :
    (new.lookup specifier).isSome := by
  obtain ⟨more, rfl⟩ := h
  rw [List.lookup_append]
  obtain ⟨target, htarget⟩ := Option.isSome_iff_exists.mp hold
  rw [htarget]
  rfl

theorem ensures_planMention (hloads : NotesLoads plugin fetches) {m : Script.Mention}
    (hm : m ∈ Script.mentions module.contents.toList) :
    Ensures (Planned plugin.resolve fetches entry module t₀ plan)
      (planMention plugin unloaded module plan m)
      (fun plan' t => Planned plugin.resolve fetches entry module t₀ plan' t ∧
        plan.replacements <+: plan'.replacements ∧
        (plan'.replacements.lookup (String.ofList m.specifier)).isSome)
      (Trace.Sound plugin.resolve fetches) := by
  unfold planMention
  split
  · rename_i hold
    exact Ensures.pure fun t ht => ⟨ht, List.prefix_refl _, hold⟩
  · split
    · rename_i path hr
      refine Ensures.pure fun t ht => ⟨ht.replace ⟨m, hm, rfl, ?_⟩, List.prefix_append _ _,
        lookup_replace plan m path⟩
      rw [hr]
    · rename_i path hr
      refine Ensures.pure fun t ht => ⟨ht.replace ⟨m, hm, rfl, ?_⟩, List.prefix_append _ _,
        lookup_replace plan m path⟩
      rw [hr]
    · rename_i path hr
      refine (ensures_planCopy hloads hr).bind fun plan' => Ensures.pure ?_
      rintro t ⟨ht, hseen, hsame⟩
      refine ⟨ht.replace ⟨m, hm, rfl, ?_⟩, ?_, lookup_replace plan' m _⟩
      · rw [hr]
        exact ⟨rfl, hseen⟩
      · show plan.replacements <+: plan'.replacements ++ _
        rw [hsame]
        exact List.prefix_append _ _

/-- Planning imports decides each of them. -/
theorem ensures_planAll (hloads : NotesLoads plugin fetches) {ms : List Script.Mention}
    (hms : ms ⊆ Script.mentions module.contents.toList) :
    Ensures (Planned plugin.resolve fetches entry module t₀ plan)
      (planAll plugin unloaded module plan ms)
      (fun plan' t => Planned plugin.resolve fetches entry module t₀ plan' t ∧
        plan.replacements <+: plan'.replacements ∧
        ∀ m ∈ ms, (plan'.replacements.lookup (String.ofList m.specifier)).isSome)
      (Trace.Sound plugin.resolve fetches) := by
  induction ms generalizing plan with
  | nil => exact Ensures.pure fun t ht => ⟨ht, List.prefix_refl _, by simp⟩
  | cons m ms ih =>
    rw [List.cons_subset] at hms
    refine (ensures_planMention hloads hms.1).bind fun plan₁ s t ht => ?_
    obtain ⟨ht, hgrows, hm⟩ := ht
    refine (ih hms.2).weaken (fun _ h => h) ?_ (fun _ h => h) s t ht
    rintro plan₂ t' ⟨ht', hgrows', hrest⟩
    refine ⟨ht', hgrows.trans hgrows', ?_⟩
    intro m' hm'
    rcases List.mem_cons.mp hm' with rfl | hm'
    · exact isSome_lookup_of_prefix hgrows' hm
    · exact hrest m' hm'

end

/-! ## The walk -/

/-- What holds between two modules of a walk: the modules of the run are those that are written
and those in the queue. -/
structure Queued (resolve : Request → Resolution) (fetches : String → List String)
    (entry : Pending) (seen : List String) (queue : List Pending) (t : Trace) : Prop where
  sound : t.Sound resolve fetches
  given : t.given.map (·.1) = t.loaded
  done : ∃ done, t.modules entry = done ++ queue ∧
    List.Forall₂ (Rewritten resolve seen) done t.written
  seen : seen = t.loaded.map vendorKey

/-- How a walk ends that has written `n` files before it and takes at most `fuel` steps. -/
structure Ended (resolve : Request → Resolution) (fetches : String → List String)
    (entry : Pending) (bound : Nat) (whole : Bool) (t : Trace) : Prop where
  sound : t.Sound resolve fetches
  given : t.given.map (·.1) = t.loaded
  written : whole = true →
    List.Forall₂ (Rewritten resolve (t.loaded.map vendorKey)) (t.modules entry) t.written
  bound : whole = false → bound ≤ t.loaded.length

section
variable {plugin : Plugin (Traced ε σ)} {fetches : String → List String} {unloaded : String → ε}
  {write : String → String → ExceptT ε (StateM σ) Unit} {entry : Pending}

/-- A step of a walk writes the module in front and queues what it asked for. -/
theorem ensures_copyOne (hloads : NotesLoads plugin fetches) {seen : List String}
    {module : Pending} {queue : List Pending} {n : Nat} {β : Type} {rest : Plan → Traced ε σ β}
    {after : β → Trace → Prop}
    (hrest : ∀ plan, Ensures (fun t => Queued plugin.resolve fetches entry plan.seen
      (queue ++ plan.fetched) t ∧ t.written.length = n + 1) (rest plan) after
      (Trace.Sound plugin.resolve fetches)) :
    Ensures (fun t => Queued plugin.resolve fetches entry seen (module :: queue) t ∧
        t.written.length = n)
      (do
        let plan ← planAll plugin unloaded module ⟨[], seen, []⟩
          (Script.mentions module.contents.toList)
        notedWrite write module.out (rewriteModule plan module.contents)
        rest plan)
      after (Trace.Sound plugin.resolve fetches) := by
  rintro s t₀ ⟨h₀, hn⟩
  obtain ⟨done, hmodules, hwritten⟩ := h₀.done
  have hstart : Planned plugin.resolve fetches entry module t₀ ⟨[], seen, []⟩ t₀ :=
    ⟨h₀.sound, h₀.given, h₀.seen, List.prefix_refl _, (List.append_nil _).symm, rfl,
      fun _ _ hlookup => nomatch hlookup⟩
  refine Ensures.bind (ensures_planAll hloads (List.Subset.refl _)) ?_ s t₀ hstart
  rintro plan s₁ t₁ ⟨hplan, -, hall⟩
  have hseen : seen ⊆ plan.seen := by
    rw [h₀.seen, hplan.seen]
    exact List.map_subset _ hplan.grows.subset
  have hqueued : Queued plugin.resolve fetches entry plan.seen (queue ++ plan.fetched)
      (t₁.write module.out (rewriteModule plan module.contents)) := by
    refine ⟨⟨hplan.sound.once, hplan.sound.resolved, hplan.sound.fetched⟩, hplan.given,
      ⟨done ++ [module], ?_, ?_⟩, hplan.seen⟩
    · show t₁.modules entry = _
      rw [hplan.modules, hmodules]
      simp
    · show List.Forall₂ _ _ (t₁.written ++ [_])
      rw [hplan.written]
      apply List.rel_append (hwritten.imp fun _ _ h => h.mono hseen)
      exact .cons ⟨plan, rfl, hall, hplan.decided⟩ .nil
  have hlength : (t₁.write module.out (rewriteModule plan module.contents)).written.length =
      n + 1 := by
    show (t₁.written ++ [_]).length = n + 1
    rw [hplan.written, List.length_append, hn, List.length_singleton]
  have hwrite : Ensures (· = t₁)
      (notedWrite write module.out (rewriteModule plan module.contents))
      (fun _ t => Queued plugin.resolve fetches entry plan.seen (queue ++ plan.fetched) t ∧
        t.written.length = n + 1)
      (Trace.Sound plugin.resolve fetches) := by
    apply Ensures.noting (Ensures.lifted (fun _ t ht => ht) fun t ht => ht.1.sound)
    rintro _ rfl
    exact ⟨hqueued, hlength⟩
  exact hwrite.bind (fun _ => hrest plan) s₁ t₁ rfl

/-- A walk that has nothing left to write has written all modules. -/
theorem Queued.ended {resolve : Request → Resolution} {bound : Nat} {seen : List String} {t : Trace}
    (h : Queued resolve fetches entry seen [] t) : Ended resolve fetches entry bound true t := by
  obtain ⟨done, hmodules, hwritten⟩ := h.done
  rw [List.append_nil] at hmodules
  refine ⟨h.sound, h.given, fun _ => ?_, nofun⟩
  rw [hmodules, ← h.seen]
  exact hwritten

/-- What a walk has written, and one module more, is among the entry and what it has asked for. -/
theorem Queued.length_lt {resolve : Request → Resolution} {seen : List String} {module : Pending}
    {queue : List Pending} {t : Trace} (h : Queued resolve fetches entry seen (module :: queue) t) :
    t.written.length ≤ t.loaded.length := by
  obtain ⟨done, hmodules, hwritten⟩ := h.done
  have hlength : t.loaded.length + 1 = done.length + (queue.length + 1) := by
    have hlength := congrArg List.length hmodules
    rw [List.length_append, List.length_cons, Trace.modules, List.length_cons, List.length_map]
      at hlength
    rw [← h.given, List.length_map]
    exact hlength
  have := hwritten.length_eq
  omega

theorem ensures_copyAll (hloads : NotesLoads plugin fetches) (fuel n : Nat) (seen : List String)
    (queue : List Pending) :
    Ensures (fun t => Queued plugin.resolve fetches entry seen queue t ∧ t.written.length = n)
      (copyAll plugin unloaded (notedWrite write) fuel seen queue)
      (Ended plugin.resolve fetches entry (n + fuel)) (Trace.Sound plugin.resolve fetches) := by
  induction fuel generalizing n seen queue with
  | zero =>
    cases queue with
    | nil => exact Ensures.pure fun t ht => ht.1.ended
    | cons module queue =>
      refine Ensures.pure fun t ht => ⟨ht.1.sound, ht.1.given, nofun, fun _ => ?_⟩
      rw [Nat.add_zero, ← ht.2]
      exact ht.1.length_lt
  | succ fuel ih =>
    cases queue with
    | nil => exact Ensures.pure fun t ht => ht.1.ended
    | cons module queue =>
      apply ensures_copyOne hloads
      intro plan
      have h := ih (n + 1) plan.seen (queue ++ plan.fetched)
      rwa [Nat.add_right_comm] at h

end

/-! ## The whole run -/

/-- What is bundled, and with what: a program, texts to inject before it, a way to write files,
and how a module fails that is not given. -/
structure Task (ε σ : Type) where
  unloaded : String → ε
  write : String → String → ExceptT ε (StateM σ) Unit
  entryName : String
  injected : List String
  contents : String

namespace Task

/-- The entry as a module. -/
def entry (task : Task ε σ) : Pending :=
  ⟨task.entryName, String.join (task.injected.map injectedText) ++ task.contents, none, .file⟩

/-- A run of the bundler from a state. -/
def run (task : Task ε σ) (plugin : Plugin (ExceptT ε (StateM σ))) (fuel : Nat) (s : σ) :
    Except ε Bool × σ :=
  (bundle plugin task.unloaded task.write fuel task.entryName task.injected task.contents).run.run s

/-- A watched run of the bundler from a state. -/
def watched (task : Task ε σ) (plugin : Plugin (Traced ε σ)) (fuel : Nat) (s : σ) :
    Except ε Bool × σ × Trace :=
  (bundle plugin.noted task.unloaded (notedWrite task.write) fuel task.entryName task.injected
    task.contents).run.run (s, .empty)

/-- A watched run is the run with its trace. -/
theorem watched_eq {task : Task ε σ} {traced : Plugin (Traced ε σ)}
    {plain : Plugin (ExceptT ε (StateM σ))} (h : PluginErases traced plain) (fuel : Nat) (s : σ) :
    task.watched traced fuel s =
      ((task.run plain fuel s).1, (task.run plain fuel s).2, (task.watched traced fuel s).2.2) := by
  have herases : Erases
      (bundle traced.noted task.unloaded (notedWrite task.write) fuel task.entryName task.injected
        task.contents)
      (bundle plain task.unloaded task.write fuel task.entryName task.injected task.contents) :=
    erases_bundle h.noted fuel task.entryName task.injected task.contents
  obtain ⟨t, ht⟩ := herases s .empty
  have ht : task.watched traced fuel s = ((task.run plain fuel s).1, (task.run plain fuel s).2, t) :=
    ht
  rw [ht]

section
variable {task : Task ε σ} {plugin : Plugin (Traced ε σ)} {fetches : String → List String}

theorem ensures_bundle (task : Task ε σ) (hloads : NotesLoads plugin.noted fetches) (fuel : Nat) :
    Ensures (· = Trace.empty)
      (bundle plugin.noted task.unloaded (notedWrite task.write) fuel task.entryName task.injected
        task.contents)
      (Ended plugin.resolve fetches task.entry fuel) (Trace.Sound plugin.resolve fetches) := by
  have h : Ensures
      (fun t => Queued plugin.resolve fetches task.entry [] [task.entry] t ∧ t.written.length = 0)
      (copyAll plugin.noted task.unloaded (notedWrite task.write) fuel [] [task.entry])
      (Ended plugin.resolve fetches task.entry (0 + fuel)) (Trace.Sound plugin.resolve fetches) :=
    ensures_copyAll hloads fuel 0 [] [task.entry]
  rw [Nat.zero_add] at h
  refine h.weaken ?_ (fun _ _ h => h) fun _ h => h
  rintro _ rfl
  exact ⟨⟨⟨List.nodup_nil, nofun, rfl⟩, rfl, ⟨[], rfl, .nil⟩, rfl⟩, rfl⟩

/-- However a run ends, its trace is sound. -/
theorem sound_watched (hloads : NotesLoads plugin.noted fetches) (fuel : Nat) (s : σ) :
    (task.watched plugin fuel s).2.2.Sound plugin.resolve fetches := by
  have h := ensures_bundle task hloads fuel s .empty rfl
  unfold watched
  split at h
  · rename_i hrun
    rw [hrun]
    exact h.sound
  · rename_i hrun
    rw [hrun]
    exact h

theorem ended_watched (hloads : NotesLoads plugin.noted fetches) {fuel : Nat} {s : σ} {whole : Bool}
    (hrun : (task.watched plugin fuel s).1 = .ok whole) :
    Ended plugin.resolve fetches task.entry fuel whole (task.watched plugin fuel s).2.2 := by
  have h := ensures_bundle task hloads fuel s .empty rfl
  unfold watched at hrun ⊢
  split at h
  · rename_i hok
    rw [hok] at hrun ⊢
    obtain rfl := Except.ok.inj hrun
    exact h
  · rename_i herror
    rw [herror] at hrun
    nomatch hrun

end

end Task
end Waymark.Bundle
