import Waymark.Proofs.App.Watched
import Waymark.Proofs.Bundle.Kept
import Waymark.Proofs.Bundle.Once
/-!
# What a failed bundle leaves

The walk over the modules of a bundle writes each module as soon as its imports are planned.
Nothing is held back until the walk has ended, and nothing is taken away when it fails.  So a walk
that fails at a module leaves the files of all modules that stood before it in the queue, each of
them whole, and nothing of the module itself or of those behind it.

The entry stands first in the queue.  A bundle that fails leaves nothing exactly if an import of
the entry itself could not be loaded.

## Main results

* `walked_of_copyAll` — a walk that fails has come to a module, which it could not plan or write.
* `stopsAt_of_planAll` — imports that cannot be planned hold one that could not be loaded.
* `Walked.in_order` — the entry comes first, and what comes after it has been fetched.
* `copyingBundlerWithin_of_le` — a bundle that is not too large does not depend on its bound.
* `bundle_leaves` — a bundle with a module that is not loaded leaves the modules before it.
* `bundle_leaves_part` — an entry that is written before an import further down fails.
-/

namespace Waymark.Bundle

variable {ε σ : Type}

/-! ## Walks under way -/

/-- How far a walk has come. -/
structure Walk where
  /-- The modules that are written, in order, with their texts. -/
  done : List (Pending × String)
  /-- The keys of all modules fetched so far. -/
  seen : List String
  /-- The modules that wait, in order. -/
  queue : List Pending

/-- The files a walk has written, in order. -/
def Walk.files (w : Walk) : List (String × String) :=
  w.done.map fun (module, text) => (module.out, text)

section
variable (plugin : Plugin (ExceptT ε (StateM σ))) (unloaded : String → ε)
  (write : String → String → ExceptT ε (StateM σ) Unit)

/-- A walk from an entry and a state comes to a point and a state.  With each step the module in
front is written with all its imports replaced, and what was fetched for it joins the queue. -/
inductive Walked (entry : Pending) (s₀ : σ) : Walk → σ → Prop
  | start : Walked entry s₀ ⟨[], [], [entry]⟩ s₀
  | step {done : List (Pending × String)} {seen : List String} {module : Pending}
      {queue : List Pending} {plan : Plan} {s s₁ s₂ : σ}
      (walked : Walked entry s₀ ⟨done, seen, module :: queue⟩ s)
      (planned : (planAll plugin unloaded module ⟨[], seen, []⟩
        (Script.mentions module.contents.toList)).run.run s = (.ok plan, s₁))
      (written : (write module.out (rewriteModule plan module.contents)).run.run s₁ =
        (.ok (), s₂)) :
      Walked entry s₀ ⟨done ++ [(module, rewriteModule plan module.contents)], plan.seen,
        queue ++ plan.fetched⟩ s₂

/-- The imports of a module are planned up to one that is to be copied and is not loaded. -/
def StopsAt (module : Pending) (plan : Plan) (ms : List Script.Mention) (s : σ) (e : ε)
    (s' : σ) : Prop :=
  ∃ before m after plan₁ s₁ path, ms = before ++ m :: after ∧
    (planAll plugin unloaded module plan before).run.run s = (.ok plan₁, s₁) ∧
    plugin.resolve (module.request m) = .resolved path .http ∧ vendorKey path ∉ plan₁.seen ∧
    ((plugin.load path .http).run.run s₁ = (.error e, s') ∨
      (plugin.load path .http).run.run s₁ = (.ok none, s') ∧ unloaded path = e)

end

section
variable {plugin : Plugin (ExceptT ε (StateM σ))} {unloaded : String → ε}
  {write : String → String → ExceptT ε (StateM σ) Unit} {module : Pending} {plan plan' : Plan}
  {ms : List Script.Mention} {s s' : σ} {e : ε}

/-! ## Where a walk fails -/

/-- An import that cannot be planned is to be copied and is not loaded. -/
theorem load_of_planMention {m : Script.Mention}
    (h : (planMention plugin unloaded module plan m).run.run s = (.error e, s')) :
    ∃ path, plugin.resolve (module.request m) = .resolved path .http ∧
      vendorKey path ∉ plan.seen ∧
      ((plugin.load path .http).run.run s = (.error e, s') ∨
        (plugin.load path .http).run.run s = (.ok none, s') ∧ unloaded path = e) := by
  unfold planMention at h
  split at h
  · cases (Prod.mk.inj h).1
  · split at h
    · cases (Prod.mk.inj h).1
    · cases (Prod.mk.inj h).1
    · rename_i path hresolve
      refine ⟨path, hresolve, ?_⟩
      obtain hcopied | ⟨copied, s₁, -, hrest⟩ := error_of_run_bind h
      · unfold planCopy at hcopied
        split at hcopied
        · cases (Prod.mk.inj hcopied).1
        · rename_i hnew
          refine ⟨hnew, ?_⟩
          obtain hload | ⟨loaded, s₁, hload, hrest⟩ := error_of_run_bind hcopied
          · exact .inl hload
          · cases loaded with
            | some loaded => cases (Prod.mk.inj hrest).1
            | none =>
              obtain ⟨he, rfl⟩ := Prod.mk.inj hrest
              exact .inr ⟨hload, Except.error.inj he⟩
      · cases (Prod.mk.inj hrest).1

/-- Imports that cannot be planned hold one that is not loaded. -/
theorem stopsAt_of_planAll
    (h : (planAll plugin unloaded module plan ms).run.run s = (.error e, s')) :
    StopsAt plugin unloaded module plan ms s e s' := by
  induction ms generalizing plan s with
  | nil => cases (Prod.mk.inj h).1
  | cons m ms ih =>
    obtain hm | ⟨plan₁, s₁, hm, hrest⟩ := error_of_run_bind h
    · obtain ⟨path, hpath⟩ := load_of_planMention hm
      exact ⟨[], m, ms, plan, s, path, rfl, rfl, hpath⟩
    · obtain ⟨before, m', after, plan₂, s₂, path, rfl, hbefore, hpath⟩ := ih hrest
      refine ⟨m :: before, m', after, plan₂, s₂, path, rfl, ?_, hpath⟩
      rw [planAll, run_action_bind, hm]
      exact hbefore

/-- A walk that fails has come to a module that it could not plan, or could not write. -/
theorem walked_of_copyAll {entry : Pending} {s₀ : σ} {fuel : Nat}
    {done : List (Pending × String)} {seen : List String} {queue : List Pending}
    (hwalked : Walked plugin unloaded write entry s₀ ⟨done, seen, queue⟩ s)
    (h : (copyAll plugin unloaded write fuel seen queue).run.run s = (.error e, s')) :
    ∃ done seen module queue s, Walked plugin unloaded write entry s₀ ⟨done, seen, module :: queue⟩ s ∧
      (StopsAt plugin unloaded module ⟨[], seen, []⟩ (Script.mentions module.contents.toList) s e s' ∨
        ∃ text s₁, (write module.out text).run.run s₁ = (.error e, s')) := by
  induction fuel generalizing done seen queue s with
  | zero =>
    cases queue with
    | nil => cases (Prod.mk.inj h).1
    | cons module queue => cases (Prod.mk.inj h).1
  | succ fuel ih =>
    cases queue with
    | nil => cases (Prod.mk.inj h).1
    | cons module queue =>
      obtain hplan | ⟨plan, s₁, hplan, hrest⟩ := error_of_run_bind h
      · exact ⟨done, seen, module, queue, s, hwalked, .inl (stopsAt_of_planAll hplan)⟩
      · obtain hwrite | ⟨⟨⟩, s₂, hwrite, hrest⟩ := error_of_run_bind hrest
        · exact ⟨done, seen, module, queue, s, hwalked, .inr ⟨_, s₁, hwrite⟩⟩
        · exact ih (hwalked.step hplan hwrite) hrest

/-! ## The order of a walk -/

theorem origin_of_planMention {m : Script.Mention} (hplan : ∀ f ∈ plan.fetched, f.origin = .http)
    (h : (planMention plugin unloaded module plan m).run.run s = (.ok plan', s')) :
    ∀ f ∈ plan'.fetched, f.origin = .http := by
  unfold planMention at h
  split at h
  · cases (Prod.mk.inj h).1
    exact hplan
  · split at h
    · cases (Prod.mk.inj h).1
      exact hplan
    · cases (Prod.mk.inj h).1
      exact hplan
    · obtain ⟨copied, s₁, hcopied, hrest⟩ := exists_of_run_bind h
      cases (Prod.mk.inj hrest).1
      show ∀ f ∈ copied.fetched, f.origin = .http
      unfold planCopy at hcopied
      split at hcopied
      · cases (Prod.mk.inj hcopied).1
        exact hplan
      · obtain ⟨loaded, s₂, -, hrest⟩ := exists_of_run_bind hcopied
        cases loaded with
        | none => cases (Prod.mk.inj hrest).1
        | some loaded =>
          cases (Prod.mk.inj hrest).1
          intro f hf
          rcases List.mem_append.1 hf with hf | hf
          · exact hplan f hf
          · rw [List.mem_singleton.1 hf]

/-- What is queued for a module has been fetched from elsewhere. -/
theorem origin_of_planAll (hplan : ∀ f ∈ plan.fetched, f.origin = .http)
    (h : (planAll plugin unloaded module plan ms).run.run s = (.ok plan', s')) :
    ∀ f ∈ plan'.fetched, f.origin = .http := by
  induction ms generalizing plan s with
  | nil =>
    cases (Prod.mk.inj h).1
    exact hplan
  | cons m ms ih =>
    obtain ⟨plan₁, s₁, hm, hrest⟩ := exists_of_run_bind h
    exact ih (origin_of_planMention hplan hm) hrest

/-- The entry comes first, and all that comes after it has been fetched. -/
theorem Walked.in_order {entry : Pending} {s₀ : σ} {w : Walk}
    (h : Walked plugin unloaded write entry s₀ w s) :
    ∃ fetched, w.done.map (·.1) ++ w.queue = entry :: fetched ∧
      ∀ f ∈ fetched, f.origin = .http := by
  induction h with
  | start => exact ⟨[], rfl, List.forall_mem_nil _⟩
  | @step done seen module queue plan s s₁ s₂ walked planned written ih =>
    obtain ⟨fetched, horder, hfetched⟩ := ih
    refine ⟨fetched ++ plan.fetched, ?_, ?_⟩
    · have hnext : (done ++ [(module, rewriteModule plan module.contents)]).map (·.1) ++
          (queue ++ plan.fetched) = (done.map (·.1) ++ module :: queue) ++ plan.fetched := by simp
      rw [hnext, horder, List.cons_append]
    · intro f hf
      rcases List.mem_append.1 hf with hf | hf
      · exact hfetched f hf
      · exact origin_of_planAll (List.forall_mem_nil _) planned f hf

/-- The module in front is the entry exactly if nothing has been written. -/
theorem Walked.eq_entry_iff {entry : Pending} {s₀ : σ} {done : List (Pending × String)}
    {seen : List String} {queue : List Pending}
    (h : Walked plugin unloaded write entry s₀ ⟨done, seen, module :: queue⟩ s)
    (hentry : entry.origin = .file) : module = entry ↔ done = [] := by
  obtain ⟨fetched, horder, hfetched⟩ := h.in_order
  cases done with
  | nil => exact ⟨fun _ => rfl, fun _ => (List.cons.inj horder).1⟩
  | cons first done =>
    refine ⟨?_, fun hdone => absurd hdone (List.cons_ne_nil _ _)⟩
    rintro rfl
    have hmem : module ∈ fetched := by
      rw [← (List.cons.inj horder).2]
      exact List.mem_append_right _ (List.mem_cons_self ..)
    rw [hfetched module hmem] at hentry
    nomatch hentry

end
end Waymark.Bundle

namespace Waymark.Build

open Waymark.Bundle

/-! ## The default bundler -/

/-- Gets a remote module for a bundle. -/
def fetchText (url : String) : App.Action BuildError RemoteText := do
  match ← (App.fetch url).run with
  | .ok content => return content
  | .error e => throw (.fetch e)

/-- The error of a module that no loader is there for. -/
def noLoader (path : String) : BuildError := .bundle ("no loader for " ++ path)

/-- The directory of a bundle. -/
def directoryOf (job : Job) : String := (Disk.parent job.outfile).getD ""

/-- The program a bundle starts with, as a module. -/
def entryOf (job : Job) : Pending :=
  ⟨(Disk.fileName? job.outfile).getD bundleFile,
    String.join ((job.inject.map (·.text)).map injectedText) ++ job.contents, none, .file⟩

/-- Puts a text into a directory. -/
def putText (dir path text : String) : App.Action BuildError Unit :=
  put (Disk.join dir path) text.toUTF8

/-- A disk with some texts written into a directory, one after the other. -/
def writeTexts (dir : String) (files : List (String × String)) (d : Disk) :
    Except BuildError Disk :=
  files.foldlM (fun d (path, text) => writeOutput d (Disk.join dir path) text.toUTF8) d

/-- The walk of a bundle from an app comes to a point and leaves the app like that. -/
abbrev WalkedFor (policy : Policy) (job : Job) (app : App) : Walk → App → Prop :=
  Bundle.Walked (policy.plugin fetchText) noLoader (putText (directoryOf job)) (entryOf job) app

/-- A module imports another one that is to be copied, has not been fetched before, and cannot be
fetched when it is its turn. -/
def LacksImport (policy : Policy) (module : Pending) (seen : List String) (app : App)
    (cause : FetchError) : Prop :=
  ∃ before m after plan here path,
    Script.mentions module.contents.toList = before ++ m :: after ∧
      (planAll (policy.plugin fetchText) noLoader module ⟨[], seen, []⟩ before).run.run app =
        (.ok plan, here) ∧
      policy.resolve (module.request m) = .resolved path .http ∧ vendorKey path ∉ plan.seen ∧
      ((App.fetch (policy.loadUrl path)).run.run here).1 = .error cause

theorem copyingBundler_eq (bound : Nat) (policy : Policy) (job : Job) :
    (copyingBundlerWithin bound).bundle policy job =
      (copyAll (policy.plugin fetchText) noLoader (putText (directoryOf job)) bound []
        [entryOf job] >>= fun whole => if !whole then throw .tooLarge else pure ()) := rfl

variable {policy : Policy} {job : Job} {app app' : App} {e : BuildError}

/-- A bundle depends on its bound only as long as it does not end. -/
theorem copyingBundlerWithin_of_le {bound bound' : Nat} (hle : bound ≤ bound')
    (hends : (((copyingBundlerWithin bound).bundle policy job).run.run app).1 ≠
      .error .tooLarge) :
    ((copyingBundlerWithin bound').bundle policy job).run.run app =
      ((copyingBundlerWithin bound).bundle policy job).run.run app := by
  rw [copyingBundler_eq, run_action_bind] at hends
  rw [copyingBundler_eq, copyingBundler_eq, run_action_bind, run_action_bind]
  have hwhole : ((copyAll (policy.plugin fetchText) noLoader (putText (directoryOf job)) bound []
      [entryOf job]).run.run app).1 ≠ .ok false := by
    intro hcut
    rcases hcopy : (copyAll (policy.plugin fetchText) noLoader (putText (directoryOf job)) bound []
      [entryOf job]).run.run app with ⟨result, app₁⟩
    rw [hcopy] at hends hcut
    obtain rfl : result = .ok false := hcut
    exact hends rfl
  rw [copyAll_of_le hle hwhole]

/-! ### What loading and writing do -/

/-- A module fails to load because it cannot be fetched. -/
theorem fetch_of_load_error {path : String}
    (h : ((policy.plugin fetchText).load path .http).run.run app = (.error e, app')) :
    ∃ cause, e = .fetch cause ∧
      ((App.fetch (policy.loadUrl path)).run.run app).1 = .error cause := by
  obtain hget | ⟨content, s₁, -, hrest⟩ := error_of_run_bind h
  · unfold fetchText at hget
    rw [run_action_lift_bind] at hget
    cases hfetch : ((App.fetch (policy.loadUrl path)).run.run app).1 with
    | ok content =>
      rw [hfetch] at hget
      cases (Prod.mk.inj hget).1
    | error cause =>
      rw [hfetch] at hget
      exact ⟨cause, (Except.error.inj (Prod.mk.inj hget).1).symm, rfl⟩
  · cases (Prod.mk.inj hrest).1

/-- Loading gives a module, if it does not fail. -/
theorem load_ne_none {path : String} :
    ((policy.plugin fetchText).load path .http).run.run app ≠ (.ok none, app') := by
  intro h
  obtain ⟨content, s₁, -, hrest⟩ := exists_of_run_bind h
  cases (Prod.mk.inj hrest).1

/-- Loading leaves the disk alone. -/
theorem keeps_disk_load (d : Disk) (path : String) (origin : Origin) :
    KeepsState (fun app : App => app.disk = d) ((policy.plugin fetchText).load path origin) := by
  refine keeps_load (fun url => ?_) path origin
  have hkept : App.KeptByAnswers fun app => app.disk = d :=
    ⟨fun h _ => h, fun h _ => h, fun h => h, fun h _ _ _ => h⟩
  refine KeepsState.handled (App.keeps_fetch hkept url) fun fetched => ?_
  cases fetched with
  | ok content => exact keepsState_pure _
  | error e => exact keepsState_throw _

theorem disk_of_load {path : String} {loaded : Except BuildError (Option Loaded)}
    (h : ((policy.plugin fetchText).load path .http).run.run app = (loaded, app')) :
    app'.disk = app.disk := by
  have hkept : (((policy.plugin fetchText).load path .http).run.run app).2.disk = app.disk :=
    keeps_disk_load app.disk path .http app rfl
  rw [h] at hkept
  exact hkept

/-- A file that cannot be written tells so. -/
theorem io_of_writeOutput {d : Disk} {path : String} {content : ByteArray}
    (h : writeOutput d path content = .error e) : ∃ path cause, e = .io path cause := by
  have hmapped {x : Except FileError Disk} {path : String}
      (hx : x.mapError (.io path) = .error e) : ∃ path cause, e = .io path cause := by
    cases x with
    | ok d => nomatch hx
    | error cause => exact ⟨path, cause, (Except.error.inj hx).symm⟩
  unfold writeOutput at h
  cases hway : makeWay d path with
  | error e₁ =>
    rw [hway] at h
    obtain rfl := Except.error.inj h
    exact hmapped hway
  | ok d₁ =>
    rw [hway] at h
    exact hmapped h

theorem io_of_putText {dir path text : String}
    (h : (putText dir path text).run.run app = (.error e, app')) :
    ∃ path cause, e = .io path cause := by
  unfold putText put at h
  rw [run_onDisk] at h
  split at h
  · cases (Prod.mk.inj h).1
  · rename_i hwrite
    obtain rfl := Except.error.inj (Prod.mk.inj h).1
    exact io_of_writeOutput hwrite

theorem disk_of_putText {dir path text : String} {u : Unit}
    (h : (putText dir path text).run.run app = (.ok u, app')) :
    writeOutput app.disk (Disk.join dir path) text.toUTF8 = .ok app'.disk := by
  unfold putText put at h
  rw [run_onDisk] at h
  split at h
  · rename_i hwrite
    obtain ⟨-, rfl⟩ := Prod.mk.inj h
    exact hwrite
  · cases (Prod.mk.inj h).1

/-- Planning leaves the disk alone. -/
theorem disk_of_planAll {module : Pending} {plan plan' : Plan} {ms : List Script.Mention}
    (h : (planAll (policy.plugin fetchText) noLoader module plan ms).run.run app =
      (.ok plan', app')) : app'.disk = app.disk := by
  have hkept : ((planAll (policy.plugin fetchText) noLoader module plan ms).run.run app).2.disk =
      app.disk := keeps_planAll (keeps_disk_load app.disk) module plan ms app rfl
  rw [h] at hkept
  exact hkept

theorem writeTexts_concat {dir : String} {files : List (String × String)} {d d₁ : Disk}
    (h : writeTexts dir files d = .ok d₁) (path text : String) :
    writeTexts dir (files ++ [(path, text)]) d =
      writeOutput d₁ (Disk.join dir path) text.toUTF8 := by
  unfold writeTexts at h ⊢
  rw [List.foldlM_append, h, ok_bind, List.foldlM_cons]
  simp only [List.foldlM_nil, bind_pure]

/-- The disk of a walk that is under way: the files of the modules done are written, no more. -/
theorem writeTexts_of_walked {w : Walk} (h : WalkedFor policy job app w app') :
    writeTexts (directoryOf job) w.files app.disk = .ok app'.disk := by
  induction h with
  | start => rfl
  | @step done seen module queue plan s s₁ s₂ walked planned written ih =>
    have hfiles : Walk.files ⟨done ++ [(module, rewriteModule plan module.contents)], plan.seen,
        queue ++ plan.fetched⟩ = Walk.files ⟨done, seen, module :: queue⟩ ++
          [(module.out, rewriteModule plan module.contents)] := List.map_append
    rw [hfiles, writeTexts_concat ih, ← disk_of_planAll planned]
    exact disk_of_putText written

/-- A bundle that fails because a module cannot be fetched has come, in the order of its walk, to a
module with an import that is to be copied and cannot be fetched.  All modules before that one are
written, each with all its imports replaced, and nothing else is.  So nothing is written exactly
if that module is the entry. -/
theorem bundle_leaves (bound : Nat) (policy : Policy) (job : Job) {app app' : App}
    {cause : FetchError}
    (h : ((copyingBundlerWithin bound).bundle policy job).run.run app =
      (.error (.fetch cause), app')) :
    ∃ done seen module queue here, WalkedFor policy job app ⟨done, seen, module :: queue⟩ here ∧
      LacksImport policy module seen here cause ∧
      writeTexts (directoryOf job) (Walk.files ⟨done, seen, module :: queue⟩) app.disk =
        .ok app'.disk ∧
      (module = entryOf job ↔ done = []) := by
  rw [copyingBundler_eq] at h
  obtain hcopy | ⟨whole, s₁, -, hrest⟩ := error_of_run_bind h
  · obtain ⟨done, seen, module, queue, here, hwalked, hstop⟩ := walked_of_copyAll .start hcopy
    obtain hstop | ⟨text, s₁, hwrite⟩ := hstop
    · obtain ⟨before, m, after, plan, s₁, path, hmentions, hbefore, hresolve, hnew, hload⟩ := hstop
      obtain hload | ⟨hload, -⟩ := hload
      · obtain ⟨cause', hcause, hfetch⟩ := fetch_of_load_error hload
        obtain rfl := BuildError.fetch.inj hcause
        have hdisk := writeTexts_of_walked hwalked
        rw [← disk_of_planAll hbefore, ← disk_of_load hload] at hdisk
        exact ⟨done, seen, module, queue, here, hwalked,
          ⟨before, m, after, plan, s₁, path, hmentions, hbefore, hresolve, hnew, hfetch⟩,
          hdisk, hwalked.eq_entry_iff rfl⟩
      · exact absurd hload load_ne_none
    · obtain ⟨path, cause', hio⟩ := io_of_putText hwrite
      nomatch hio
  · cases whole with
    | true => cases (Prod.mk.inj hrest).1
    | false => cases (Prod.mk.inj hrest).1

/-! ### An entry that is written and its import that fails -/

/-- An app with a module whose import is gone. -/
def brokenApp : App :=
  App.aloneOn ⟨"/app", Dict.ofList [("a.ts", .file "import './gone.ts'".toUTF8)]⟩ {}

/-- A program that imports the module from the app's own server. -/
def brokenJob : Job :=
  Job.ofConfig brokenApp.config false "/app/dist" "import 'http://localhost:3000/a.ts';" []

/-- How the program is bundled. -/
def brokenRun : Except BuildError Unit × App :=
  (copyingBundler.bundle (policyOf brokenApp) brokenJob).run.run brokenApp

/-- Why the program cannot be bundled. -/
def brokenCause : FetchError := .status "http://localhost:3000/gone.ts?v=7" 404

/-- What a step has failed with. -/
def errorOf : Except BuildError Unit → Option BuildError
  | .ok _ => none
  | .error e => some e

/-- What the run has failed with, the text of its bundle, and whether the copy is there. -/
theorem brokenRun_leaves : (errorOf brokenRun.1,
    (brokenRun.2.disk.readText "/app/dist/server.js").toOption,
    brokenRun.2.disk.isFile "/app/dist/_vendor/localhost_3000/a.ts.js") =
      (some (.fetch brokenCause), some "import './_vendor/localhost_3000/a.ts.js';", false) := by
  decide +kernel

theorem brokenRun_eq : brokenRun = (.error (.fetch brokenCause), brokenRun.2) := by
  have hresult : errorOf brokenRun.1 = some (.fetch brokenCause) :=
    (Prod.mk.inj brokenRun_leaves).1
  generalize brokenRun = run at hresult ⊢
  obtain ⟨e | _, app⟩ := run
  · have he : e = .fetch brokenCause := Option.some.inj hresult
    rw [he]
  · nomatch hresult

/-- The entry is written, and the bundle fails at the module that it imports. -/
theorem bundle_leaves_entry :
    ∃ done seen module queue here,
      WalkedFor (policyOf brokenApp) brokenJob brokenApp ⟨done, seen, module :: queue⟩ here ∧
      LacksImport (policyOf brokenApp) module seen here brokenCause ∧ done ≠ [] ∧
      writeTexts "/app/dist" (Walk.files ⟨done, seen, module :: queue⟩) brokenApp.disk =
        .ok brokenRun.2.disk := by
  obtain ⟨done, seen, module, queue, here, hwalked, hlacks, hdisk, hentry⟩ :=
    bundle_leaves maxFiles (policyOf brokenApp) brokenJob brokenRun_eq
  have hdirectory : directoryOf brokenJob = "/app/dist" := by decide
  rw [hdirectory] at hdisk
  refine ⟨done, seen, module, queue, here, hwalked, hlacks, ?_, hdisk⟩
  rintro rfl
  -- With nothing written the disk would be as before.
  have hsame : brokenApp.disk = brokenRun.2.disk := Except.ok.inj hdisk
  have htext : (brokenRun.2.disk.readText "/app/dist/server.js").toOption =
      some "import './_vendor/localhost_3000/a.ts.js';" :=
    (Prod.mk.inj (Prod.mk.inj brokenRun_leaves).2).1
  have hnone : (brokenApp.disk.readText "/app/dist/server.js").toOption = none := by
    decide +kernel
  rw [← hsame, hnone] at htext
  nomatch htext

/-- A bundle that fails leaves a file: there is no output directory, an import of a module that the
entry imports cannot be loaded, and then the bundle's own file is there, which imports a copy that
is not. -/
theorem bundle_leaves_part :
    (copyingBundler.bundle (policyOf brokenApp) brokenJob).run.run brokenApp =
        (.error (.fetch (.status "http://localhost:3000/gone.ts?v=7" 404)), brokenRun.2) ∧
      brokenApp.disk.isDirectory "/app/dist" = false ∧
      (brokenRun.2.disk.readText "/app/dist/server.js").toOption =
        some "import './_vendor/localhost_3000/a.ts.js';" ∧
      brokenRun.2.disk.isFile "/app/dist/_vendor/localhost_3000/a.ts.js" = false := by
  obtain ⟨-, hleft⟩ := Prod.mk.inj brokenRun_leaves
  obtain ⟨htext, hcopy⟩ := Prod.mk.inj hleft
  exact ⟨brokenRun_eq, by decide +kernel, htext, hcopy⟩

end Waymark.Build
