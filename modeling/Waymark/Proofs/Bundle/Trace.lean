import Waymark.Bundle.Vendor
import Waymark.Proofs.App.Runs
/-!
# What a bundler asks for

A bundling run is watched through a trace beside its state: the modules it asks the
plugin for and what it is given, the texts the plugin fetches for it, and the files
it writes.  The trace is only added to.  `Erases` says that watching changes nothing:
without the trace, the watched run is the run itself.

What a step does to the trace is said by `Ensures`, for steps that succeed and for
steps that fail alike.

## Main results

* `erases_bundle` — a watched bundling run, without its trace, is the bundling run.
* `Ensures.bind` — two steps in a row do what they do one after the other.
-/

namespace Waymark.Bundle

/-- What a bundling run has done so far. -/
structure Trace where
  /-- The modules it asked for, in order. -/
  loaded : List String
  /-- The modules it was given, in order, with what they were asked for as. -/
  given : List (String × Loaded)
  /-- The texts fetched for it, in order. -/
  fetched : List String
  /-- The files it wrote, in order, with their texts. -/
  written : List (String × String)
  deriving DecidableEq, Repr

namespace Trace

/-- The trace of a run that has done nothing. -/
def empty : Trace := ⟨[], [], [], []⟩

/-- The trace with one more module asked for. -/
def load (path : String) (t : Trace) : Trace := { t with loaded := t.loaded ++ [path] }

/-- The trace with what was given for a module, if anything was. -/
def give (path : String) (loaded : Option Loaded) (t : Trace) : Trace :=
  { t with given := t.given ++ (loaded.map (path, ·)).toList }

/-- The trace with one more text fetched. -/
def fetch (url : String) (t : Trace) : Trace := { t with fetched := t.fetched ++ [url] }

/-- The trace with one more file written. -/
def write (out text : String) (t : Trace) : Trace :=
  { t with written := t.written ++ [(out, text)] }

end Trace

/-- An action with a trace beside its state. -/
abbrev Traced (ε σ : Type) := ExceptT ε (StateM (σ × Trace))

variable {ε σ α β : Type}

/-- An action that leaves the trace alone. -/
def lifted (act : ExceptT ε (StateM σ) α) : Traced ε σ α :=
  ExceptT.mk fun (s, t) => ((act.run.run s).1, ((act.run.run s).2, t))

/-- An action that is noted before it is run. -/
def noting (note : Trace → Trace) (act : Traced ε σ α) : Traced ε σ α :=
  ExceptT.mk fun (s, t) => act.run.run (s, note t)

/-- An action whose result is noted after it has succeeded. -/
def notingResult (note : α → Trace → Trace) (act : Traced ε σ α) : Traced ε σ α :=
  ExceptT.mk fun st => match act.run.run st with
    | (.ok a, (s, t)) => (.ok a, (s, note a t))
    | failed => failed

/-- The plugin with its loads noted, and what they gave. -/
def Plugin.noted (plugin : Plugin (Traced ε σ)) : Plugin (Traced ε σ) where
  resolve := plugin.resolve
  load path origin := noting (.load path) (notingResult (.give path) (plugin.load path origin))

/-- The plugin on a state with a trace. -/
def Plugin.lifted (plugin : Plugin (ExceptT ε (StateM σ))) : Plugin (Traced ε σ) where
  resolve := plugin.resolve
  load path origin := Bundle.lifted (plugin.load path origin)

/-- A source of texts with its fetches noted. -/
def notedGet (get : String → ExceptT ε (StateM σ) RemoteText) (url : String) :
    Traced ε σ RemoteText :=
  noting (.fetch url) (lifted (get url))

/-- A way to write with its files noted. -/
def notedWrite (write : String → String → ExceptT ε (StateM σ) Unit) (out text : String) :
    Traced ε σ Unit :=
  noting (.write out text) (lifted (write out text))

/-! ## Without the trace -/

/-- Whether an action, without its trace, is `plain`. -/
def Erases (traced : Traced ε σ α) (plain : ExceptT ε (StateM σ) α) : Prop :=
  ∀ s t, ∃ t', traced.run.run (s, t) = ((plain.run.run s).1, ((plain.run.run s).2, t'))

theorem erases_pure (a : α) : Erases (pure a : Traced ε σ α) (pure a) := fun _ t => ⟨t, rfl⟩

theorem erases_throw (e : ε) : Erases (throw e : Traced ε σ α) (throw e) := fun _ t => ⟨t, rfl⟩

theorem erases_lifted (act : ExceptT ε (StateM σ) α) : Erases (lifted act) act :=
  fun _ t => ⟨t, rfl⟩

theorem Erases.noting {traced : Traced ε σ α} {plain : ExceptT ε (StateM σ) α}
    (h : Erases traced plain) (note : Trace → Trace) : Erases (noting note traced) plain :=
  fun s t => h s (note t)

theorem Erases.notingResult {traced : Traced ε σ α} {plain : ExceptT ε (StateM σ) α}
    (h : Erases traced plain) (note : α → Trace → Trace) : Erases (notingResult note traced) plain := by
  intro s t
  obtain ⟨t₁, h₁⟩ := h s t
  have hrun : (Bundle.notingResult note traced).run.run (s, t) = match traced.run.run (s, t) with
    | (.ok a, (s, t)) => (.ok a, (s, note a t))
    | failed => failed := rfl
  rw [hrun, h₁]
  rcases plain.run.run s with ⟨e | a, s₁⟩
  · exact ⟨t₁, rfl⟩
  · exact ⟨note a t₁, rfl⟩

theorem Erases.bind {x : Traced ε σ α} {x' : ExceptT ε (StateM σ) α} {f : α → Traced ε σ β}
    {f' : α → ExceptT ε (StateM σ) β} (hx : Erases x x') (hf : ∀ a, Erases (f a) (f' a)) :
    Erases (x >>= f) (x' >>= f') := by
  intro s t
  obtain ⟨t₁, h₁⟩ := hx s t
  rw [run_action_bind, run_action_bind, h₁]
  rcases x'.run.run s with ⟨e | a, s₁⟩
  · exact ⟨t₁, rfl⟩
  · exact hf a s₁ t₁

/-- Whether a plugin, without its trace, is `plain`. -/
structure PluginErases (traced : Plugin (Traced ε σ)) (plain : Plugin (ExceptT ε (StateM σ))) :
    Prop where
  resolve : traced.resolve = plain.resolve
  load (path : String) (origin : Origin) : Erases (traced.load path origin) (plain.load path origin)

theorem pluginErases_lifted (plugin : Plugin (ExceptT ε (StateM σ))) :
    PluginErases plugin.lifted plugin :=
  ⟨rfl, fun _ _ => erases_lifted _⟩

theorem PluginErases.noted {traced : Plugin (Traced ε σ)} {plain : Plugin (ExceptT ε (StateM σ))}
    (h : PluginErases traced plain) : PluginErases traced.noted plain :=
  ⟨h.resolve, fun path origin => ((h.load path origin).notingResult _).noting _⟩

theorem pluginErases_policy (p : Policy) (get : String → ExceptT ε (StateM σ) RemoteText) :
    PluginErases (p.plugin (notedGet get)) (p.plugin get) := by
  refine ⟨rfl, fun path origin => ?_⟩
  cases origin with
  | file => exact erases_pure _
  | http =>
    apply Erases.bind
    · exact (erases_lifted _).noting _
    · intro content
      exact erases_pure _

theorem erases_notedWrite (write : String → String → ExceptT ε (StateM σ) Unit)
    (out text : String) : Erases (notedWrite write out text) (write out text) :=
  (erases_lifted _).noting _

section
variable {traced : Plugin (Traced ε σ)} {plain : Plugin (ExceptT ε (StateM σ))}
  {unloaded : String → ε} {write : String → String → ExceptT ε (StateM σ) Unit}

theorem erases_planCopy (h : PluginErases traced plain) (plan : Plan) (path : String) :
    Erases (planCopy traced unloaded plan path) (planCopy plain unloaded plan path) := by
  unfold planCopy
  split
  · exact erases_pure _
  · apply (h.load path .http).bind
    rintro (_ | loaded)
    · exact erases_throw _
    · exact erases_pure _

theorem erases_planMention (h : PluginErases traced plain) (module : Pending) (plan : Plan)
    (m : Script.Mention) :
    Erases (planMention traced unloaded module plan m)
      (planMention plain unloaded module plan m) := by
  unfold planMention
  rw [h.resolve]
  split
  · exact erases_pure _
  · split
    · exact erases_pure _
    · exact erases_pure _
    · exact (erases_planCopy h plan _).bind fun plan => erases_pure _

theorem erases_planAll (h : PluginErases traced plain) (module : Pending) (plan : Plan)
    (ms : List Script.Mention) :
    Erases (planAll traced unloaded module plan ms) (planAll plain unloaded module plan ms) := by
  induction ms generalizing plan with
  | nil => exact erases_pure _
  | cons m ms ih => exact (erases_planMention h module plan m).bind ih

theorem erases_copyAll (h : PluginErases traced plain) (fuel : Nat) (seen : List String)
    (queue : List Pending) :
    Erases (copyAll traced unloaded (notedWrite write) fuel seen queue)
      (copyAll plain unloaded write fuel seen queue) := by
  induction fuel generalizing seen queue with
  | zero =>
    cases queue with
    | nil => exact erases_pure _
    | cons module queue => exact erases_pure _
  | succ fuel ih =>
    cases queue with
    | nil => exact erases_pure _
    | cons module queue =>
      apply (erases_planAll h module _ _).bind
      intro plan
      apply (erases_notedWrite write _ _).bind
      intro _
      exact ih plan.seen (queue ++ plan.fetched)

/-- Watching a bundling run changes nothing about it. -/
theorem erases_bundle (h : PluginErases traced plain) (fuel : Nat) (entryName : String)
    (injected : List String) (contents : String) :
    Erases (bundle traced unloaded (notedWrite write) fuel entryName injected contents)
      (bundle plain unloaded write fuel entryName injected contents) :=
  erases_copyAll h fuel _ _

end

/-! ## What a step does to the trace -/

/-- Whether, from any state and a trace as in `before`, an action that succeeds leaves a trace as
in `after`, and one that fails a trace as in `failed`. -/
def Ensures (before : Trace → Prop) (act : Traced ε σ α) (after : α → Trace → Prop)
    (failed : Trace → Prop) : Prop :=
  ∀ s t, before t → match act.run.run (s, t) with
    | (.ok a, (_, t')) => after a t'
    | (.error _, (_, t')) => failed t'

section
variable {before : Trace → Prop} {failed : Trace → Prop}

theorem Ensures.pure {a : α} {after : α → Trace → Prop} (h : ∀ t, before t → after a t) :
    Ensures before (Pure.pure a : Traced ε σ α) after failed :=
  fun _ t ht => h t ht

theorem Ensures.throw {e : ε} {after : α → Trace → Prop} (h : ∀ t, before t → failed t) :
    Ensures before (MonadExcept.throw e : Traced ε σ α) after failed :=
  fun _ t ht => h t ht

theorem Ensures.bind {x : Traced ε σ α} {f : α → Traced ε σ β} {between : α → Trace → Prop}
    {after : β → Trace → Prop} (hx : Ensures before x between failed)
    (hf : ∀ a, Ensures (between a) (f a) after failed) : Ensures before (x >>= f) after failed := by
  intro s t ht
  have h := hx s t ht
  rw [run_action_bind]
  rcases hrun : x.run.run (s, t) with ⟨e | a, s₁, t₁⟩
  · rw [hrun] at h
    exact h
  · rw [hrun] at h
    exact hf a s₁ t₁ h

theorem Ensures.noting {act : Traced ε σ α} {noted : Trace → Prop} {after : α → Trace → Prop}
    {note : Trace → Trace} (h : Ensures noted act after failed)
    (hnote : ∀ t, before t → noted (note t)) : Ensures before (noting note act) after failed :=
  fun s t ht => h s (note t) (hnote t ht)

theorem Ensures.notingResult {act : Traced ε σ α} {after noted : α → Trace → Prop}
    {note : α → Trace → Trace} (h : Ensures before act after failed)
    (hnote : ∀ a t, after a t → noted a (note a t)) :
    Ensures before (notingResult note act) noted failed := by
  intro s t ht
  have h := h s t ht
  have hrun : (Bundle.notingResult note act).run.run (s, t) = match act.run.run (s, t) with
    | (.ok a, (s, t)) => (.ok a, (s, note a t))
    | failed => failed := rfl
  rw [hrun]
  rcases hact : act.run.run (s, t) with ⟨e | a, s₁, t₁⟩
  · rw [hact] at h
    exact h
  · rw [hact] at h
    exact hnote a t₁ h

theorem Ensures.lifted {act : ExceptT ε (StateM σ) α} {after : α → Trace → Prop}
    (h : ∀ a t, before t → after a t) (hfailed : ∀ t, before t → failed t) :
    Ensures before (lifted act) after failed := by
  intro s t ht
  show match ((act.run.run s).1, ((act.run.run s).2, t)) with
    | (.ok a, (_, t')) => after a t'
    | (.error _, (_, t')) => failed t'
  rcases act.run.run s with ⟨e | a, s₁⟩
  · exact hfailed t ht
  · exact h a t ht

theorem Ensures.weaken {act : Traced ε σ α} {before' failed' : Trace → Prop}
    {after after' : α → Trace → Prop} (h : Ensures before act after failed)
    (hbefore : ∀ t, before' t → before t) (hafter : ∀ a t, after a t → after' a t)
    (hfailed : ∀ t, failed t → failed' t) : Ensures before' act after' failed' := by
  intro s t ht
  have h := h s t (hbefore t ht)
  rcases hrun : act.run.run (s, t) with ⟨e | a, s₁, t₁⟩
  · rw [hrun] at h
    exact hfailed t₁ h
  · rw [hrun] at h
    exact hafter a t₁ h

end

end Waymark.Bundle
