import Waymark.Build
import Waymark.Proofs.App.Kept
/-!
# What a bundler keeps

A bundler changes nothing by itself: it loads modules and writes files, and whatever both
of these keep is kept by a whole bundle.  The default bundler loads by fetching, which does
nothing to its app but what answers do, and it writes to the disk.

## Main results

* `keeps_bundle` — what loading and writing keep is kept by a bundle.
* `keeps_copyingBundler` — the default bundler keeps what answers keep.
-/

namespace Waymark.Bundle

variable {ε ε' σ α β : Type}

/-- Whatever comes of an action, it keeps a property of the state. -/
def KeepsState (I : σ → Prop) (act : ExceptT ε (StateM σ) α) : Prop :=
  ∀ s, I s → I (act.run.run s).2

section
variable {I : σ → Prop}

theorem keepsState_pure (a : α) : KeepsState I (pure a : ExceptT ε (StateM σ) α) := fun _ hs => hs

theorem keepsState_throw (e : ε) : KeepsState I (throw e : ExceptT ε (StateM σ) α) :=
  fun _ hs => hs

theorem KeepsState.bind {x : ExceptT ε (StateM σ) α} {f : α → ExceptT ε (StateM σ) β}
    (hx : KeepsState I x) (hf : ∀ a, KeepsState I (f a)) : KeepsState I (x >>= f) := by
  intro s hs
  have hnext := hx s hs
  rw [run_action_bind]
  rcases hrun : x.run.run s with ⟨e | a, s₁⟩
  · rw [hrun] at hnext
    exact hnext
  · rw [hrun] at hnext
    exact hf a s₁ hnext

/-- An action that is handled goes on with whatever came of it. -/
theorem KeepsState.handled {act : ExceptT ε' (StateM σ) α}
    {f : Except ε' α → ExceptT ε (StateM σ) β} (hact : KeepsState I act)
    (hf : ∀ a, KeepsState I (f a)) :
    KeepsState I ((liftM act.run : ExceptT ε (StateM σ) (Except ε' α)) >>= f) := by
  intro s hs
  rw [run_action_lift_bind]
  exact hf _ _ (hact s hs)

variable {plugin : Plugin (ExceptT ε (StateM σ))} {unloaded : String → ε}
  {write : String → String → ExceptT ε (StateM σ) Unit}

theorem keeps_planCopy (hload : ∀ path origin, KeepsState I (plugin.load path origin))
    (plan : Plan) (path : String) : KeepsState I (planCopy plugin unloaded plan path) := by
  unfold planCopy
  split
  · exact keepsState_pure _
  · refine (hload path .http).bind fun loaded => ?_
    cases loaded with
    | some loaded => exact keepsState_pure _
    | none => exact keepsState_throw _

theorem keeps_planMention (hload : ∀ path origin, KeepsState I (plugin.load path origin))
    (module : Pending) (plan : Plan) (m : Script.Mention) :
    KeepsState I (planMention plugin unloaded module plan m) := by
  unfold planMention
  split
  · exact keepsState_pure _
  · split
    · exact keepsState_pure _
    · exact keepsState_pure _
    · exact (keeps_planCopy hload plan _).bind fun _ => keepsState_pure _

theorem keeps_planAll (hload : ∀ path origin, KeepsState I (plugin.load path origin))
    (module : Pending) (plan : Plan) (ms : List Script.Mention) :
    KeepsState I (planAll plugin unloaded module plan ms) := by
  induction ms generalizing plan with
  | nil => exact keepsState_pure _
  | cons m ms ih => exact (keeps_planMention hload module plan m).bind fun plan => ih plan

theorem keeps_copyAll (hload : ∀ path origin, KeepsState I (plugin.load path origin))
    (hwrite : ∀ path text, KeepsState I (write path text)) (fuel : Nat) (seen : List String)
    (queue : List Pending) : KeepsState I (copyAll plugin unloaded write fuel seen queue) := by
  induction fuel generalizing seen queue with
  | zero =>
    cases queue with
    | nil => exact keepsState_pure _
    | cons module queue => exact keepsState_pure _
  | succ fuel ih =>
    cases queue with
    | nil => exact keepsState_pure _
    | cons module queue =>
      refine (keeps_planAll hload module _ _).bind fun plan => ?_
      exact (hwrite _ _).bind fun _ => ih _ _

/-- What loading and writing keep is kept by a bundle. -/
theorem keeps_bundle (hload : ∀ path origin, KeepsState I (plugin.load path origin))
    (hwrite : ∀ path text, KeepsState I (write path text)) (fuel : Nat) (entryName : String)
    (injected : List String) (contents : String) :
    KeepsState I (bundle plugin unloaded write fuel entryName injected contents) :=
  keeps_copyAll hload hwrite fuel [] _

/-- Loading by a policy keeps what getting remote modules keeps. -/
theorem keeps_load {policy : Policy} {get : String → ExceptT ε (StateM σ) RemoteText}
    (hget : ∀ url, KeepsState I (get url)) (path : String) (origin : Origin) :
    KeepsState I ((policy.plugin get).load path origin) := by
  cases origin with
  | file => exact keepsState_pure _
  | http => exact (hget _).bind fun content => keepsState_pure _

end

end Waymark.Bundle

namespace Waymark.Build

open Waymark.Bundle

/-- Changing the disk keeps what does not depend on it. -/
theorem keeps_onDisk {I : App → Prop} (hI : ∀ (a : App) (d : Disk), I a → I { a with disk := d })
    (change : Disk → Except BuildError Disk) : KeepsState I (onDisk change) := by
  intro a ha
  unfold onDisk
  rw [run_action_get_bind]
  cases change a.disk with
  | ok d => exact hI a d ha
  | error e => exact ha

/-- The default bundler keeps what answers keep and what does not depend on the disk. -/
theorem keeps_copyingBundler {I : App → Prop} (hI : App.KeptByAnswers I)
    (hdisk : ∀ (a : App) (d : Disk), I a → I { a with disk := d }) (bound : Nat)
    (policy : Policy) (job : Job) :
    KeepsState I ((copyingBundlerWithin bound).bundle policy job) := by
  unfold copyingBundlerWithin
  refine (keeps_bundle ?_ ?_ _ _ _ _).bind fun whole => ?_
  · refine keeps_load fun url => KeepsState.handled (App.keeps_fetch hI url) fun fetched => ?_
    cases fetched with
    | ok content => exact keepsState_pure _
    | error e => exact keepsState_throw _
  · exact fun path text => keeps_onDisk hdisk _
  · split
    · exact keepsState_throw _
    · exact keepsState_pure _

end Waymark.Build
