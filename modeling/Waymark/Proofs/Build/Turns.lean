import Waymark.Proofs.Build.Steady
/-!
# Emitting a level in turns

The modules of a level are worked on side by side: while the answer to one waits for a
file, others are recorded and written.  An emission is on track as long as what it has
come to is what its module comes to on its own.  Every turn keeps all emissions of the
level on track, whichever of them it works on, and takes each of them nearer to its
end.

A failure of one module does not always end the level at once, so that turns are
followed beyond failures too.

## Main results

* `advance_onTrack` — a turn keeps an emission on track and takes it nearer to its end.
* `mapM_in_turn` — what a round of turns does, one for each emission of a level.
* `emitLevel_found` — a level that is emitted leads where its modules lead.
-/

namespace Waymark.Build

open App

/-! ## Single steps -/

section
variable {a a' : App} {s : Specifier}

namespace Emission

theorem run_ask_error {e : UriError} (he : Uri.parse (Specifier.requestPath s) = .error e) :
    (ask s).run.run a =
      (.error (.bundle ("invalid request for " ++ s ++ ": " ++ e.message)), a) := by
  unfold ask
  rw [he]
  rfl

theorem run_ask {uri : Uri} (huri : Uri.parse (Specifier.requestPath s) = .ok uri)
    {answering : Answering} (hrun : (receive uri).run a = (answering, a')) :
    (ask s).run.run a = (ofAnswering s answering, a') := by
  unfold ask
  rw [huri]
  dsimp only
  rw [run_action_lift_bind, hrun]
  rfl

theorem run_advance_asked {outDir : String} {before answering : Answering}
    (hrun : (goOn before).run a = (answering, a')) :
    ((asked s before).advance outDir).run.run a = (ofAnswering s answering, a') := by
  unfold advance
  rw [run_action_lift_bind, hrun]
  rfl

theorem run_advance_served {outDir : String} {content : ByteArray} :
    ((served s content).advance outDir).run.run a =
      match makeWay a.disk (Disk.join outDir (Specifier.savePath s)) with
      | .ok disk => (.ok (.placed s content), { a with disk })
      | .error e => (.error e, a) := by
  unfold advance
  rw [run_action_bind, run_onDisk]
  cases makeWay a.disk (Disk.join outDir (Specifier.savePath s)) with
  | ok disk => rfl
  | error e => rfl

theorem run_advance_placed {outDir : String} {content : ByteArray} :
    ((placed s content).advance outDir).run.run a =
      match writeFile a.disk (Disk.join outDir (Specifier.savePath s)) content with
      | .ok disk => (.ok (.emitted (nextSpecifiers a.graph s)), { a with disk })
      | .error e => (.error e, a) := by
  unfold advance
  rw [run_action_bind, run_onDisk]
  cases writeFile a.disk (Disk.join outDir (Specifier.savePath s)) content with
  | ok disk => rfl
  | error e => rfl

end Emission

end

/-! ## On track -/

section
variable {app : App} {outDir : String} {seeds : List Specifier}

namespace Emission

/-- An emission of the module `s` is as far as it would be if it were the only one. -/
inductive OnTrack (app : App) (seeds : List Specifier) (a : App) (s : Specifier) :
    Emission → Prop where
  | reading {r : ModuleRequest} (hr : requestOf? s = some r) :
      OnTrack app seeds a s (.asked s (.reading r))
  | bundling {r : ModuleRequest} {text : String} (hr : requestOf? s = some r)
      (htext : app.textOf r = .ok text) : OnTrack app seeds a s (.asked s (.bundling r text))
  | served {content : ByteArray} (hserved : app.verdictOf s ≠ .refused)
      (hrecorded : Recorded app seeds s a) : OnTrack app seeds a s (.served s content)
  | placed {content : ByteArray} (hserved : app.verdictOf s ≠ .refused)
      (hrecorded : Recorded app seeds s a) : OnTrack app seeds a s (.placed s content)
  | emitted (hserved : app.verdictOf s ≠ .refused) :
      OnTrack app seeds a s (.emitted (leadsTo app s))
  | failed {e : BuildError} : OnTrack app seeds a s (.failed e)

theorem OnTrack.since {a a' : App} {s : Specifier} {e : Emission} {asked : List Specifier}
    (h : OnTrack app seeds a s e) (hsince : Since app outDir seeds asked a a') :
    OnTrack app seeds a' s e := by
  cases h with
  | reading hr => exact .reading hr
  | bundling hr htext => exact .bundling hr htext
  | served hserved hrecorded => exact .served hserved (hrecorded.since hsince)
  | placed hserved hrecorded => exact .placed hserved (hrecorded.since hsince)
  | emitted hserved => exact .emitted hserved
  | failed => exact .failed

/-- The most turns that an emission still takes. -/
def turnsLeft : Emission → Nat
  | .asked _ answering => answering.waiting + 2
  | .served _ _ => 2
  | .placed _ _ => 1
  | .emitted _ => 0
  | .failed _ => 0

theorem waiting_le (answering : Answering) : answering.waiting ≤ 2 := by
  cases answering with
  | reading r => exact Nat.le_refl 2
  | bundling r text => exact Nat.le_succ 1
  | answered r => exact Nat.zero_le 2

theorem turnsLeft_ofAnswering {s : Specifier} {answering : Answering} {e : Emission}
    (he : ofAnswering s answering = .ok e) : e.turnsLeft ≤ answering.waiting + 2 := by
  unfold ofAnswering at he
  split at he
  · split at he
    · obtain rfl := Except.ok.inj he
      exact Nat.le_add_left _ _
    · nomatch he
  · obtain rfl := Except.ok.inj he
    exact Nat.le_refl _

/-- A turn on the answer keeps the emission on track. -/
theorem onTrack_ofAnswering (hsteady : Steady app outDir seeds) {asked : List Specifier}
    {a a' : App} {s : Specifier} (h : Since app outDir seeds asked app a)
    (hs : s ∈ members app seeds) {answering : Answering} (hturn : Turn a s answering a') :
    Since app outDir seeds [] a a' ∧
      ∀ e, ofAnswering s answering = .ok e → OnTrack app seeds a' s e := by
  cases hturn with
  | reading hr hwaits =>
    refine ⟨since_of_waits hwaits, fun e he => ?_⟩
    obtain rfl := Except.ok.inj he
    exact .reading hr
  | bundling hr htext hwaits =>
    refine ⟨since_of_waits hwaits, fun e he => ?_⟩
    obtain rfl := Except.ok.inj he
    rw [h.textOf hsteady hs hr] at htext
    exact .bundling hr htext
  | @answered answer _ hsettles =>
    rw [h.verdictOf hsteady hs] at hsettles
    obtain ⟨hsince, hrecorded⟩ := since_of_settles hs hsettles
    refine ⟨hsince, fun e he => ?_⟩
    by_cases hsuccess : answer.isSuccess = true
    · have hserved : ofAnswering s (.answered answer) = .ok (.served s answer.body) :=
        if_pos hsuccess
      obtain rfl := Except.ok.inj (hserved.symm.trans he)
      exact .served (hsettles.success.1 hsuccess) hrecorded
    · have hrefused : ofAnswering s (.answered answer) = .error (.module s answer.status) :=
        if_neg hsuccess
      nomatch hrefused.symm.trans he

/-! ### Turns -/

theorem ask_onTrack (hsteady : Steady app outDir seeds) {asked : List Specifier} {a a' : App}
    {s : Specifier} (h : Since app outDir seeds asked app a) (hs : s ∈ members app seeds)
    {result : Except BuildError Emission} (hrun : (ask s).run.run a = (result, a')) :
    Since app outDir seeds [s] a a' ∧
      ∀ e, result = .ok e → OnTrack app seeds a' s e ∧ e.turnsLeft ≤ maxTurns := by
  cases huri : Uri.parse (Specifier.requestPath s) with
  | error e =>
    rw [run_ask_error huri] at hrun
    obtain ⟨rfl, rfl⟩ := Prod.mk.inj hrun
    refine ⟨since_of_parse_error huri, ?_⟩
    intro e he
    cases he
  | ok uri =>
    rcases hreceive : (receive uri).run a with ⟨answering, a₁⟩
    rw [run_ask huri hreceive] at hrun
    obtain ⟨rfl, rfl⟩ := Prod.mk.inj hrun
    obtain ⟨seen, hseen, hturn⟩ := turn_receive huri (h.hook hsteady uri)
      (fun r hr => h.fetchesAway hsteady hs hr) hreceive
    have hreceived : Since app outDir seeds [s] a seen := since_of_receives huri hseen
    obtain ⟨hsince, htrack⟩ := onTrack_ofAnswering hsteady (h.trans hreceived) hs hturn
    refine ⟨hreceived.trans hsince, fun e he => ⟨htrack e he, ?_⟩⟩
    have hleft := turnsLeft_ofAnswering he
    have hwaiting := waiting_le answering
    unfold maxTurns
    omega

theorem since_of_written {a : App} {d : Disk} (hd : Written outDir (members app seeds) a.disk d) :
    Since app outDir seeds [] a { a with disk := d } :=
  ⟨rfl, rfl, rfl, hd, by simp, fun _ => Or.inl rfl⟩

theorem advance_asked_onTrack (hsteady : Steady app outDir seeds) {asked : List Specifier}
    {a a' : App} {s : Specifier} (h : Since app outDir seeds asked app a)
    (hs : s ∈ members app seeds) {before : Answering} (hbefore : 0 < before.waiting)
    (hturn : ∀ {answering : Answering} {a₁ : App}, (goOn before).run a = (answering, a₁) →
      Turn a s answering a₁) {result : Except BuildError Emission}
    (hrun : ((Emission.asked s before).advance outDir).run.run a = (result, a')) :
    Since app outDir seeds [] a a' ∧ ∀ e, result = .ok e →
      OnTrack app seeds a' s e ∧ e.turnsLeft ≤ (Emission.asked s before).turnsLeft - 1 := by
  rcases hgo : (goOn before).run a with ⟨answering, a₁⟩
  rw [run_advance_asked hgo] at hrun
  obtain ⟨rfl, rfl⟩ := Prod.mk.inj hrun
  obtain ⟨hsince, htrack⟩ := onTrack_ofAnswering hsteady h hs (hturn hgo)
  refine ⟨hsince, fun e he => ⟨htrack e he, ?_⟩⟩
  have hleft := turnsLeft_ofAnswering he
  have hlt : ((goOn before).run a).1.waiting < before.waiting := waiting_goOn_lt hbefore
  rw [hgo] at hlt
  dsimp only at hlt
  show e.turnsLeft ≤ before.waiting + 2 - 1
  omega

/-- A turn keeps the emission it works on on track, and takes it nearer to its end. -/
theorem advance_onTrack (hsteady : Steady app outDir seeds) {asked : List Specifier}
    {a a' : App} {s : Specifier} (h : Since app outDir seeds asked app a)
    (hs : s ∈ members app seeds) {e : Emission} (htrack : OnTrack app seeds a s e)
    {result : Except BuildError Emission} (hrun : (e.advance outDir).run.run a = (result, a')) :
    Since app outDir seeds [] a a' ∧ ∀ e', result = .ok e' →
      OnTrack app seeds a' s e' ∧ e'.turnsLeft ≤ e.turnsLeft - 1 := by
  cases htrack with
  | @reading r hr =>
    have hwaiting : 0 < (Answering.reading r).waiting := Nat.two_pos
    exact advance_asked_onTrack hsteady h hs hwaiting
      (turn_goOn_reading hr (h.fetchesAway hsteady hs hr)) hrun
  | @bundling r text hr htext =>
    have hwaiting : 0 < (Answering.bundling r text).waiting := Nat.one_pos
    rw [← h.textOf hsteady hs hr] at htext
    exact advance_asked_onTrack hsteady h hs hwaiting (turn_goOn_bundling hr htext) hrun
  | served hserved hrecorded =>
    rw [run_advance_served] at hrun
    cases hway : makeWay a.disk (Disk.join outDir (Specifier.savePath s)) with
    | error e =>
      rw [hway] at hrun
      obtain ⟨rfl, rfl⟩ := Prod.mk.inj hrun
      exact ⟨.refl a, fun e he => nomatch he⟩
    | ok d =>
      rw [hway] at hrun
      obtain ⟨rfl, rfl⟩ := Prod.mk.inj hrun
      have hsince : Since app outDir seeds [] a { a with disk := d } :=
        since_of_written (.way .refl hs hway)
      refine ⟨hsince, fun e he => ?_⟩
      obtain rfl := Except.ok.inj he
      exact ⟨.placed hserved (hrecorded.since hsince), Nat.le_refl 1⟩
  | @placed content hserved hrecorded =>
    rw [run_advance_placed] at hrun
    cases hfile : writeFile a.disk (Disk.join outDir (Specifier.savePath s)) content with
    | error e =>
      rw [hfile] at hrun
      obtain ⟨rfl, rfl⟩ := Prod.mk.inj hrun
      exact ⟨.refl a, fun e he => nomatch he⟩
    | ok d =>
      rw [hfile] at hrun
      obtain ⟨rfl, rfl⟩ := Prod.mk.inj hrun
      have hsince : Since app outDir seeds [] a { a with disk := d } :=
        since_of_written (.file .refl hs hfile)
      refine ⟨hsince, fun e he => ?_⟩
      obtain rfl := Except.ok.inj he
      rw [leadsTo_of_recorded hsteady h hs hrecorded]
      exact ⟨.emitted hserved, Nat.le_refl 0⟩
  | emitted hserved =>
    obtain ⟨rfl, rfl⟩ := Prod.mk.inj hrun
    refine ⟨.refl a, fun e he => ?_⟩
    obtain rfl := Except.ok.inj he
    exact ⟨.emitted hserved, Nat.le_refl 0⟩
  | failed =>
    obtain ⟨rfl, rfl⟩ := Prod.mk.inj hrun
    refine ⟨.refl a, fun e he => ?_⟩
    obtain rfl := Except.ok.inj he
    exact ⟨.failed, Nat.le_refl 0⟩

/-- An emission on track that takes at most a number of turns. -/
def InTime (app : App) (seeds : List Specifier) (turns : Nat) (a : App) (s : Specifier)
    (e : Emission) : Prop :=
  OnTrack app seeds a s e ∧ e.turnsLeft ≤ turns

theorem InTime.since {turns : Nat} {a a' : App} {s : Specifier} {e : Emission}
    {asked : List Specifier} (h : InTime app seeds turns a s e)
    (hsince : Since app outDir seeds asked a a') : InTime app seeds turns a' s e :=
  ⟨h.1.since hsince, h.2⟩

end Emission

/-! ## Levels -/

open Emission

theorem keepFailure_inTime {hasty : Bool} {act : App.Action BuildError Emission} {turns : Nat}
    {asked : List Specifier} {a a' : App} {s : Specifier} {e : Emission}
    (hact : ∀ {result : Except BuildError Emission} {a₁ : App}, act.run.run a = (result, a₁) →
      Since app outDir seeds asked a a₁ ∧
        ∀ e, result = .ok e → OnTrack app seeds a₁ s e ∧ e.turnsLeft ≤ turns)
    (hrun : (keepFailure hasty act).run.run a = (.ok e, a')) :
    Since app outDir seeds asked a a' ∧ InTime app seeds turns a' s e := by
  rcases hresult : act.run.run a with ⟨result, a₁⟩
  obtain ⟨hsince, hok⟩ := hact hresult
  unfold keepFailure at hrun
  split at hrun
  · rw [hresult] at hrun
    obtain ⟨rfl, rfl⟩ := Prod.mk.inj hrun
    exact ⟨hsince, hok e rfl⟩
  · rw [run_action_tryCatch, hresult] at hrun
    cases result with
    | ok e₁ =>
      obtain ⟨he, rfl⟩ := Prod.mk.inj hrun
      obtain rfl := Except.ok.inj he
      exact ⟨hsince, hok e₁ rfl⟩
    | error cause =>
      obtain ⟨he, rfl⟩ := Prod.mk.inj hrun
      obtain rfl := Except.ok.inj he
      exact ⟨hsince, .failed, Nat.zero_le _⟩

/-- Work on all items of a level in turn, where `R` is what a state has in common with a later one
and the work on one item leaves what is known of the others as it is. -/
theorem mapM_in_turn {β γ : Type} {f : β → App.Action BuildError γ}
    {R : List Specifier → App → App → Prop} (hrefl : ∀ a, R [] a a)
    (htrans : ∀ {asked asked' a b c}, R asked a b → R asked' b c → R (asked ++ asked') a c)
    {S : Specifier → Prop} {entry : Specifier → List Specifier} {P : App → Specifier → β → Prop}
    {Q : App → Specifier → γ → Prop}
    (hP : ∀ {asked a a' s x}, P a s x → R asked a a' → P a' s x)
    (hQ : ∀ {asked a a' s y}, Q a s y → R asked a a' → Q a' s y) {start : App}
    (hf : ∀ {asked a a' s x y}, R asked start a → S s → P a s x →
      (f x).run.run a = (.ok y, a') → R (entry s) a a' ∧ Q a' s y)
    {level : List Specifier} {xs : List β} {ys : List γ} {asked : List Specifier} {a a' : App}
    (h : R asked start a) (hlevel : ∀ s ∈ level, S s) (hxs : List.Forall₂ (P a) level xs)
    (hrun : (xs.mapM f).run.run a = (.ok ys, a')) :
    R (level.flatMap entry) a a' ∧ List.Forall₂ (Q a') level ys := by
  induction level generalizing xs ys asked a with
  | nil =>
    cases hxs
    rw [List.mapM_nil] at hrun
    obtain ⟨hys, rfl⟩ := Prod.mk.inj hrun
    obtain rfl := Except.ok.inj hys
    exact ⟨hrefl a, .nil⟩
  | cons s level ih =>
    obtain ⟨x, xs, hx, hrest_xs, rfl⟩ := List.forall₂_cons_left_iff.1 hxs
    rw [List.mapM_cons] at hrun
    obtain ⟨y, a₁, hy, hrun⟩ := exists_of_run_bind hrun
    obtain ⟨zs, a₂, hzs, hrun⟩ := exists_of_run_bind hrun
    obtain ⟨hys, rfl⟩ := Prod.mk.inj hrun
    obtain rfl := Except.ok.inj hys
    obtain ⟨hstep, hQy⟩ := hf h (hlevel s (List.mem_cons_self ..)) hx hy
    obtain ⟨hrest, hQzs⟩ := ih (htrans h hstep) (fun t ht => hlevel t (List.mem_cons_of_mem _ ht))
      (hrest_xs.imp fun _ _ hx => hP hx hstep) hzs
    exact ⟨htrans hstep hrest, .cons (hQ hQy hrest) hQzs⟩

theorem advanceAll_inTime (hsteady : Steady app outDir seeds) {hasty : Bool} {turns : Nat}
    {level asked : List Specifier} {es es' : List Emission} {a a' : App}
    (h : Since app outDir seeds asked app a) (hlevel : ∀ s ∈ level, s ∈ members app seeds)
    (hes : List.Forall₂ (InTime app seeds turns a) level es)
    (hrun : (advanceAll hasty outDir turns es).run.run a = (.ok es', a')) :
    Since app outDir seeds [] a a' ∧ List.Forall₂ (InTime app seeds 0 a') level es' := by
  induction turns generalizing es asked a with
  | zero =>
    obtain ⟨hes', rfl⟩ := Prod.mk.inj hrun
    obtain rfl := Except.ok.inj hes'
    exact ⟨.refl a, hes⟩
  | succ turns ih =>
    obtain ⟨es₁, a₁, hturn, hrun⟩ := exists_of_run_bind hrun
    have hstep : Since app outDir seeds (level.flatMap fun _ => []) a a₁ ∧
        List.Forall₂ (InTime app seeds turns a₁) level es₁ := by
      refine mapM_in_turn Since.refl Since.trans (fun hx hsince => hx.since hsince)
        (fun hx hsince => hx.since hsince) ?_ h hlevel hes hturn
      intro asked a a' s e e' h hs he hrun
      refine keepFailure_inTime ?_ hrun
      intro result a₁ hadvance
      obtain ⟨hsince, hok⟩ := advance_onTrack hsteady h hs he.1 hadvance
      refine ⟨hsince, fun e₁ he₁ => ⟨(hok e₁ he₁).1, ?_⟩⟩
      have hleft := (hok e₁ he₁).2
      have hturns := he.2
      omega
    have hnone : level.flatMap (fun _ => ([] : List Specifier)) = [] :=
      List.flatMap_eq_nil_iff.2 fun _ _ => rfl
    rw [hnone] at hstep
    obtain ⟨hsince, hes₁⟩ := hstep
    obtain ⟨hsince', hes'⟩ := ih (h.trans hsince) hes₁ hrun
    exact ⟨hsince.trans hsince', hes'⟩

/-- An emission without turns left tells where its module leads, or that it failed. -/
theorem next_of_inTime {a : App} {s : Specifier} {e : Emission} {next : List Specifier}
    (he : InTime app seeds 0 a s e) (hnext : e.next = .ok next) :
    app.verdictOf s ≠ .refused ∧ next = leadsTo app s := by
  obtain ⟨htrack, hleft⟩ := he
  cases htrack with
  | reading => nomatch hleft
  | bundling => nomatch hleft
  | served => nomatch hleft
  | placed => nomatch hleft
  | emitted hserved => exact ⟨hserved, (Except.ok.inj hnext).symm⟩
  | failed => nomatch hnext

theorem mapM_next_of_inTime {a : App} {level : List Specifier} {es : List Emission}
    {nexts : List (List Specifier)} (hes : List.Forall₂ (InTime app seeds 0 a) level es)
    (hnexts : es.mapM Emission.next = .ok nexts) :
    (∀ s ∈ level, app.verdictOf s ≠ .refused) ∧ nexts = level.map (leadsTo app) := by
  induction hes generalizing nexts with
  | nil =>
    rw [List.mapM_nil] at hnexts
    obtain rfl := Except.ok.inj hnexts
    exact ⟨fun s hs => (nomatch hs), rfl⟩
  | @cons s e level es he _ ih =>
    rw [List.mapM_cons] at hnexts
    obtain ⟨next, hnext, hnexts⟩ := exists_of_bind_eq_ok hnexts
    obtain ⟨rest, hrest, hnexts⟩ := exists_of_bind_eq_ok hnexts
    obtain rfl := Except.ok.inj hnexts
    obtain ⟨hserved, hlead⟩ := next_of_inTime he hnext
    obtain ⟨hlevel, hleads⟩ := ih hrest
    rw [hlead, hleads, List.map_cons]
    exact ⟨List.forall_mem_cons.2 ⟨hserved, hlevel⟩, rfl⟩

/-- A level that is emitted was asked for module by module in its order, all of it was served, and
it leads where its modules lead. -/
theorem emitLevel_found (hsteady : Steady app outDir seeds) {level asked found : List Specifier}
    {a a' : App} (h : Since app outDir seeds asked app a)
    (hlevel : ∀ s ∈ level, s ∈ members app seeds)
    (hrun : (emitLevel outDir level).run.run a = (.ok found, a')) :
    Since app outDir seeds level a a' ∧ (∀ s ∈ level, Served app s) ∧
      found = level.flatMap (leadsTo app) := by
  unfold emitLevel at hrun
  dsimp only at hrun
  obtain ⟨es, a₁, hask, hrun⟩ := exists_of_run_bind hrun
  obtain ⟨es', a₂, hadvance, hrun⟩ := exists_of_run_bind hrun
  obtain ⟨nexts, a₃, hnext, hrun⟩ := exists_of_run_bind hrun
  obtain ⟨hfound, rfl⟩ := Prod.mk.inj hrun
  obtain rfl := Except.ok.inj hfound
  obtain ⟨hnexts, rfl⟩ := Prod.mk.inj hnext
  have hsame : List.Forall₂ (fun s x => x = s) level level := List.forall₂_same.2 fun _ _ => rfl
  have hasked : Since app outDir seeds (level.flatMap fun s => [s]) a a₁ ∧
      List.Forall₂ (InTime app seeds maxTurns a₁) level es := by
    refine mapM_in_turn Since.refl Since.trans (P := fun _ s x => x = s) (fun hx _ => hx)
      (fun hx hsince => hx.since hsince) ?_ h hlevel hsame hask
    rintro asked a a' s x e h hs rfl hrun
    exact keepFailure_inTime (fun hresult => ask_onTrack hsteady h hs hresult) hrun
  rw [List.flatMap_singleton'] at hasked
  obtain ⟨hsince, hes⟩ := hasked
  obtain ⟨hsince', hes'⟩ := advanceAll_inTime hsteady (h.trans hsince) hlevel hes hadvance
  obtain ⟨hserved, rfl⟩ := mapM_next_of_inTime hes' hnexts
  refine ⟨?_, fun s hs => (served_iff hsteady (hlevel s hs)).2 (hserved s hs), ?_⟩
  · have hwhole := hsince.trans hsince'
    rwa [List.append_nil] at hwhole
  · rw [List.flatMap_def]

end

end Waymark.Build
