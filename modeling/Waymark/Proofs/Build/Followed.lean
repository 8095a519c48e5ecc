import Waymark.Proofs.App.Served
import Waymark.Proofs.Build.Turns
import Waymark.Proofs.Specifier.Marked
/-!
# Dependencies that are followed

A walk looks up where a module leads under the key of its specifier as it is written.
What the module server records, it records under the key of the specifier that it reads
from the request.  Where the two are the same for every module that has to do with a key,
all dependencies recorded under it are followed, and what the walk has collected is
closed under them.  Where they differ, the record is not found and the dependencies are
left out.

Nothing is assumed of the app: records may change while the walk goes on, as a file that
it writes may be the source of another module.  The argument is that whoever changes a
record looks it up afterwards.  An emission that has still to look up will find what is
recorded then, one that has looked up has found what is recorded unless it was changed
since, and the one that changed it has still to look up.

## Main results

* `advance_works` — what a turn on an emission does to the record under a key.
* `mapM_matches` — a round of turns leaves an emission that matches the record.
* `emitLevel_follows` — a level leads where the records of its modules say.
* `collectModules_follows` — whatever is recorded of a module is collected with it.
-/

namespace Waymark

namespace Build

open App

/-! ## Keys and kinds -/

theorem nextSpecifiers_congr_key (g : Graph) {s t : Specifier}
    (h : Specifier.graphKey s = Specifier.graphKey t) :
    nextSpecifiers g s = nextSpecifiers g t := by
  have hstyle : Specifier.isStyle s = Specifier.isStyle t := by
    rw [← Specifier.isStyle_graphKey s, h, Specifier.isStyle_graphKey t]
  rw [nextSpecifiers, nextSpecifiers, Specifier.isStyle_stripQuery, Specifier.isStyle_stripQuery,
    hstyle, h]

/-- What a dependency is asked for as: a sheet is wanted as a script module. -/
def followed (dep : Specifier) : Specifier :=
  if Specifier.isStyle dep then dep ++ "?module" else dep

theorem followed_mem_nextSpecifiers {g : Graph} {s dep : Specifier} {record : ModuleRecord}
    (hstyle : Specifier.isStyle s = false) (hrecord : g.get? (Specifier.graphKey s) = some record)
    (hdep : dep ∈ record.deps) : followed dep ∈ nextSpecifiers g s := by
  rw [nextSpecifiers, Specifier.isStyle_stripQuery, hstyle, if_neg Bool.false_ne_true, hrecord]
  exact List.mem_map_of_mem hdep

section
variable {app : App} {outDir : String} {K : Specifier}

/-! ## One emission -/

/-- The compilers and the address of an app, which a walk leaves alone. -/
structure Alike (app a : App) : Prop where
  pipeline : a.pipeline = app.pipeline
  homePort : a.homePort = app.homePort

theorem Alike.trans {a a' : App} (h : Alike app a) (h' : Keeps a a') : Alike app a' :=
  ⟨h'.pipeline.trans h.pipeline, h'.homePort.trans h.homePort⟩

namespace Emission

/-- An emission is one of the module `s`. -/
inductive Concerns (s : Specifier) : Emission → Prop where
  | asked {answering : Answering} (h : IsFor s answering) (hwaits : 0 < answering.waiting) :
      Concerns s (.asked s answering)
  | served (content : ByteArray) : Concerns s (.served s content)
  | placed (content : ByteArray) : Concerns s (.placed s content)
  | emitted (next : List Specifier) : Concerns s (.emitted next)
  | failed (e : BuildError) : Concerns s (.failed e)

/-- If the emission has looked up where its module leads, then it has found what is recorded. -/
def Matches (a : App) (s : Specifier) (e : Emission) : Prop :=
  ∀ next, e = .emitted next → next = nextSpecifiers a.graph s

/-- The emission has still to look up where its module leads. -/
def IsPending (e : Emission) : Prop := ∀ next, e ≠ .emitted next

theorem IsPending.matches {e : Emission} (h : IsPending e) (a : App) (s : Specifier) :
    Matches a s e := fun next he => absurd he (h next)

/-- The emission that is left of work that may have failed. -/
def settle : Except BuildError Emission → Emission
  | .ok e => e
  | .error cause => .failed cause

theorem keepFailure_settle {hasty : Bool} {act : App.Action BuildError Emission} {a a' : App}
    {e : Emission} (hrun : (keepFailure hasty act).run.run a = (.ok e, a')) :
    ∃ result, act.run.run a = (result, a') ∧ e = settle result := by
  unfold keepFailure at hrun
  split at hrun
  · exact ⟨.ok e, hrun, rfl⟩
  · rw [run_action_tryCatch] at hrun
    rcases hresult : act.run.run a with ⟨cause | e₁, a₁⟩
    · rw [hresult] at hrun
      obtain ⟨he, rfl⟩ := Prod.mk.inj hrun
      exact ⟨.error cause, rfl, (Except.ok.inj he).symm⟩
    · rw [hresult] at hrun
      obtain ⟨he, rfl⟩ := Prod.mk.inj hrun
      exact ⟨.ok e₁, rfl, (Except.ok.inj he).symm⟩

/-- What work on the module `s` does: it leads to the emission `e`, and what is recorded under the
key `K` is changed only where the module can be recorded under it and has still to be looked up. -/
structure Works (app : App) (K s : Specifier) (a : App) (e : Emission) (a' : App) : Prop where
  alike : Alike app a'
  concerns : Concerns s e
  record : a'.depsAt K = a.depsAt K ∨ (CanRecord app s K ∧ IsPending e)

theorem works_of_touches {a a' : App} {s : Specifier} {e : Emission} (halike : Alike app a)
    (h : Touches a (CanRecord a s) a') (hconcerns : Concerns s e) (hpending : IsPending e) :
    Works app K s a e a' := by
  refine ⟨halike.trans h.keeps, hconcerns, ?_⟩
  by_cases hK : CanRecord a s K
  · exact Or.inr ⟨hK.congr halike.pipeline.symm halike.homePort.symm, hpending⟩
  · exact Or.inl (h.others K hK)

/-- An answer is turned into an emission that has still to look up. -/
theorem settle_ofAnswering {s : Specifier} {answering : Answering} (h : IsFor s answering) :
    Concerns s (settle (ofAnswering s answering)) ∧ IsPending (settle (ofAnswering s answering)) ∧
      (settle (ofAnswering s answering)).turnsLeft ≤ answering.waiting + 2 := by
  cases h with
  | reading hr => exact ⟨.asked (.reading hr) Nat.two_pos, fun _ he => (nomatch he), Nat.le_refl _⟩
  | bundling hr text =>
    exact ⟨.asked (.bundling hr text) Nat.one_pos, fun _ he => (nomatch he), Nat.le_refl _⟩
  | answered answer =>
    unfold ofAnswering
    dsimp only
    split
    · exact ⟨.served _, fun _ he => (nomatch he), Nat.le_refl 2⟩
    · exact ⟨.failed _, fun _ he => (nomatch he), Nat.zero_le _⟩

/-- Asking for a module leaves it to be looked up. -/
theorem ask_works {a a' : App} {s : Specifier} (halike : Alike app a)
    {result : Except BuildError Emission} (hrun : (ask s).run.run a = (result, a')) :
    Works app K s a (settle result) a' ∧ IsPending (settle result) ∧
      (settle result).turnsLeft ≤ maxTurns := by
  cases huri : Uri.parse (Specifier.requestPath s) with
  | error e =>
    rw [run_ask_error huri] at hrun
    obtain ⟨rfl, rfl⟩ := Prod.mk.inj hrun
    exact ⟨⟨halike, .failed _, Or.inl rfl⟩, fun _ he => (nomatch he), Nat.zero_le _⟩
  | ok uri =>
    rcases hreceive : (receive uri).run a with ⟨answering, a₁⟩
    rw [run_ask huri hreceive] at hrun
    obtain ⟨rfl, rfl⟩ := Prod.mk.inj hrun
    obtain ⟨htouches, hfor⟩ := touches_receive huri a
    rw [hreceive] at htouches hfor
    dsimp only at hfor
    obtain ⟨hconcerns, hpending, hleft⟩ := settle_ofAnswering hfor
    have hwaiting := waiting_le answering
    refine ⟨works_of_touches halike htouches hconcerns hpending, hpending, hleft.trans ?_⟩
    unfold maxTurns
    omega

/-- A turn on an emission takes it nearer to its end.  If it has looked up before then what it has
found is still right, and if it looks up now then it is. -/
theorem advance_works {a a' : App} {s : Specifier} {e : Emission} (halike : Alike app a)
    (hconcerns : Concerns s e) {result : Except BuildError Emission}
    (hrun : (e.advance outDir).run.run a = (result, a')) :
    Works app K s a (settle result) a' ∧ (settle result).turnsLeft ≤ e.turnsLeft - 1 ∧
      (Matches a s e → Matches a' s (settle result)) := by
  cases hconcerns with
  | @asked before hfor hwaits =>
    rcases hgo : (goOn before).run a with ⟨answering, a₁⟩
    rw [run_advance_asked hgo] at hrun
    obtain ⟨rfl, rfl⟩ := Prod.mk.inj hrun
    obtain ⟨htouches, hfor'⟩ := touches_goOn hfor a
    have hlt : ((goOn before).run a).1.waiting < before.waiting := waiting_goOn_lt hwaits
    rw [hgo] at htouches hfor' hlt
    dsimp only at hfor' hlt
    obtain ⟨hconcerns, hpending, hleft⟩ := settle_ofAnswering hfor'
    refine ⟨works_of_touches halike htouches hconcerns hpending, ?_, fun _ => hpending.matches _ _⟩
    show _ ≤ before.waiting + 2 - 1
    omega
  | served content =>
    rw [run_advance_served] at hrun
    cases hway : makeWay a.disk (Disk.join outDir (Specifier.savePath s)) with
    | error cause =>
      rw [hway] at hrun
      obtain ⟨rfl, rfl⟩ := Prod.mk.inj hrun
      exact ⟨⟨halike, .failed _, Or.inl rfl⟩, Nat.zero_le _, fun _ _ he => (nomatch he)⟩
    | ok d =>
      rw [hway] at hrun
      obtain ⟨rfl, rfl⟩ := Prod.mk.inj hrun
      exact ⟨⟨⟨halike.pipeline, halike.homePort⟩, .placed _, Or.inl rfl⟩, Nat.le_refl 1,
        fun _ _ he => (nomatch he)⟩
  | placed content =>
    rw [run_advance_placed] at hrun
    cases hfile : writeFile a.disk (Disk.join outDir (Specifier.savePath s)) content with
    | error cause =>
      rw [hfile] at hrun
      obtain ⟨rfl, rfl⟩ := Prod.mk.inj hrun
      exact ⟨⟨halike, .failed _, Or.inl rfl⟩, Nat.zero_le _, fun _ _ he => (nomatch he)⟩
    | ok d =>
      rw [hfile] at hrun
      obtain ⟨rfl, rfl⟩ := Prod.mk.inj hrun
      refine ⟨⟨⟨halike.pipeline, halike.homePort⟩, .emitted _, Or.inl rfl⟩, Nat.zero_le _, ?_⟩
      intro _ next he
      exact (emitted.inj he).symm
  | emitted next =>
    obtain ⟨rfl, rfl⟩ := Prod.mk.inj hrun
    exact ⟨⟨halike, .emitted next, Or.inl rfl⟩, Nat.zero_le _, id⟩
  | failed cause =>
    obtain ⟨rfl, rfl⟩ := Prod.mk.inj hrun
    exact ⟨⟨halike, .failed cause, Or.inl rfl⟩, Nat.zero_le _, id⟩

theorem Matches.congr {a a' : App} {s : Specifier} {e : Emission}
    (hs : Specifier.graphKey s = K) (hK : a'.depsAt K = a.depsAt K) (h : Matches a s e) :
    Matches a' s e := by
  intro next he
  rw [h next he]
  subst hs
  exact (nextSpecifiers_congr hK).symm

end Emission

/-! ## Rounds of a level -/

open Emission

/-- Of two lists that belong together, some items that stand at one place are related. -/
inductive Some₂ {α β : Type} (R : α → β → Prop) : List α → List β → Prop where
  | head {a : α} {b : β} {as : List α} {bs : List β} (h : R a b) : Some₂ R (a :: as) (b :: bs)
  | tail {a : α} {b : β} {as : List α} {bs : List β} (h : Some₂ R as bs) :
      Some₂ R (a :: as) (b :: bs)

theorem some₂_self {α : Type} {R : α → α → Prop} {as : List α} {a : α} (h : a ∈ as) (hR : R a a) :
    Some₂ R as as := by
  induction h with
  | head as => exact .head hR
  | tail b _ ih => exact .tail ih

theorem Some₂.exists_of_forall₂ {α β : Type} {R P : α → β → Prop} {as : List α} {bs : List β}
    (h : Some₂ R as bs) (hall : List.Forall₂ P as bs) :
    ∃ a ∈ as, ∃ b ∈ bs, R a b ∧ P a b := by
  induction h with
  | head hR =>
    cases hall with
    | cons hP _ => exact ⟨_, List.mem_cons_self .., _, List.mem_cons_self .., hR, hP⟩
  | tail _ ih =>
    cases hall with
    | cons _ hall =>
      obtain ⟨a, ha, b, hb, h⟩ := ih hall
      exact ⟨a, List.mem_cons_of_mem _ ha, b, List.mem_cons_of_mem _ hb, h⟩

theorem Some₂.imp {α β : Type} {R S : α → β → Prop} (hle : ∀ a b, R a b → S a b) {as : List α}
    {bs : List β} (h : Some₂ R as bs) : Some₂ S as bs := by
  induction h with
  | head hR => exact .head (hle _ _ hR)
  | tail _ ih => exact .tail ih

/-- The module has the key `K` and satisfies `Q`. -/
def Has {β : Type} (K : Specifier) (Q : Specifier → β → Prop) (s : Specifier) (x : β) : Prop :=
  Specifier.graphKey s = K ∧ Q s x

/-- What a round of work on a level does: all its modules satisfy `P`, and unless one of them
satisfies `Q`, what is recorded under the key stays as it is. -/
structure Round {γ : Type} (app : App) (K : Specifier) (level : List Specifier)
    (P : Specifier → γ → Prop) (a : App) (ys : List γ) (a' : App) : Prop where
  alike : Alike app a'
  each : List.Forall₂ P level ys
  elsewhere : (∀ s ∈ level, Specifier.graphKey s ≠ K) → a'.depsAt K = a.depsAt K

/-- A round of work on a level.  If `Q` holds of one of its modules before, or something else does
that only depends on the record, then `R` or the other holds afterwards: a module that changes the
record satisfies `R` by that, whatever happens next. -/
theorem mapM_matches {β γ : Type} {f : β → App.Action BuildError γ}
    {P : Specifier → β → Prop} {P' : Specifier → γ → Prop}
    {Q : App → Specifier → β → Prop} {R : App → Specifier → γ → Prop}
    (hQ : ∀ {a a' s x}, Specifier.graphKey s = K → a'.depsAt K = a.depsAt K → Q a s x → Q a' s x)
    (hR : ∀ {a a' s y}, Specifier.graphKey s = K → a'.depsAt K = a.depsAt K → R a s y →
      R a' s y)
    (hf : ∀ {a a' s x y}, Alike app a → P s x → (f x).run.run a = (.ok y, a') →
      Alike app a' ∧ P' s y ∧
        (a'.depsAt K = a.depsAt K ∨ (CanRecord app s K ∧ ∀ b, R b s y)) ∧
          (Q a s x → R a' s y))
    {level : List Specifier} {xs : List β} {ys : List γ} {a a' : App} (halike : Alike app a)
    (hown : ∀ s ∈ level, CanRecord app s K → Specifier.graphKey s = K)
    (hxs : List.Forall₂ P level xs) (hrun : (xs.mapM f).run.run a = (.ok ys, a')) :
    Round app K level P' a ys a' ∧ ∀ B : App → Prop,
      (∀ b b', b'.depsAt K = b.depsAt K → B b → B b') →
        B a ∨ Some₂ (Has K (Q a)) level xs → B a' ∨ Some₂ (Has K (R a')) level ys := by
  induction level generalizing xs ys a with
  | nil =>
    cases hxs
    rw [List.mapM_nil] at hrun
    obtain ⟨hys, rfl⟩ := Prod.mk.inj hrun
    obtain rfl := Except.ok.inj hys
    refine ⟨⟨halike, .nil, fun _ => rfl⟩, fun B _ h => ?_⟩
    rcases h with h | h
    · exact Or.inl h
    · nomatch h
  | cons s level ih =>
    obtain ⟨x, xs, hx, hrest, rfl⟩ := List.forall₂_cons_left_iff.1 hxs
    rw [List.mapM_cons] at hrun
    obtain ⟨y, a₁, hy, hrun⟩ := exists_of_run_bind hrun
    obtain ⟨zs, a₂, hzs, hrun⟩ := exists_of_run_bind hrun
    obtain ⟨hys, rfl⟩ := Prod.mk.inj hrun
    obtain rfl := Except.ok.inj hys
    obtain ⟨halike₁, hP, hrecord, hnow⟩ := hf halike hx hy
    have hown' : ∀ t ∈ level, CanRecord app t K → Specifier.graphKey t = K :=
      fun t ht => hown t (List.mem_cons_of_mem _ ht)
    obtain ⟨hround, hlater⟩ := ih halike₁ hown' hrest hzs
    refine ⟨⟨hround.alike, .cons hP hround.each, ?_⟩, ?_⟩
    · intro hne
      rw [hround.elsewhere fun t ht => hne t (List.mem_cons_of_mem _ ht)]
      refine hrecord.resolve_right ?_
      rintro ⟨hcan, -⟩
      exact hne s (List.mem_cons_self ..) (hown s (List.mem_cons_self ..) hcan)
    · intro B hB h
      -- the module at hand joins what the rest of the round has to leave standing
      have hjoined : ∀ b b', b'.depsAt K = b.depsAt K →
          B b ∨ Has K (R b) s y → B b' ∨ Has K (R b') s y := by
        rintro b b' hb (h | ⟨hs, h⟩)
        · exact Or.inl (hB b b' hb h)
        · exact Or.inr ⟨hs, hR hs hb h⟩
      have hstart : (B a₁ ∨ Has K (R a₁) s y) ∨ Some₂ (Has K (Q a₁)) level xs := by
        rcases hrecord with hsame | ⟨hcan, hany⟩
        · rcases h with h | h
          · exact Or.inl (Or.inl (hB a a₁ hsame h))
          · cases h with
            | head h => exact Or.inl (Or.inr ⟨h.1, hnow h.2⟩)
            | tail h => exact Or.inr (h.imp fun _ _ ht => ⟨ht.1, hQ ht.1 hsame ht.2⟩)
        · exact Or.inl (Or.inr ⟨hown s (List.mem_cons_self ..) hcan, hany a₁⟩)
      rcases hlater _ hjoined hstart with (h | h) | h
      · exact Or.inl h
      · exact Or.inr (.head h)
      · exact Or.inr (.tail h)

/-- An emission of the module that takes at most a number of turns. -/
def EndsIn (turns : Nat) (s : Specifier) (e : Emission) : Prop :=
  Concerns s e ∧ e.turnsLeft ≤ turns

theorem Round.trans {γ : Type} {P : Specifier → γ → Prop} {level : List Specifier}
    {a b c : App} {ys zs : List γ} {P' : Specifier → γ → Prop}
    (h : Round app K level P a ys b) (h' : Round app K level P' b zs c) :
    Round app K level P' a zs c where
  alike := h'.alike
  each := h'.each
  elsewhere hne := (h'.elsewhere hne).trans (h.elsewhere hne)

theorem advanceAll_matches {hasty : Bool} {turns : Nat} {level : List Specifier}
    {es es' : List Emission} {a a' : App} (halike : Alike app a)
    (hown : ∀ s ∈ level, CanRecord app s K → Specifier.graphKey s = K)
    (hes : List.Forall₂ (EndsIn turns) level es)
    (hrun : (advanceAll hasty outDir turns es).run.run a = (.ok es', a')) :
    Round app K level (EndsIn 0) a es' a' ∧
      (Some₂ (Has K (Matches a)) level es → Some₂ (Has K (Matches a')) level es') := by
  induction turns generalizing es a with
  | zero =>
    obtain ⟨hes', rfl⟩ := Prod.mk.inj hrun
    obtain rfl := Except.ok.inj hes'
    exact ⟨⟨halike, hes, fun _ => rfl⟩, id⟩
  | succ turns ih =>
    obtain ⟨es₁, a₁, hturn, hrun⟩ := exists_of_run_bind hrun
    have hstep : Round app K level (EndsIn turns) a es₁ a₁ ∧ ∀ B : App → Prop,
        (∀ b b', b'.depsAt K = b.depsAt K → B b → B b') →
          B a ∨ Some₂ (Has K (Matches a)) level es →
            B a₁ ∨ Some₂ (Has K (Matches a₁)) level es₁ := by
      refine mapM_matches (Q := Matches) (R := Matches) Matches.congr Matches.congr ?_ halike hown
        hes hturn
      intro a a' s e e' halike he hadvance
      obtain ⟨result, hresult, rfl⟩ := keepFailure_settle hadvance
      obtain ⟨hworks, hleft, hmatches⟩ := advance_works (K := K) halike he.1 hresult
      have hturns := he.2
      refine ⟨hworks.alike, ⟨hworks.concerns, by omega⟩, ?_, hmatches⟩
      exact hworks.record.imp_right fun h => ⟨h.1, fun b => h.2.matches b s⟩
    obtain ⟨hround, hsome⟩ := hstep
    obtain ⟨hround', hsome'⟩ := ih hround.alike hround.each hrun
    refine ⟨hround.trans hround', fun h => hsome' ?_⟩
    exact (hsome (fun _ => False) (fun _ _ _ => id) (Or.inr h)).resolve_left not_false

/-! ## Levels -/

theorem mem_of_mapM_next {es : List Emission} {nexts : List (List Specifier)}
    (h : es.mapM Emission.next = .ok nexts) {e : Emission} (he : e ∈ es) :
    ∃ next ∈ nexts, e.next = .ok next := by
  induction es generalizing nexts with
  | nil => nomatch he
  | cons e₁ es ih =>
    rw [List.mapM_cons] at h
    obtain ⟨next, hnext, h⟩ := exists_of_bind_eq_ok h
    obtain ⟨rest, hrest, h⟩ := exists_of_bind_eq_ok h
    obtain rfl := Except.ok.inj h
    rcases List.mem_cons.1 he with rfl | he
    · exact ⟨next, List.mem_cons_self .., hnext⟩
    · obtain ⟨next', hmem, hnext'⟩ := ih hrest he
      exact ⟨next', List.mem_cons_of_mem _ hmem, hnext'⟩

/-- An emission without turns left that has not failed tells what it has found. -/
theorem eq_emitted_of_endsIn {s : Specifier} {e : Emission} {next : List Specifier}
    (he : EndsIn 0 s e) (hnext : e.next = .ok next) : e = .emitted next := by
  obtain ⟨hconcerns, hleft⟩ := he
  cases hconcerns with
  | asked => nomatch hleft
  | served => nomatch hleft
  | placed => nomatch hleft
  | emitted found => rw [← Except.ok.inj hnext]
  | failed => nomatch hnext

/-- A level that is emitted leads where the records of its modules say.  What is recorded under
the key of none of them stays as it was. -/
theorem emitLevel_follows {level found : List Specifier} {a a' : App} (halike : Alike app a)
    (hown : ∀ s ∈ level, CanRecord app s K → Specifier.graphKey s = K)
    (hrun : (emitLevel outDir level).run.run a = (.ok found, a')) :
    Alike app a' ∧ ((∀ s ∈ level, Specifier.graphKey s ≠ K) → a'.depsAt K = a.depsAt K) ∧
      ∀ s ∈ level, Specifier.graphKey s = K → ∀ t ∈ nextSpecifiers a'.graph s, t ∈ found := by
  unfold emitLevel at hrun
  dsimp only at hrun
  obtain ⟨es, a₁, hask, hrun⟩ := exists_of_run_bind hrun
  obtain ⟨es', a₂, hadvance, hrun⟩ := exists_of_run_bind hrun
  obtain ⟨nexts, a₃, hnext, hrun⟩ := exists_of_run_bind hrun
  obtain ⟨hfound, rfl⟩ := Prod.mk.inj hrun
  obtain rfl := Except.ok.inj hfound
  obtain ⟨hnexts, rfl⟩ := Prod.mk.inj hnext
  have hasked : Round app K level (EndsIn maxTurns) a es a₁ ∧ ∀ B : App → Prop,
      (∀ b b', b'.depsAt K = b.depsAt K → B b → B b') →
        B a ∨ Some₂ (Has K fun _ _ => True) level level →
          B a₁ ∨ Some₂ (Has K (Matches a₁)) level es := by
    refine mapM_matches (P := fun s x => x = s) (Q := fun _ _ _ => True) (R := Matches)
      (fun _ _ h => h) Matches.congr ?_ halike hown (List.forall₂_same.2 fun _ _ => rfl) hask
    rintro a a' s _ e halike rfl hkeep
    obtain ⟨result, hresult, rfl⟩ := keepFailure_settle hkeep
    obtain ⟨hworks, hpending, hleft⟩ := ask_works (K := K) halike hresult
    refine ⟨hworks.alike, ⟨hworks.concerns, hleft⟩, ?_, fun _ => hpending.matches _ _⟩
    exact hworks.record.imp_right fun h => ⟨h.1, fun b => hpending.matches b _⟩
  obtain ⟨hround, hsome⟩ := hasked
  obtain ⟨hround', hsome'⟩ := advanceAll_matches hround.alike hown hround.each hadvance
  refine ⟨hround'.alike, (hround.trans hround').elsewhere, ?_⟩
  intro s hs hkey t ht
  have hstart : Some₂ (Has K fun _ _ => True) level level := some₂_self hs ⟨hkey, trivial⟩
  have hend := hsome'
    ((hsome (fun _ => False) (fun _ _ _ => id) (Or.inr hstart)).resolve_left not_false)
  obtain ⟨u, -, e, hmem, ⟨hkey', hmatches⟩, he⟩ := hend.exists_of_forall₂ hround'.each
  obtain ⟨next, hnext, heq⟩ := mem_of_mapM_next hnexts hmem
  rw [hmatches next (eq_emitted_of_endsIn he heq)] at hnext
  rw [nextSpecifiers_congr_key _ (hkey.trans hkey'.symm)] at ht
  exact List.mem_flatten.2 ⟨_, hnext, ht⟩

/-! ## Walks -/

/-- A walk that ends has collected all that it started with. -/
theorem mem_of_collectWithin {bound : Nat} {done level modules : List Specifier} {a a' : App}
    (hrun : (collectWithin (emitLevel outDir) bound done level).run.run a =
      (.ok (some modules), a')) : ∀ s, s ∈ done ∨ s ∈ level → s ∈ modules := by
  induction bound generalizing done level a with
  | zero =>
    cases level with
    | nil =>
      obtain ⟨hmodules, -⟩ := Prod.mk.inj hrun
      obtain rfl := Option.some.inj (Except.ok.inj hmodules)
      intro s hs
      simpa using hs
    | cons s level =>
      obtain ⟨hmodules, -⟩ := Prod.mk.inj hrun
      nomatch Except.ok.inj hmodules
  | succ bound ih =>
    cases level with
    | nil =>
      obtain ⟨hmodules, -⟩ := Prod.mk.inj hrun
      obtain rfl := Option.some.inj (Except.ok.inj hmodules)
      intro s hs
      simpa using hs
    | cons s level =>
      obtain ⟨found, a₁, -, hrun⟩ := exists_of_run_bind hrun
      intro t ht
      apply ih hrun
      left
      rw [mem_ordered, List.mem_append]
      exact ht

/-- A walk keeps what it has done closed, up to the level at hand. -/
theorem collectWithin_follows {bound : Nat} {done level modules : List Specifier} {a a' : App}
    (halike : Alike app a)
    (hown : ∀ s ∈ modules, CanRecord app s K → Specifier.graphKey s = K)
    (hdone : ∀ s ∈ done, Specifier.graphKey s = K →
      ∀ t ∈ nextSpecifiers a.graph s, t ∈ done ∨ t ∈ level)
    (hrun : (collectWithin (emitLevel outDir) bound done level).run.run a =
      (.ok (some modules), a')) :
    ∀ s ∈ modules, Specifier.graphKey s = K → ∀ t ∈ nextSpecifiers a'.graph s, t ∈ modules := by
  have hnil : ∀ bound, (collectWithin (emitLevel outDir) bound done []).run.run a =
      (.ok (some done), a) := by
    intro bound
    rw [collectWithin_nil]
    rfl
  induction bound generalizing done level a with
  | zero =>
    cases level with
    | nil =>
      obtain ⟨hmodules, rfl⟩ := Prod.mk.inj ((hnil 0).symm.trans hrun)
      obtain rfl := Option.some.inj (Except.ok.inj hmodules)
      intro s hs hkey t ht
      simpa using hdone s hs hkey t ht
    | cons s level =>
      obtain ⟨hmodules, -⟩ := Prod.mk.inj hrun
      nomatch Except.ok.inj hmodules
  | succ bound ih =>
    cases level with
    | nil =>
      obtain ⟨hmodules, rfl⟩ := Prod.mk.inj ((hnil (bound + 1)).symm.trans hrun)
      obtain rfl := Option.some.inj (Except.ok.inj hmodules)
      intro s hs hkey t ht
      simpa using hdone s hs hkey t ht
    | cons s level =>
      have hlevel : ∀ t ∈ s :: level, CanRecord app t K → Specifier.graphKey t = K :=
        fun t ht => hown t (mem_of_collectWithin hrun t (Or.inr ht))
      obtain ⟨found, a₁, hemit, hrun⟩ := exists_of_run_bind hrun
      obtain ⟨halike₁, helsewhere, hfound⟩ := emitLevel_follows halike hlevel hemit
      refine ih halike₁ ?_ hrun fun bound => by rw [collectWithin_nil]; rfl
      intro t ht hkey u hu
      suffices hmem : u ∈ done ++ s :: level ∨ u ∈ found by
        by_cases hold : u ∈ done ++ s :: level
        · exact Or.inl (mem_ordered.2 hold)
        · right
          rw [mem_ordered, List.mem_filter, decide_eq_true_eq, mem_ordered]
          exact ⟨hmem.resolve_left hold, hold⟩
      by_cases hasked : ∃ v ∈ s :: level, Specifier.graphKey v = K
      · obtain ⟨v, hv, hkey_v⟩ := hasked
        right
        apply hfound v hv hkey_v
        rwa [nextSpecifiers_congr_key _ (hkey_v.trans hkey.symm)]
      · -- nothing was recorded under the key, and the module is one that was done before
        have hne : ∀ v ∈ s :: level, Specifier.graphKey v ≠ K :=
          fun v hv hkey_v => hasked ⟨v, hv, hkey_v⟩
        have hsame : a₁.depsAt (Specifier.graphKey t) = a.depsAt (Specifier.graphKey t) :=
          hkey ▸ helsewhere hne
        rw [nextSpecifiers_congr hsame] at hu
        rcases List.mem_append.1 (mem_ordered.1 ht) with ht | ht
        · exact Or.inl (List.mem_append.2 (hdone t ht hkey u hu))
        · exact absurd hkey (hne t ht)

end

/-- Whatever is recorded of a module that a walk has collected, unless it is a sheet, has been
collected too, if no other key than the recorded one is looked up for a module that can be
recorded under it. -/
theorem collectModules_follows {app app' : App} {bound : Nat} {outDir : String}
    {seeds modules : List Specifier}
    (hrun : (collectModulesWithin bound outDir seeds).run.run app = (.ok modules, app'))
    {s : Specifier} (hs : s ∈ modules) (hstyle : Specifier.isStyle s = false)
    {r : ModuleRequest} (hr : requestOf? s = some r)
    (hown : ∀ t ∈ modules, CanRecord app t (Specifier.graphKey r.specifier) →
      Specifier.graphKey t = Specifier.graphKey r.specifier)
    {record : ModuleRecord}
    (hrecord : app'.graph.get? (Specifier.graphKey r.specifier) = some record)
    {dep : Specifier} (hdep : dep ∈ record.deps) : followed dep ∈ modules := by
  have hkey : Specifier.graphKey s = Specifier.graphKey r.specifier :=
    hown s hs ⟨r, hr, .own r⟩
  have hstart : ∀ t ∈ ([] : List Specifier),
      Specifier.graphKey t = Specifier.graphKey r.specifier →
        ∀ u ∈ nextSpecifiers app.graph t, u ∈ ([] : List Specifier) ∨ u ∈ ordered seeds :=
    fun t ht => nomatch ht
  apply collectWithin_follows ⟨rfl, rfl⟩ hown hstart (collect_of_collectModules hrun) s hs hkey
  exact followed_mem_nextSpecifiers hstyle (hkey.symm ▸ hrecord) hdep

/-- An app that fetches two scripts, of which one imports the other. -/
def scriptsApp : App :=
  { surroundings := ⟨fun url =>
      if url = "https://h/a.js" then .ok ⟨"import './b.js';", none⟩
      else if url = "https://h/b.js" then .ok ⟨"", none⟩
      else .error (.request url), fun _ => none, fun _ s _ => .error (.request s)⟩
    pipeline := Pipeline.standard true ImportMap.empty
    disk := ⟨"/app", Dict.empty⟩
    config := {}, graph? := none, routes := RouteTable.empty, homePort := 3000, port := 3000
    registered := Dict.empty, now := 7, requests := [], fetched := [] }

/-- The walk from the one that imports the other. -/
theorem run_scriptsApp :
    ∃ app', (collectModules "/app/out" ["https://h/a.js"]).run.run scriptsApp =
        (.ok ["https://h/a.js", "https://h/b.js"], app') ∧
      (app'.graph.get? "https://h/a.js").map (·.deps) = some ["https://h/b.js"] := by
  rcases hrun : (collectModules "/app/out" ["https://h/a.js"]).run.run scriptsApp with
    ⟨result, app'⟩
  have hends : result.toOption = some ["https://h/a.js", "https://h/b.js"] ∧
      (app'.graph.get? "https://h/a.js").map (·.deps) = some ["https://h/b.js"] := by
    rw [← show _ = result from congrArg Prod.fst hrun, ← show _ = app' from congrArg Prod.snd hrun]
    decide +kernel
  exact ⟨app', by rw [eq_ok_of_toOption hends.1], hends.2⟩

/-- The imported script is collected with the one that imports it. -/
theorem collectModules_follows_import :
    ∃ app', (collectModules "/app/out" ["https://h/a.js"]).run.run scriptsApp =
        (.ok ["https://h/a.js", "https://h/b.js"], app') ∧
      (app'.graph.get? "https://h/a.js").map (·.deps) = some ["https://h/b.js"] ∧
        followed "https://h/b.js" ∈ ["https://h/a.js", "https://h/b.js"] := by
  obtain ⟨app', hrun, hdeps⟩ := run_scriptsApp
  obtain ⟨record, hrecord, hrecorded⟩ := Option.map_eq_some_iff.1 hdeps
  have hrequest : ∀ t ∈ ["https://h/a.js", "https://h/b.js"],
      requestOf? t = some ⟨t, false⟩ ∧ scriptsApp.pipeline.sourceOf? t = some t ∧
        scriptsApp.homeUri? t = none ∧ Specifier.graphKey t = t := by
    decide +kernel
  have hown : ∀ t ∈ ["https://h/a.js", "https://h/b.js"],
      CanRecord scriptsApp t (Specifier.graphKey "https://h/a.js") →
        Specifier.graphKey t = Specifier.graphKey "https://h/a.js" := by
    rintro t ht ⟨q, hq, hcan⟩
    obtain ⟨hrequested, hsource, haway, -⟩ := hrequest t ht
    obtain rfl := Option.some.inj (hrequested.symm.trans hq)
    refine (eq_of_mayRecord ?_ hcan).symm
    intro u hu _
    obtain rfl := Option.some.inj (hsource.symm.trans hu)
    exact haway
  have hkey : Specifier.graphKey "https://h/a.js" = "https://h/a.js" :=
    (hrequest _ (List.mem_cons_self ..)).2.2.2
  refine ⟨app', hrun, hdeps, ?_⟩
  exact collectModules_follows hrun (List.mem_cons_self ..) (by decide +kernel)
    (hrequest _ (List.mem_cons_self ..)).1 hown (hkey.symm ▸ hrecord)
    (hrecorded ▸ List.mem_cons_self ..)

/-- Asked for under a name with a version in it, the same script is recorded under its own name,
and what it imports is left out. -/
theorem collectModules_unfollowed :
    requestOf? "https://h/a.js?v=1" = some ⟨"https://h/a.js", false⟩ ∧
      ∃ app', (collectModules "/app/out" ["https://h/a.js?v=1"]).run.run scriptsApp =
          (.ok ["https://h/a.js?v=1"], app') ∧
        (app'.graph.get? "https://h/a.js").map (·.deps) = some ["https://h/b.js"] ∧
          followed "https://h/b.js" ∉ ["https://h/a.js?v=1"] := by
  rcases hrun : (collectModules "/app/out" ["https://h/a.js?v=1"]).run.run scriptsApp with
    ⟨result, app'⟩
  have hends : result.toOption = some ["https://h/a.js?v=1"] ∧
      (app'.graph.get? "https://h/a.js").map (·.deps) = some ["https://h/b.js"] := by
    rw [← show _ = result from congrArg Prod.fst hrun, ← show _ = app' from congrArg Prod.snd hrun]
    decide +kernel
  obtain ⟨hresult, hdeps⟩ := hends
  obtain rfl := eq_ok_of_toOption hresult
  exact ⟨by decide +kernel, app', rfl, hdeps, by decide +kernel⟩

end Build
end Waymark
