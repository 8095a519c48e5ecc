import Waymark.Proofs.Build.Followed
/-!
# Laws of a walk

A walk asks for the modules of a level and works on the answers in rounds, module by
module, then goes on to the next level.  Much of what can be said of a whole walk is
said of one turn: how a later state is related to an earlier one, and what is then known
of the module whose turn it was.  A `TurnLaw` collects what has to be shown of a turn,
and holds of all turns of a walk that ends, for all modules that it has collected.

## Main results

* `TurnLaw.advanceAll` — a law holds over all rounds of a level.
* `TurnLaw.emitLevel` — a law holds over a level.
* `TurnLaw.collectModules` — a law holds over a whole walk.
-/

namespace Waymark.Build

open App Emission

/-- What each turn of a walk does: it leads from a state to one that is in the relation `R` to it,
and `P` holds of the emission at hand if it did before, where an emission that has just begun needs
nothing.  Only modules in `S` are looked at. -/
structure TurnLaw (outDir : String) (S : Specifier → Prop) (R : App → App → Prop)
    (P : App → Specifier → Emission → Prop) : Prop where
  refl (a : App) : R a a
  trans {a b c : App} (h : R a b) (h' : R b c) : R a c
  keep {a a' : App} {s : Specifier} {e : Emission} (h : P a s e) (hR : R a a') : P a' s e
  ask {a a' : App} {s : Specifier} {result : Except BuildError Emission} (hs : S s)
    (hrun : (Emission.ask s).run.run a = (result, a')) : R a a' ∧ P a' s (settle result)
  advance {a a' : App} {s : Specifier} {e : Emission} {result : Except BuildError Emission}
    (hs : S s) (hconcerns : Concerns s e) (h : P a s e)
    (hrun : (e.advance outDir).run.run a = (result, a')) : R a a' ∧ P a' s (settle result)

/-- Work on all items of a level in turn, where what relates a state to a later one does not depend
on the items. -/
theorem mapM_in_order {β γ : Type} {f : β → App.Action BuildError γ} {R : App → App → Prop}
    (hrefl : ∀ a, R a a) (htrans : ∀ {a b c}, R a b → R b c → R a c) {S : Specifier → Prop}
    {P : App → Specifier → β → Prop} {Q : App → Specifier → γ → Prop}
    (hP : ∀ {a a' s x}, P a s x → R a a' → P a' s x)
    (hQ : ∀ {a a' s y}, Q a s y → R a a' → Q a' s y)
    (hf : ∀ {a a' s x y}, S s → P a s x → (f x).run.run a = (.ok y, a') → R a a' ∧ Q a' s y)
    {level : List Specifier} {xs : List β} {ys : List γ} {a a' : App} (hlevel : ∀ s ∈ level, S s)
    (hxs : List.Forall₂ (P a) level xs) (hrun : (xs.mapM f).run.run a = (.ok ys, a')) :
    R a a' ∧ List.Forall₂ (Q a') level ys :=
  @mapM_in_turn β γ f (fun _ => R) hrefl (fun h h' => htrans h h') S (fun _ => []) P Q
    (fun hx hR => hP hx hR) (fun hy hR => hQ hy hR) a (fun _ hs hx hy => hf hs hx hy) level xs ys []
    a a' (hrefl a) hlevel hxs hrun

/-- Of two lists that are related in order, an item of the one is related to one of the other. -/
theorem exists_of_forall₂ {α β : Type} {R : α → β → Prop} {xs : List α} {ys : List β}
    (h : List.Forall₂ R xs ys) {x : α} (hx : x ∈ xs) : ∃ y ∈ ys, R x y := by
  induction h with
  | nil => nomatch hx
  | @cons x' y xs ys hxy _ ih =>
    rcases List.mem_cons.1 hx with rfl | hx
    · exact ⟨y, List.mem_cons_self .., hxy⟩
    · obtain ⟨y', hy', hR⟩ := ih hx
      exact ⟨y', List.mem_cons_of_mem _ hy', hR⟩

namespace TurnLaw

variable {outDir : String} {S : Specifier → Prop} {R : App → App → Prop}
  {P : App → Specifier → Emission → Prop} {a a' : App}

/-- A law holds over all rounds of a level. -/
theorem advanceAll (law : TurnLaw outDir S R P) {hasty : Bool} {turns : Nat}
    {level : List Specifier} (hlevel : ∀ s ∈ level, S s) {es es' : List Emission}
    (hes : List.Forall₂ (fun s e => EndsIn turns s e ∧ P a s e) level es)
    (hrun : (Build.advanceAll hasty outDir turns es).run.run a = (.ok es', a')) :
    R a a' ∧ List.Forall₂ (fun s e => EndsIn 0 s e ∧ P a' s e) level es' := by
  induction turns generalizing es a with
  | zero =>
    obtain ⟨hes', rfl⟩ := Prod.mk.inj hrun
    obtain rfl := Except.ok.inj hes'
    exact ⟨law.refl a, hes⟩
  | succ turns ih =>
    obtain ⟨es₁, a₁, hturn, hrun⟩ := exists_of_run_bind hrun
    have hstep : R a a₁ ∧ List.Forall₂ (fun s e => EndsIn turns s e ∧ P a₁ s e) level es₁ := by
      refine mapM_in_order (P := fun a s e => EndsIn (turns + 1) s e ∧ P a s e)
        (Q := fun a s e => EndsIn turns s e ∧ P a s e) law.refl law.trans
        (fun h hR => ⟨h.1, law.keep h.2 hR⟩) (fun h hR => ⟨h.1, law.keep h.2 hR⟩) ?_ hlevel hes hturn
      intro a a' s e e' hs he hkeep
      obtain ⟨result, hresult, rfl⟩ := keepFailure_settle hkeep
      have halike : Alike a a := ⟨rfl, rfl⟩
      obtain ⟨hworks, hleft, -⟩ := advance_works (K := "") halike he.1.1 hresult
      obtain ⟨hR, hP⟩ := law.advance hs he.1.1 he.2 hresult
      have hturns := he.1.2
      exact ⟨hR, ⟨hworks.concerns, by omega⟩, hP⟩
    obtain ⟨hR, hes₁⟩ := hstep
    obtain ⟨hR', hes'⟩ := ih hes₁ hrun
    exact ⟨law.trans hR hR', hes'⟩

/-- A law holds over a level, each emission of which has come to its end. -/
theorem emitLevel (law : TurnLaw outDir S R P) {level found : List Specifier}
    (hlevel : ∀ s ∈ level, S s)
    (hrun : (Build.emitLevel outDir level).run.run a = (.ok found, a')) :
    R a a' ∧ ∀ s ∈ level, ∃ next, P a' s (.emitted next) := by
  unfold Build.emitLevel at hrun
  dsimp only at hrun
  obtain ⟨es, a₁, hask, hrun⟩ := exists_of_run_bind hrun
  obtain ⟨es', a₂, hadvance, hrun⟩ := exists_of_run_bind hrun
  obtain ⟨nexts, a₃, hnext, hrun⟩ := exists_of_run_bind hrun
  obtain ⟨-, rfl⟩ := Prod.mk.inj hrun
  obtain ⟨hnexts, rfl⟩ := Prod.mk.inj hnext
  have hsame : List.Forall₂ (fun s x => x = s) level level := List.forall₂_same.2 fun _ _ => rfl
  have hasked : R a a₁ ∧
      List.Forall₂ (fun s e => EndsIn maxTurns s e ∧ P a₁ s e) level es := by
    refine mapM_in_order (P := fun _ s x => x = s)
      (Q := fun a s e => EndsIn maxTurns s e ∧ P a s e) law.refl law.trans (fun h _ => h)
      (fun h hR => ⟨h.1, law.keep h.2 hR⟩) ?_ hlevel hsame hask
    rintro a a' s _ e hs rfl hkeep
    obtain ⟨result, hresult, rfl⟩ := keepFailure_settle hkeep
    have halike : Alike a a := ⟨rfl, rfl⟩
    obtain ⟨hworks, -, hleft⟩ := ask_works (K := "") halike hresult
    obtain ⟨hR, hP⟩ := law.ask hs hresult
    exact ⟨hR, ⟨hworks.concerns, hleft⟩, hP⟩
  obtain ⟨hR, hes⟩ := hasked
  obtain ⟨hR', hes'⟩ := law.advanceAll hlevel hes hadvance
  refine ⟨law.trans hR hR', ?_⟩
  intro s hs
  obtain ⟨e, he, hends, hP⟩ := exists_of_forall₂ hes' hs
  obtain ⟨next, -, hnext⟩ := mem_of_mapM_next hnexts he
  rw [eq_emitted_of_endsIn hends hnext] at hP
  exact ⟨next, hP⟩

theorem collectWithin (law : TurnLaw outDir S R P) {bound : Nat}
    {done level modules : List Specifier} (hmodules : ∀ s ∈ modules, S s)
    (hdone : ∀ s ∈ done, ∃ next, P a s (.emitted next))
    (hrun : (Build.collectWithin (Build.emitLevel outDir) bound done level).run.run a =
      (.ok (some modules), a')) :
    R a a' ∧ ∀ s ∈ modules, ∃ next, P a' s (.emitted next) := by
  have hnil : ∀ bound, (Build.collectWithin (Build.emitLevel outDir) bound done []).run.run a =
      (.ok (some done), a) := by
    intro bound
    rw [collectWithin_nil]
    rfl
  induction bound generalizing done level a with
  | zero =>
    cases level with
    | nil =>
      obtain ⟨hfound, rfl⟩ := Prod.mk.inj ((hnil 0).symm.trans hrun)
      obtain rfl := Option.some.inj (Except.ok.inj hfound)
      exact ⟨law.refl a, hdone⟩
    | cons s level => nomatch Except.ok.inj (Prod.mk.inj hrun).1
  | succ bound ih =>
    cases level with
    | nil =>
      obtain ⟨hfound, rfl⟩ := Prod.mk.inj ((hnil (bound + 1)).symm.trans hrun)
      obtain rfl := Option.some.inj (Except.ok.inj hfound)
      exact ⟨law.refl a, hdone⟩
    | cons s level =>
      have hlevel : ∀ t ∈ s :: level, S t :=
        fun t ht => hmodules t (mem_of_collectWithin hrun t (Or.inr ht))
      obtain ⟨found, a₁, hemit, hrun⟩ := exists_of_run_bind hrun
      obtain ⟨hR, hemitted⟩ := law.emitLevel hlevel hemit
      have hdone₁ : ∀ t ∈ ordered (done ++ s :: level), ∃ next, P a₁ t (.emitted next) := by
        intro t ht
        rcases List.mem_append.1 (mem_ordered.1 ht) with ht | ht
        · obtain ⟨next, hP⟩ := hdone t ht
          exact ⟨next, law.keep hP hR⟩
        · exact hemitted t ht
      obtain ⟨hR', hcollected⟩ := ih hdone₁ hrun fun bound => by rw [collectWithin_nil]; rfl
      exact ⟨law.trans hR hR', hcollected⟩

/-- A law holds over a whole walk, for all modules that it has collected. -/
theorem collectModules (law : TurnLaw outDir S R P) {bound : Nat}
    {seeds modules : List Specifier} (hmodules : ∀ s ∈ modules, S s)
    (hrun : (collectModulesWithin bound outDir seeds).run.run a = (.ok modules, a')) :
    R a a' ∧ ∀ s ∈ modules, ∃ next, P a' s (.emitted next) := by
  have hstart : ∀ s ∈ ([] : List Specifier), ∃ next, P a s (.emitted next) := nofun
  exact law.collectWithin hmodules hstart (collect_of_collectModules hrun)

end TurnLaw

end Waymark.Build
