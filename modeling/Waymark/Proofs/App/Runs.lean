import Waymark.App.Answering
/-!
# Serving, step by step

One equation for each step a running app takes to compile a module or to answer a
request: what comes out of it, and how it leaves the app.  Later proofs cite these
equations and do not open the steps again.

## Main results

* `run_sourceFor`, `run_readSource_remote`, `run_readSource_local` — where a text comes from.
* `run_sourceFor_away` — the same, where nothing is fetched from the app itself.
* `run_transformWith` — compiling is reading, and then one step on the graph.
* `run_receiveWith`, `run_answerFrom`, `run_respondWith` — a request and its answer, in turns or
  at once.
-/

namespace Waymark

/-! ## Results -/

theorem ok_bind {ε α β : Type} (a : α) (f : α → Except ε β) : (Except.ok a >>= f) = f a := rfl

/-- A sequence of two steps succeeds by both of them. -/
theorem exists_of_bind_eq_ok {ε α β : Type} {x : Except ε α} {f : α → Except ε β} {b : β}
    (h : x >>= f = .ok b) : ∃ a, x = .ok a ∧ f a = .ok b := by
  cases x with
  | error e => nomatch h
  | ok a => exact ⟨a, rfl, h⟩

theorem eq_ok_of_toOption {ε α : Type} {x : Except ε α} {a : α} (h : x.toOption = some a) :
    x = .ok a := by
  cases x with
  | error e => nomatch h
  | ok b => exact congrArg Except.ok (Option.some.inj h)

/-! ## Actions -/

section
variable {σ α β : Type}

theorem run_state_bind (x : StateM σ α) (f : α → StateM σ β) (s : σ) :
    (x >>= f).run s = (f (x.run s).1).run (x.run s).2 := rfl

theorem run_state_get_bind (f : σ → StateM σ β) (s : σ) :
    (get >>= f).run s = (f s).run s := rfl

theorem run_state_modify_bind (change : σ → σ) (f : PUnit → StateM σ β) (s : σ) :
    (modify change >>= f).run s = (f ⟨⟩).run (change s) := rfl

end

/-! ## Actions that may fail -/

section
variable {ε σ α β : Type}

theorem run_action_bind (x : ExceptT ε (StateM σ) α) (f : α → ExceptT ε (StateM σ) β) (s : σ) :
    (x >>= f).run.run s =
      match x.run.run s with
      | (.ok a, s') => (f a).run.run s'
      | (.error e, s') => (.error e, s') := by
  show (ExceptT.bindCont f (x.run.run s).1).run (x.run.run s).2 = _
  rcases x.run.run s with ⟨_ | _, s'⟩
  · rfl
  · rfl

theorem run_action_get_bind (f : σ → ExceptT ε (StateM σ) β) (s : σ) :
    (getThe σ >>= f).run.run s = (f s).run.run s := rfl

theorem run_action_modify_bind (change : σ → σ) (f : PUnit → ExceptT ε (StateM σ) β) (s : σ) :
    (modify change >>= f).run.run s = (f ⟨⟩).run.run (change s) := rfl

theorem run_action_lift_bind (act : StateM σ α) (f : α → ExceptT ε (StateM σ) β) (s : σ) :
    (liftM act >>= f).run.run s = (f (act.run s).1).run.run (act.run s).2 := rfl

theorem run_action_tryCatch (act : ExceptT ε (StateM σ) α) (handler : ε → ExceptT ε (StateM σ) α)
    (s : σ) :
    (tryCatch act handler).run.run s =
      match act.run.run s with
      | (.ok a, s') => (.ok a, s')
      | (.error e, s') => (handler e).run.run s' := by
  show ((act.run >>= fun
    | .ok a => pure (.ok a)
    | .error e => (handler e).run : StateM σ (Except ε α))).run s = _
  rw [run_state_bind]
  rcases act.run.run s with ⟨_ | _, s'⟩
  · rfl
  · rfl

/-- Two steps in a row succeed if both do. -/
theorem exists_of_run_bind {x : ExceptT ε (StateM σ) α} {f : α → ExceptT ε (StateM σ) β}
    {s s' : σ} {b : β} (h : (x >>= f).run.run s = (.ok b, s')) :
    ∃ a s₁, x.run.run s = (.ok a, s₁) ∧ (f a).run.run s₁ = (.ok b, s') := by
  rw [run_action_bind] at h
  rcases hx : x.run.run s with ⟨e | a, s₁⟩
  · rw [hx] at h
    nomatch h
  · rw [hx] at h
    exact ⟨a, s₁, rfl, h⟩

/-- Two steps in a row fail if one of them does. -/
theorem error_of_run_bind {x : ExceptT ε (StateM σ) α} {f : α → ExceptT ε (StateM σ) β}
    {s s' : σ} {e : ε} (h : (x >>= f).run.run s = (.error e, s')) :
    x.run.run s = (.error e, s') ∨
      ∃ a s₁, x.run.run s = (.ok a, s₁) ∧ (f a).run.run s₁ = (.error e, s') := by
  rw [run_action_bind] at h
  rcases hx : x.run.run s with ⟨e₁ | a, s₁⟩
  · rw [hx] at h
    obtain ⟨he, rfl⟩ := Prod.mk.inj h
    obtain rfl := Except.error.inj he
    exact .inl rfl
  · rw [hx] at h
    exact .inr ⟨a, s₁, rfl, h⟩

end

namespace App

variable {fetch : String → Action FetchError RemoteText}

/-! ## Reading -/

/-- The text of a local module. -/
def localText (d : Disk) (s : Specifier) : Except CompileError String :=
  match d.readText (d.pathOf (Specifier.relativePath (Specifier.stripQuery s))) with
  | .ok text => .ok text
  | .error cause => .error (.unreadable s cause)

/-- The text of a remote module, as it was fetched. -/
def remoteText : Except FetchError RemoteText → Except CompileError String
  | .ok content => .ok content.text
  | .error e => .error (.fetch e)

theorem run_readSource_remote {s : Specifier} (h : Specifier.isRemote s = true) (app : App) :
    (readSource fetch s).run app =
      (remoteText ((fetch s).run.run app).1, ((fetch s).run.run app).2) := by
  unfold readSource
  rw [if_pos h, run_state_bind]
  rcases (fetch s).run.run app with ⟨_ | _, app'⟩
  · rfl
  · rfl

theorem run_readSource_local {s : Specifier} (h : Specifier.isRemote s = false) (app : App) :
    (readSource fetch s).run app = (localText app.disk s, app) := by
  unfold readSource localText
  rw [if_neg (by simp [h]), run_state_get_bind]
  dsimp only
  cases app.disk.readText _ with
  | ok text => rfl
  | error cause => rfl

theorem run_sourceFor (r : ModuleRequest) (app : App) :
    (sourceFor fetch r).run app =
      match app.pipeline.sourceOf? r.specifier with
      | some s => (readSource fetch s).run app
      | none => (.ok "", app) := by
  unfold sourceFor
  rw [run_state_get_bind]
  cases app.pipeline.sourceOf? r.specifier with
  | none => rfl
  | some s => rfl

/-! ## Compiling -/

theorem run_compileFrom (r : ModuleRequest) (source : Except CompileError String) (app : App) :
    (compileFrom r source).run app =
      ((app.pipeline.transform app.disk app.graph app.now r source).1,
        app.withGraph (app.pipeline.transform app.disk app.graph app.now r source).2) := by
  unfold compileFrom
  rw [run_state_get_bind]
  generalize app.pipeline.transform app.disk app.graph app.now r source = t
  obtain ⟨result, g⟩ := t
  rfl

theorem run_transformWith (r : ModuleRequest) (app : App) :
    (transformWith fetch r).run app =
      (compileFrom r ((sourceFor fetch r).run app.ensureGraph).1).run
        ((sourceFor fetch r).run app.ensureGraph).2 := by
  unfold transformWith
  rw [run_state_modify_bind, run_state_bind]

/-! ## Responding -/

section
variable {r : ModuleRequest} {source : Except CompileError String} {app : App}

theorem run_respondFrom_error {e : CompileError}
    (h : app.pipeline.compile? app.disk app.graph r source = .error e) :
    (respondFrom r source).run app =
      (if e.isNotFound then .notFound else .message 500 e.message, app.ensureGraph) := by
  unfold respondFrom
  rw [run_state_bind, run_compileFrom, Pipeline.transform_error h]
  rfl

theorem run_respondFrom_static
    (h : app.pipeline.compile? app.disk app.graph r source = .ok none) :
    (respondFrom r source).run app = (staticFile app.disk r.specifier, app.ensureGraph) := by
  unfold respondFrom
  rw [run_state_bind, run_compileFrom, Pipeline.transform_static h]
  rfl

theorem run_respondFrom_compiled {c : Compiled}
    (h : app.pipeline.compile? app.disk app.graph r source = .ok (some c)) :
    (respondFrom r source).run app =
      (.text c.output.contentType c.output.content,
        app.withGraph (app.graph.mark app.now c.key c.deps c.inlineCss)) := by
  unfold respondFrom
  rw [run_state_bind, run_compileFrom, Pipeline.transform_ok h]
  rfl

end

/-! ## Fetching from elsewhere -/

/-- The text of a module, where nothing is fetched from the app itself. -/
def sourceText (app : App) (s : Specifier) : Except CompileError String :=
  if Specifier.isRemote s then remoteText (app.surroundings.remote s) else localText app.disk s

/-- The text that the module of a request is compiled from, if it is compiled from its text. -/
def textOf (app : App) (r : ModuleRequest) : Except CompileError String :=
  (app.pipeline.sourceOf? r.specifier).elim (.ok "") app.sourceText

/-- Compiling the module of a request fetches nothing from the app itself. -/
def FetchesAway (app : App) (r : ModuleRequest) : Prop :=
  ∀ s, app.pipeline.sourceOf? r.specifier = some s → Specifier.isRemote s = true →
    app.homeUri? s = none

theorem homeUri?_congr {app app' : App} (h : app'.homePort = app.homePort) :
    app'.homeUri? = app.homeUri? := by
  funext url
  unfold homeUri?
  rw [h]

theorem run_fetchWith_away (answer : Uri → StateM App Response) {url : String} {app : App}
    (h : app.homeUri? url = none) :
    (fetchWith answer url).run.run app =
      (app.surroundings.remote url, { app with fetched := app.fetched ++ [url] }) := by
  have hport : ({ app with fetched := app.fetched ++ [url] } : App).homeUri? = app.homeUri? :=
    homeUri?_congr rfl
  unfold fetchWith
  rw [run_action_modify_bind, run_action_get_bind, hport, h]
  rfl

theorem run_sourceFor_away (answer : Uri → StateM App Response) {r : ModuleRequest} {app : App}
    (h : FetchesAway app r) :
    ∃ fetched : List String, (sourceFor (fetchWith answer) r).run app =
      (textOf app r, ({ app with fetched } : App)) := by
  rw [run_sourceFor, textOf]
  cases hs : app.pipeline.sourceOf? r.specifier with
  | none => exact ⟨app.fetched, rfl⟩
  | some s =>
    dsimp only [Option.elim]
    by_cases hremote : Specifier.isRemote s = true
    · rw [run_readSource_remote hremote, run_fetchWith_away answer (h s hs hremote), sourceText,
        if_pos hremote]
      exact ⟨_, rfl⟩
    · rw [run_readSource_local (by simpa using hremote), sourceText, if_neg hremote]
      exact ⟨app.fetched, rfl⟩

/-! ## Receiving -/

section
variable {app : App} {uri : Uri} {r : ModuleRequest}

/-- An app that has received a request, with its graph in being. -/
def received (app : App) (uri : Uri) : App :=
  ({ app with requests := app.requests ++ [uri] } : App).ensureGraph

/-- A text leads to an answer, except that of a sheet, which waits for other sheets. -/
theorem run_answerFrom (r : ModuleRequest) (source : Except CompileError String) (app : App) :
    (∃ text, source = .ok text ∧ (answerFrom r source).run app = (.bundling r text, app)) ∨
      (answerFrom r source).run app =
        (.answered ((respondFrom r source).run app).1, ((respondFrom r source).run app).2) := by
  unfold answerFrom
  rw [run_state_get_bind]
  split
  · rename_i text _
    refine Or.inl ⟨text, rfl, ?_⟩
    rfl
  · right
    rw [run_state_bind]
    rfl

theorem run_receiveWith_climbs (hhook : app.surroundings.hook uri = none)
    (hclimbs : climbs uri.path = true) :
    (receiveWith fetch uri).run app =
      (.answered .invalidPath, { app with requests := app.requests ++ [uri] }) := by
  unfold receiveWith
  rw [run_state_modify_bind, run_state_get_bind, hhook]
  dsimp only
  rw [if_pos hclimbs]
  rfl

theorem run_receiveWith (hhook : app.surroundings.hook uri = none)
    (hclimbs : climbs uri.path = false) (hr : ModuleRequest.parse uri.path uri.query = r) :
    (receiveWith fetch uri).run app =
      if app.pipeline.readsFile r.specifier then (.reading r, app.received uri)
      else (sourceFor fetch r >>= answerFrom r).run (app.received uri) := by
  unfold receiveWith
  rw [run_state_modify_bind, run_state_get_bind, hhook]
  dsimp only
  rw [if_neg (by simp [hclimbs]), run_state_modify_bind, run_state_get_bind, hr]
  show (if app.pipeline.readsFile r.specifier then pure (.reading r)
    else sourceFor fetch r >>= answerFrom r : StateM App Answering).run (app.received uri) = _
  split
  · rfl
  · rfl

theorem run_respondWith_climbs (hhook : app.surroundings.hook uri = none)
    (hclimbs : climbs uri.path = true) :
    (respondWith fetch uri).run app =
      (.invalidPath, { app with requests := app.requests ++ [uri] }) := by
  unfold respondWith
  rw [run_state_modify_bind, run_state_get_bind, hhook]
  dsimp only
  rw [if_pos hclimbs]
  rfl

theorem run_respondWith (hhook : app.surroundings.hook uri = none)
    (hclimbs : climbs uri.path = false) (hr : ModuleRequest.parse uri.path uri.query = r) :
    (respondWith fetch uri).run app =
      (sourceFor fetch r >>= respondFrom r).run (app.received uri) := by
  unfold respondWith
  rw [run_state_modify_bind, run_state_get_bind, hhook]
  dsimp only
  rw [if_neg (by simp [hclimbs]), run_state_modify_bind, hr]
  rfl

end

end App
end Waymark
