import Waymark.Build.Closure
import Waymark.Proofs.App.Runs
/-!
# What becomes of a request

With the default compilers, whether a module is served and what is recorded of it
depends on its text and on files, and on nothing that was recorded before.  Of that
only the versions in the code are taken.

A verdict is what is left of an answer when the code is left out.  It is the same
however far the graph has come, and the app that answers a request is changed in the
graph alone, the way the verdict says.

## Main results

* `compile?_steady` — the graph has no say in what is recorded.
* `verdictOf_steady` — nor in the verdict on a module.
* `settles_respondFrom` — an answer is given and recorded according to the verdict.
-/

namespace Waymark

/-! ## The default compilers -/

/-- The import map alone decides over what a module depends on. -/
theorem Script.deps_compile_congr {options options' : Script.Options}
    (h : options'.importMap = options.importMap) (importer : Specifier) (source : String) :
    (Script.compile options' importer source).deps =
      (Script.compile options importer source).deps := by
  have hmeans :
      Script.resolveMention options' importer = Script.resolveMention options importer := by
    funext m
    rw [Script.resolveMention, Script.resolveMention, h]
  rw [Script.compile, Script.compile, hmeans]

/-- What is recorded of a compiled module, its style text apart. -/
def Compiled.recorded (c : Compiled) : Specifier × List Specifier := (c.key, c.deps)

namespace Pipeline

/-- The compilers are the default ones. -/
def IsStandard (p : Pipeline) : Prop := ∃ isDev map, p = standard isDev map

/-- Two disks have the same in store for a request: the text of the module, the sheets that are
bundled with a sheet, and the file that is served as it is. -/
structure SameFiles (p : Pipeline) (d d' : Disk) (r : ModuleRequest) : Prop where
  text : ∀ s, p.sourceOf? r.specifier = some s → Specifier.isRemote s = false →
    App.localText d' s = App.localText d s
  sheet : p.classify r.specifier = .style → ∀ text,
    p.compileSheet d' r text = p.compileSheet d r text
  file : p.classify r.specifier = .static →
    App.staticFile d' r.specifier = App.staticFile d r.specifier

variable {p : Pipeline} {d d' : Disk} {r : ModuleRequest}

theorem compileScript_standard (isDev : Bool) (map : ImportMap) (g : Graph) (s : Specifier)
    (loaded : LoaderOutput) :
    ∃ c, (standard isDev map).compileScript g s loaded = .ok c ∧ c.key = Specifier.graphKey s ∧
      c.deps = (Script.compile ⟨isDev, map, g.initial, g.versionsExcept (Specifier.graphKey s)⟩
        (Specifier.graphKey s) loaded.code).deps := by
  unfold compileScript
  exact ⟨_, rfl, rfl, rfl⟩

theorem compileScript_steady (hp : p.IsStandard) (g g' : Graph) (s : Specifier)
    (loaded : LoaderOutput) :
    ∃ c c', p.compileScript g s loaded = .ok c ∧ p.compileScript g' s loaded = .ok c' ∧
      c'.recorded = c.recorded := by
  obtain ⟨isDev, map, rfl⟩ := hp
  obtain ⟨c, hc, hkey, hdeps⟩ := compileScript_standard isDev map g s loaded
  obtain ⟨c', hc', hkey', hdeps'⟩ := compileScript_standard isDev map g' s loaded
  refine ⟨c, c', hc, hc', ?_⟩
  rw [Compiled.recorded, Compiled.recorded, hkey, hkey', hdeps, hdeps']
  exact congrArg _ (Script.deps_compile_congr rfl _ _)

theorem compile?_steady (hp : p.IsStandard) (h : p.SameFiles d d' r) (g g' : Graph)
    (source : Except CompileError String) :
    (p.compile? d' g' r source).map (Option.map Compiled.recorded) =
      (p.compile? d g r source).map (Option.map Compiled.recorded) := by
  unfold compile?
  cases hkind : p.classify r.specifier with
  | static => rfl
  | style =>
    cases source with
    | error e => rfl
    | ok text =>
      show (p.compileSheet d' r text >>= fun c => pure (some c)).map _ =
        (p.compileSheet d r text >>= fun c => pure (some c)).map _
      rw [h.sheet hkind]
  | script =>
    cases source with
    | error e => rfl
    | ok text =>
      obtain ⟨c, c', hc, hc', hrecorded⟩ :=
        compileScript_steady hp g g' r.specifier ⟨text, none, none⟩
      show (p.compileScript g' r.specifier ⟨text, none, none⟩ >>= fun c => pure (some c)).map _ =
        (p.compileScript g r.specifier ⟨text, none, none⟩ >>= fun c => pure (some c)).map _
      rw [hc, hc']
      show Except.ok (some c'.recorded) = Except.ok (some c.recorded)
      rw [hrecorded]
  | custom =>
    -- There are no loaders among the default compilers.
    obtain ⟨isDev, map, rfl⟩ := hp
    rfl

/-- Only a static file is not compiled to anything. -/
theorem classify_of_compile?_none {g : Graph} {source : Except CompileError String}
    (h : p.compile? d g r source = .ok none) : p.classify r.specifier = .static := by
  unfold compile? at h
  split at h
  · rename_i hkind
    exact hkind
  · obtain ⟨text, -, h⟩ := exists_of_bind_eq_ok h
    obtain ⟨c, -, h⟩ := exists_of_bind_eq_ok h
    exact absurd (Except.ok.inj h) (Option.some_ne_none c)
  · obtain ⟨text, -, h⟩ := exists_of_bind_eq_ok h
    obtain ⟨c, -, h⟩ := exists_of_bind_eq_ok h
    exact absurd (Except.ok.inj h) (Option.some_ne_none c)
  · obtain ⟨c, -, h⟩ := exists_of_bind_eq_ok h
    exact absurd (Except.ok.inj h) (Option.some_ne_none c)

end Pipeline

/-! ## Verdicts -/

/-- An answer without the code in it. -/
inductive Verdict where
  /-- The answer is no success. -/
  | refused
  /-- A file is served as it is. -/
  | file
  /-- A module is served and recorded under a key, with the modules it depends on. -/
  | recorded (key : Specifier) (deps : List Specifier)
  deriving DecidableEq

namespace Verdict

/-- The verdict on what a module was compiled to, `served` telling whether its file would be
served. -/
def ofCompiled (served : Bool) :
    Except CompileError (Option (Specifier × List Specifier)) → Verdict
  | .error _ => .refused
  | .ok none => if served then .file else .refused
  | .ok (some (key, deps)) => .recorded key deps

@[simp] theorem ofCompiled_error (served : Bool) (e : CompileError) :
    ofCompiled served (.error e) = .refused := rfl

@[simp] theorem ofCompiled_recorded (served : Bool) (recorded : Specifier × List Specifier) :
    ofCompiled served (.ok (some recorded)) = .recorded recorded.1 recorded.2 := rfl

/-- What is recorded under a key after a verdict, in terms of what was recorded before. -/
def depsAfter (v : Verdict) (before : Specifier → Option (List Specifier)) (k : Specifier) :
    Option (List Specifier) :=
  match v with
  | .recorded key deps => if k = key then some deps else before k
  | _ => before k

end Verdict

namespace App

/-- The verdict on a request, the text of the module being `source`. -/
def verdict (app : App) (r : ModuleRequest) (source : Except CompileError String) : Verdict :=
  .ofCompiled (staticFile app.disk r.specifier).isSuccess
    ((app.pipeline.compile? app.disk app.graph r source).map (Option.map Compiled.recorded))

/-- The dependencies recorded under a key. -/
def depsAt (app : App) (k : Specifier) : Option (List Specifier) :=
  (app.graph.get? k).map (·.deps)

theorem depsAt_mark (app : App) (key : Specifier) (deps : List Specifier) (css : Option String)
    (k : Specifier) :
    (app.withGraph (app.graph.mark app.now key deps css)).depsAt k =
      if k = key then some deps else app.depsAt k := by
  show ((app.graph.mark app.now key deps css).get? k).map (·.deps) = _
  by_cases hk : k = key
  · rw [if_pos hk, hk, Graph.get?_mark_self]
    rfl
  · rw [if_neg hk, Graph.get?_mark_ne _ _ _ _ hk]
    rfl

/-- All that an answer leaves alone: everything but the graph and the lists of what was requested
and fetched. -/
structure Keeps (app app' : App) : Prop where
  pipeline : app'.pipeline = app.pipeline
  surroundings : app'.surroundings = app.surroundings
  homePort : app'.homePort = app.homePort
  disk : app'.disk = app.disk

/-- Nothing is recorded and no request received: at most something was fetched. -/
structure Waits (app app' : App) : Prop where
  keeps : Keeps app app'
  requests : app'.requests = app.requests
  depsAt : app'.depsAt = app.depsAt

/-- A response is given, and the app changed, according to a verdict. -/
structure Settles (app : App) (v : Verdict) (answer : Response) (app' : App) : Prop where
  keeps : Keeps app app'
  requests : app'.requests = app.requests
  success : answer.isSuccess = true ↔ v ≠ .refused
  depsAt : app'.depsAt = v.depsAfter app.depsAt

theorem isSuccess_message {status : Nat} (h : 300 ≤ status) (text : String) :
    (Response.message status text).isSuccess = false := by
  show (decide (200 ≤ status) && decide (status < 300)) = false
  rw [decide_eq_false (p := status < 300) (by omega), Bool.and_false]

theorem isSuccess_of_error (e : CompileError) :
    (if e.isNotFound then Response.notFound else Response.message 500 e.message).isSuccess =
      false := by
  split
  · exact isSuccess_message (by omega) _
  · exact isSuccess_message (by omega) _

theorem settles_respondFrom {app app' : App} {r : ModuleRequest}
    {source : Except CompileError String} {answer : Response}
    (hrun : (respondFrom r source).run app = (answer, app')) :
    Settles app (app.verdict r source) answer app' := by
  cases hc : app.pipeline.compile? app.disk app.graph r source with
  | error e =>
    have hv : app.verdict r source = .refused := by
      rw [verdict, hc]
      rfl
    rw [run_respondFrom_error hc] at hrun
    obtain ⟨rfl, rfl⟩ := Prod.mk.inj hrun
    rw [hv]
    refine ⟨⟨rfl, rfl, rfl, rfl⟩, rfl, ?_, rfl⟩
    rw [isSuccess_of_error]
    simp
  | ok compiled =>
    cases compiled with
    | none =>
      have hv : app.verdict r source =
          if (staticFile app.disk r.specifier).isSuccess then .file else .refused := by
        rw [verdict, hc]
        rfl
      rw [run_respondFrom_static hc] at hrun
      obtain ⟨rfl, rfl⟩ := Prod.mk.inj hrun
      rw [hv]
      cases hserved : (staticFile app.disk r.specifier).isSuccess with
      | true => exact ⟨⟨rfl, rfl, rfl, rfl⟩, rfl, by simp [hserved], rfl⟩
      | false => exact ⟨⟨rfl, rfl, rfl, rfl⟩, rfl, by simp [hserved], rfl⟩
    | some c =>
      have hv : app.verdict r source = .recorded c.key c.deps := by
        rw [verdict, hc]
        rfl
      rw [run_respondFrom_compiled hc] at hrun
      obtain ⟨rfl, rfl⟩ := Prod.mk.inj hrun
      rw [hv]
      refine ⟨⟨rfl, rfl, rfl, rfl⟩, rfl, ?_, ?_⟩
      · simp [Response.isSuccess_text]
      · funext k
        exact depsAt_mark app c.key c.deps c.inlineCss k

/-! ## The same verdict -/

section
variable {app app' : App} {r : ModuleRequest}

theorem textOf_steady (hpipeline : app'.pipeline = app.pipeline)
    (hsurroundings : app'.surroundings = app.surroundings)
    (h : app.pipeline.SameFiles app.disk app'.disk r) : textOf app' r = textOf app r := by
  unfold textOf
  rw [hpipeline]
  cases hs : app.pipeline.sourceOf? r.specifier with
  | none => rw [Option.elim_none, Option.elim_none]
  | some s =>
    rw [Option.elim_some, Option.elim_some, sourceText, sourceText, hsurroundings]
    split
    · rfl
    · rename_i hlocal
      exact h.text s hs (by simpa using hlocal)

theorem verdict_steady (hp : app.pipeline.IsStandard) (hpipeline : app'.pipeline = app.pipeline)
    (h : app.pipeline.SameFiles app.disk app'.disk r) (source : Except CompileError String) :
    app'.verdict r source = app.verdict r source := by
  rw [verdict, verdict, hpipeline, Pipeline.compile?_steady hp h app.graph app'.graph source]
  cases hc : app.pipeline.compile? app.disk app.graph r source with
  | error e => simp only [Except.map, Verdict.ofCompiled_error]
  | ok compiled =>
    cases compiled with
    | none => rw [h.file (Pipeline.classify_of_compile?_none hc)]
    | some c => simp only [Except.map, Option.map, Verdict.ofCompiled_recorded]

end

/-! ## Verdicts on modules -/

/-- What the module server makes of the request for a module, unless the request is refused
unread. -/
def requestOf? (s : Specifier) : Option ModuleRequest :=
  match Uri.parse (Specifier.requestPath s) with
  | .ok uri => if climbs uri.path then none else some (ModuleRequest.parse uri.path uri.query)
  | .error _ => none

/-- The verdict on the request for a module. -/
def verdictOf (app : App) (s : Specifier) : Verdict :=
  (requestOf? s).elim .refused fun r => app.verdict r (textOf app r)

theorem verdictOf_steady {app app' : App} (hp : app.pipeline.IsStandard)
    (hpipeline : app'.pipeline = app.pipeline)
    (hsurroundings : app'.surroundings = app.surroundings) {s : Specifier}
    (h : ∀ r, requestOf? s = some r → app.pipeline.SameFiles app.disk app'.disk r) :
    app'.verdictOf s = app.verdictOf s := by
  unfold verdictOf
  cases hr : requestOf? s with
  | none => rw [Option.elim_none, Option.elim_none]
  | some r =>
    rw [Option.elim_some, Option.elim_some, textOf_steady hpipeline hsurroundings (h r hr),
      verdict_steady hp hpipeline (h r hr)]

theorem verdictOf_of_requestOf? {app : App} {s : Specifier} {r : ModuleRequest}
    (h : requestOf? s = some r) : app.verdictOf s = app.verdict r (textOf app r) := by
  unfold verdictOf
  rw [h, Option.elim_some]

/-! ## Answering according to the verdict -/

section
variable {app app' : App} {s : Specifier} {r : ModuleRequest} {answer : Response}

theorem Settles.of_fetched {v : Verdict} {fetched : List String}
    (h : Settles { app with fetched } v answer app') : Settles app v answer app' where
  keeps := ⟨h.keeps.pipeline, h.keeps.surroundings, h.keeps.homePort, h.keeps.disk⟩
  requests := h.requests
  success := h.success
  depsAt := h.depsAt

theorem verdict_fetched (source : Except CompileError String) (fetched : List String) :
    ({ app with fetched } : App).verdict r source = app.verdict r source := rfl

theorem FetchesAway.congr (h : FetchesAway app r) (hpipeline : app'.pipeline = app.pipeline)
    (hport : app'.homePort = app.homePort) : FetchesAway app' r := by
  intro s hs hremote
  rw [hpipeline] at hs
  rw [homeUri?_congr hport]
  exact h s hs hremote

theorem settles_compile (inner : Uri → StateM App Response) (h : FetchesAway app r)
    (hrun : (sourceFor (fetchWith inner) r >>= respondFrom r).run app = (answer, app')) :
    Settles app (app.verdict r (textOf app r)) answer app' := by
  obtain ⟨fetched, hsource⟩ := run_sourceFor_away inner h
  rw [run_state_bind, hsource] at hrun
  dsimp only at hrun
  have hsettles := settles_respondFrom hrun
  rw [verdict_fetched] at hsettles
  exact hsettles.of_fetched

/-- What a turn on the request for a module comes to. -/
inductive Turn (app : App) (s : Specifier) : Answering → App → Prop where
  | reading {r : ModuleRequest} {app' : App} (hr : requestOf? s = some r) (h : Waits app app') :
      Turn app s (.reading r) app'
  | bundling {r : ModuleRequest} {text : String} {app' : App} (hr : requestOf? s = some r)
      (htext : textOf app r = .ok text) (h : Waits app app') : Turn app s (.bundling r text) app'
  | answered {answer : Response} {app' : App} (h : Settles app (app.verdictOf s) answer app') :
      Turn app s (.answered answer) app'

theorem turn_compile (inner : Uri → StateM App Response) (hr : requestOf? s = some r)
    (h : FetchesAway app r) {a : Answering}
    (hrun : (sourceFor (fetchWith inner) r >>= answerFrom r).run app = (a, app')) :
    Turn app s a app' := by
  obtain ⟨fetched, hsource⟩ := run_sourceFor_away inner h
  rw [run_state_bind, hsource] at hrun
  dsimp only at hrun
  rcases run_answerFrom r (textOf app r) { app with fetched } with ⟨text, htext, hanswer⟩ | hanswer
  · rw [hanswer] at hrun
    obtain ⟨rfl, rfl⟩ := Prod.mk.inj hrun
    exact .bundling hr htext ⟨⟨rfl, rfl, rfl, rfl⟩, rfl, rfl⟩
  · rcases hrespond : (respondFrom r (textOf app r)).run { app with fetched } with ⟨answer, app''⟩
    rw [hanswer, hrespond] at hrun
    obtain ⟨rfl, rfl⟩ := Prod.mk.inj hrun
    have hsettles := settles_respondFrom hrespond
    rw [verdict_fetched, ← verdictOf_of_requestOf? hr] at hsettles
    exact .answered hsettles.of_fetched

/-- A turn on an answer that waits for files. -/
theorem turn_goOn_reading (hr : requestOf? s = some r) (h : FetchesAway app r) {a : Answering}
    (hrun : (goOn (.reading r)).run app = (a, app')) : Turn app s a app' := by
  exact turn_compile App.answer hr h hrun

theorem turn_goOn_bundling (hr : requestOf? s = some r) {text : String}
    (htext : textOf app r = .ok text) {a : Answering}
    (hrun : (goOn (.bundling r text)).run app = (a, app')) : Turn app s a app' := by
  rcases hrespond : (respondFrom r (.ok text)).run app with ⟨answer, app''⟩
  have hstep : (goOn (.bundling r text)).run app = (.answered answer, app'') := by
    show (respondFrom r (.ok text) >>= fun answer => pure (Answering.answered answer)).run app = _
    rw [run_state_bind, hrespond]
    rfl
  rw [hstep] at hrun
  obtain ⟨rfl, rfl⟩ := Prod.mk.inj hrun
  have hsettles := settles_respondFrom hrespond
  rw [← htext, ← verdictOf_of_requestOf? hr] at hsettles
  exact .answered hsettles

/-! ## Receiving requests -/

/-- A request is received and nothing else done. -/
structure Receives (app : App) (uri : Uri) (seen : App) : Prop where
  keeps : Keeps app seen
  requests : seen.requests = app.requests ++ [uri]
  depsAt : seen.depsAt = app.depsAt

theorem receives_received (app : App) (uri : Uri) : Receives app uri (app.received uri) :=
  ⟨⟨rfl, rfl, rfl, rfl⟩, rfl, rfl⟩

/-- A request that climbs is refused unread. -/
theorem settles_invalidPath {uri : Uri} (huri : Uri.parse (Specifier.requestPath s) = .ok uri)
    (hclimbs : climbs uri.path = true) : Settles app (app.verdictOf s) .invalidPath app := by
  have hv : app.verdictOf s = .refused := by
    unfold verdictOf requestOf?
    rw [huri]
    dsimp only
    rw [if_pos hclimbs, Option.elim_none]
  rw [hv]
  refine ⟨⟨rfl, rfl, rfl, rfl⟩, rfl, ?_, rfl⟩
  rw [Response.invalidPath, isSuccess_message (by omega)]
  simp

theorem requestOf?_of_parse {uri : Uri} (huri : Uri.parse (Specifier.requestPath s) = .ok uri)
    (hclimbs : climbs uri.path = false) :
    requestOf? s = some (ModuleRequest.parse uri.path uri.query) := by
  unfold requestOf?
  rw [huri]
  dsimp only
  rw [if_neg (by simp [hclimbs])]

theorem turn_receive {uri : Uri} (huri : Uri.parse (Specifier.requestPath s) = .ok uri)
    (hhook : app.surroundings.hook uri = none)
    (h : ∀ r, requestOf? s = some r → FetchesAway app r) {a : Answering}
    (hrun : (receive uri).run app = (a, app')) :
    ∃ seen, Receives app uri seen ∧ Turn seen s a app' := by
  by_cases hclimbs : climbs uri.path = true
  · have hstep : (receive uri).run app = _ := run_receiveWith_climbs hhook hclimbs
    rw [hstep] at hrun
    obtain ⟨rfl, rfl⟩ := Prod.mk.inj hrun
    exact ⟨{ app with requests := app.requests ++ [uri] }, ⟨⟨rfl, rfl, rfl, rfl⟩, rfl, rfl⟩,
      .answered (settles_invalidPath huri hclimbs)⟩
  · have hclimbs : climbs uri.path = false := by simpa using hclimbs
    have hr := requestOf?_of_parse huri hclimbs
    have hstep : (receive uri).run app = _ := run_receiveWith hhook hclimbs rfl
    rw [hstep] at hrun
    refine ⟨app.received uri, receives_received app uri, ?_⟩
    split at hrun
    · obtain ⟨rfl, rfl⟩ := Prod.mk.inj hrun
      exact .reading hr ⟨⟨rfl, rfl, rfl, rfl⟩, rfl, rfl⟩
    · have hkeeps := (receives_received app uri).keeps
      have haway := (h _ hr).congr hkeeps.pipeline hkeeps.homePort
      have hfetch : fetch = fetchWith App.answer := rfl
      rw [hfetch] at hrun
      exact turn_compile App.answer hr haway hrun

/-- The answer that is given at once. -/
theorem settles_answer {uri : Uri} (huri : Uri.parse (Specifier.requestPath s) = .ok uri)
    (hhook : app.surroundings.hook uri = none)
    (h : ∀ r, requestOf? s = some r → FetchesAway app r)
    (hrun : (App.answer uri).run app = (answer, app')) :
    ∃ seen, Receives app uri seen ∧ Settles seen (seen.verdictOf s) answer app' := by
  obtain ⟨inner, hinner⟩ : ∃ inner, App.answer uri = respondWith (fetchWith inner) uri := by
    unfold App.answer
    cases uri.toText.length with
    | zero => exact ⟨_, rfl⟩
    | succ depth => exact ⟨_, rfl⟩
  rw [hinner] at hrun
  by_cases hclimbs : climbs uri.path = true
  · rw [run_respondWith_climbs hhook hclimbs] at hrun
    obtain ⟨rfl, rfl⟩ := Prod.mk.inj hrun
    exact ⟨{ app with requests := app.requests ++ [uri] }, ⟨⟨rfl, rfl, rfl, rfl⟩, rfl, rfl⟩,
      settles_invalidPath huri hclimbs⟩
  · have hclimbs : climbs uri.path = false := by simpa using hclimbs
    have hr := requestOf?_of_parse huri hclimbs
    rw [run_respondWith hhook hclimbs rfl] at hrun
    refine ⟨app.received uri, receives_received app uri, ?_⟩
    rw [verdictOf_of_requestOf? hr]
    have hkeeps := (receives_received app uri).keeps
    exact settles_compile inner ((h _ hr).congr hkeeps.pipeline hkeeps.homePort) hrun

end

end App
end Waymark
