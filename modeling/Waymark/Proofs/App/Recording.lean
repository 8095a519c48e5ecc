import Waymark.Proofs.App.Runs
import Waymark.Proofs.Graph.Versions
/-!
# What compiling records

A module is read, loaded, compiled and searched for styles before anything is
recorded of it, and each of these steps may fail.  What is recorded in the end is one
record, under the key of the module, of what the compilers reported.

`Reported` says what they reported, compiler by compiler, without a word on how
their reports are put together; `compile?_reported` shows that nothing else is
compiled into a module.

## Main results

* `compile?_reported` — what is to be recorded of a compiled module is what was reported.
* `transformWith_records` — without an output the graph is as it was, and an output comes with
  exactly one new or changed record.
-/

namespace Waymark

namespace Pipeline

variable {p : Pipeline} {d : Disk} {g : Graph} {r : ModuleRequest}
  {source : Except CompileError String}

/-! ## Reports -/

/-- What the script compiler is told of a module. -/
def scriptOptions (p : Pipeline) (g : Graph) (key : Specifier) : Script.Options :=
  { isDev := p.isDev, importMap := p.importMap, baseline := g.initial
    versions := g.versionsExcept key }

/-- Whether the style generator of the app, with settings that make it active, looks through code
in this language: one that was loaded as JSX, or, loaded as nothing special, is named so. -/
def LooksThrough (p : Pipeline) (key : Specifier) (lang : Option String) : Prop :=
  ∃ settings generate, p.atomic = some (settings, generate) ∧ settings.isActive = true ∧
    (lang.or (Specifier.extension key) = some "jsx" ∨
      lang.or (Specifier.extension key) = some "tsx")

/-- What the style generator of the app makes of code, if it has one. -/
def Generates (p : Pipeline) (key : Specifier) (code : String) (css : String) : Prop :=
  ∃ settings generate, p.atomic = some (settings, generate) ∧
    generate settings ⟨key, !p.isDev⟩ code = .ok css

/-- The style text of a script that was loaded: that of the loader and, where the generator looks
through it, what is generated. -/
inductive ScriptStyle (p : Pipeline) (key : Specifier) (loaded : LoaderOutput) :
    Option String → Prop where
  | silent (h : ¬p.LooksThrough key loaded.lang) : ScriptStyle p key loaded loaded.inlineCss
  | unused (h : p.LooksThrough key loaded.lang) (hcss : p.Generates key loaded.code "") :
      ScriptStyle p key loaded loaded.inlineCss
  | alone {generated : String} (h : p.LooksThrough key loaded.lang)
      (hcss : p.Generates key loaded.code generated) (hne : generated ≠ "")
      (hloaded : loaded.inlineCss = none) : ScriptStyle p key loaded (some generated)
  | below {css generated : String} (h : p.LooksThrough key loaded.lang)
      (hcss : p.Generates key loaded.code generated) (hne : generated ≠ "")
      (hloaded : loaded.inlineCss = some css) :
      ScriptStyle p key loaded (some (css ++ "\n" ++ generated))

/-- The dependencies and the style text that the compilers report for a request, when the text of
the module is `source`. -/
inductive Reported (p : Pipeline) (d : Disk) (g : Graph) (r : ModuleRequest)
    (source : Except CompileError String) : List Specifier → Option String → Prop where
  | sheet {text : String} {out : Stylesheet.Output} (hkind : p.classify r.specifier = .style)
      (hsource : source = .ok text)
      (h : p.sheets d ⟨!p.isDev, Stylesheet.isScoped (Specifier.graphKey r.specifier)⟩
        (Specifier.graphKey r.specifier) text = .ok out) :
      Reported p d g r source out.deps (some out.code)
  | script {text : String} {out : Script.Output} {css : Option String}
      (hkind : p.classify r.specifier = .script) (hsource : source = .ok text)
      (h : p.scripts (p.scriptOptions g (Specifier.graphKey r.specifier))
        (Specifier.graphKey r.specifier) text = .ok out)
      (hcss : ScriptStyle p (Specifier.graphKey r.specifier) ⟨text, none, none⟩ css) :
      Reported p d g r source out.deps css
  | loaded {l : Loader} {loaded : LoaderOutput} {out : Script.Output} {css : Option String}
      (hkind : p.classify r.specifier = .custom)
      (hfind : Loader.find? p.loaders (Loader.pathOf r.specifier) = some l)
      (hload : l.load ⟨p.isDev, p.importMap⟩ (Loader.pathOf r.specifier) = .ok loaded)
      (h : p.scripts (p.scriptOptions g (Specifier.graphKey r.specifier))
        (Specifier.graphKey r.specifier) loaded.code = .ok out)
      (hcss : ScriptStyle p (Specifier.graphKey r.specifier) loaded css) :
      Reported p d g r source out.deps css

/-! ## Steps -/

theorem looksThrough_iff {key : Specifier} {lang : Option String} {settings : AtomicSettings}
    {generate : AtomicSettings → AtomicRequest → String → Except CompileError String}
    (h : p.atomic = some (settings, generate)) :
    p.LooksThrough key lang ↔
      (settings.isActive &&
        (lang.or (Specifier.extension key)).any (· ∈ ["jsx", "tsx"])) = true := by
  have hlang : (lang.or (Specifier.extension key)).any (· ∈ ["jsx", "tsx"]) = true ↔
      (lang.or (Specifier.extension key) = some "jsx" ∨
        lang.or (Specifier.extension key) = some "tsx") := by
    cases lang.or (Specifier.extension key) with
    | none => simp
    | some l => simp
  rw [Bool.and_eq_true, hlang]
  constructor
  · rintro ⟨settings', generate', h', hactive, hjsx⟩
    rw [h] at h'
    obtain ⟨rfl, rfl⟩ := Prod.mk.inj (Option.some.inj h')
    exact ⟨hactive, hjsx⟩
  · rintro ⟨hactive, hjsx⟩
    exact ⟨settings, generate, h, hactive, hjsx⟩

theorem scriptStyle_withAtomic {key : Specifier} {loaded : LoaderOutput} {generated : String}
    (h : p.atomicStyle key loaded.lang loaded.code = .ok generated) :
    ScriptStyle p key loaded (withAtomic loaded.inlineCss generated) := by
  unfold atomicStyle at h
  split at h
  · -- No generator.
    rename_i hnone
    obtain rfl := Except.ok.inj h
    refine .silent ?_
    rintro ⟨settings, generate, hsome, _⟩
    rw [hnone] at hsome
    nomatch hsome
  · rename_i settings generate hsome
    split at h
    · rename_i hlooks
      have hlooks : p.LooksThrough key loaded.lang := (looksThrough_iff hsome).2 hlooks
      have hcss : p.Generates key loaded.code generated := ⟨settings, generate, hsome, h⟩
      unfold withAtomic
      split
      · rename_i hempty
        exact .unused hlooks (hempty ▸ hcss)
      · rename_i hne
        split
        · rename_i css hloaded
          exact .below hlooks hcss hne hloaded
        · rename_i hloaded
          exact .alone hlooks hcss hne hloaded
    · rename_i hsilent
      obtain rfl := Except.ok.inj h
      exact .silent fun hlooks => hsilent ((looksThrough_iff hsome).1 hlooks)

theorem compileScript_ok {s : Specifier} {loaded : LoaderOutput} {c : Compiled}
    (h : p.compileScript g s loaded = .ok c) :
    c.key = Specifier.graphKey s ∧
      ∃ out, p.scripts (p.scriptOptions g (Specifier.graphKey s)) (Specifier.graphKey s)
          loaded.code = .ok out ∧ c.deps = out.deps ∧
        ScriptStyle p (Specifier.graphKey s) loaded c.inlineCss := by
  obtain ⟨out, hout, h⟩ := exists_of_bind_eq_ok h
  obtain ⟨generated, hgenerated, h⟩ := exists_of_bind_eq_ok h
  obtain rfl := Except.ok.inj h
  exact ⟨rfl, out, hout, rfl, scriptStyle_withAtomic hgenerated⟩

/-- What is to be recorded of a compiled module goes under its key, and is what was reported. -/
theorem compile?_reported {c : Compiled} (h : p.compile? d g r source = .ok (some c)) :
    c.key = Specifier.graphKey r.specifier ∧ Reported p d g r source c.deps c.inlineCss := by
  unfold compile? at h
  split at h
  · nomatch h
  · rename_i hkind
    obtain ⟨text, hsource, h⟩ := exists_of_bind_eq_ok h
    obtain ⟨sheet, hsheet, h⟩ := exists_of_bind_eq_ok h
    obtain rfl := Option.some.inj (Except.ok.inj h)
    obtain ⟨out, hout, hsheet⟩ := exists_of_bind_eq_ok hsheet
    obtain rfl := Except.ok.inj hsheet
    exact ⟨rfl, .sheet hkind hsource hout⟩
  · rename_i hkind
    obtain ⟨text, hsource, h⟩ := exists_of_bind_eq_ok h
    obtain ⟨script, hscript, h⟩ := exists_of_bind_eq_ok h
    obtain rfl := Option.some.inj (Except.ok.inj h)
    obtain ⟨hkey, out, hout, hdeps, hcss⟩ := compileScript_ok hscript
    exact ⟨hkey, hdeps ▸ .script hkind hsource hout hcss⟩
  · rename_i hkind
    obtain ⟨script, hscript, h⟩ := exists_of_bind_eq_ok h
    obtain rfl := Option.some.inj (Except.ok.inj h)
    unfold compileLoaded at hscript
    dsimp only at hscript
    split at hscript
    · nomatch hscript
    · rename_i l hfind
      obtain ⟨loaded, hload, hscript⟩ := exists_of_bind_eq_ok hscript
      obtain ⟨hkey, out, hout, hdeps, hcss⟩ := compileScript_ok hscript
      exact ⟨hkey, hdeps ▸ .loaded hkind hfind hload hout hcss⟩

end Pipeline

/-! ## Recording -/

/-- The graph `g'` is `g` with one record set. -/
structure Graph.Sets (g g' : Graph) (record : ModuleRecord) : Prop where
  get?_self : g'.get? record.specifier = some record
  others : ∀ k, k ≠ record.specifier → g'.get? k = g.get? k
  initial : g'.initial = g.initial
  /-- The version of the record is later than any the graph knew of. -/
  later : g.initial < record.version ∧
    ∀ k old, g.get? k = some old → old.version < record.version

theorem Graph.sets_mark {g : Graph} (hg : g.Sound) (hroom : g.clock < Version.last)
    (now : Version) (s : Specifier) (deps : List Specifier) (css : Option String) :
    g.Sets (g.mark now s deps css) ⟨s, g.nextVersion now, deps, css⟩ := by
  have hnext := lt_nextVersion now hroom
  exact
    { get?_self := get?_mark_self g now s deps css
      others := fun k hk => get?_mark_ne g now deps css hk
      initial := rfl
      later := ⟨UInt64.lt_of_le_of_lt hg.initial_le hnext,
        fun k old hold => UInt64.lt_of_le_of_lt (hg.version_le hold) hnext⟩ }

namespace App

/-- A way to fetch content that has no part in compiling: whatever it answers, the graph and the
compilers stay as they are. -/
def Spares (fetch : String → Action FetchError RemoteText) : Prop :=
  ∀ url app, ((fetch url).run.run app).2.graph? = app.graph? ∧
    ((fetch url).run.run app).2.pipeline = app.pipeline

theorem sourceFor_spares {fetch : String → Action FetchError RemoteText} (h : Spares fetch)
    (r : ModuleRequest) (app : App) :
    ((sourceFor fetch r).run app).2.graph? = app.graph? ∧
      ((sourceFor fetch r).run app).2.pipeline = app.pipeline := by
  rw [run_sourceFor]
  cases app.pipeline.sourceOf? r.specifier with
  | none => exact ⟨rfl, rfl⟩
  | some s =>
    dsimp only
    cases hs : Specifier.isRemote s with
    | true =>
      rw [run_readSource_remote hs]
      exact h s app
    | false =>
      rw [run_readSource_local hs]
      exact ⟨rfl, rfl⟩

/-- Compiling a module on its own.  Without an output the graph is exactly as it was.  An output
comes with one record that is new or changed: it stands under the key of the module, its version
is later than all before, and it holds what the compilers reported. -/
theorem transformWith_records {fetch : String → Action FetchError RemoteText}
    (hfetch : Spares fetch) (r : ModuleRequest) (app : App) (hg : app.graph.Reachable)
    (hroom : app.graph.clock < Version.last)
    {source : Except CompileError String} {reading : App}
    (hread : (sourceFor fetch r).run app.ensureGraph = (source, reading))
    {result : Except CompileError (Option ModuleOutput)} {app' : App}
    (hrun : (transformWith fetch r).run app = (result, app')) :
    (∀ e, result = .error e → app'.graph = app.graph) ∧
      (result = .ok none → app'.graph = app.graph) ∧
      ∀ out, result = .ok (some out) → ∃ record : ModuleRecord,
        record.specifier = Specifier.graphKey r.specifier ∧
          app.graph.Sets app'.graph record ∧
          app.pipeline.Reported reading.disk app.graph r source record.deps record.inlineCss := by
  have hspared := sourceFor_spares hfetch r app.ensureGraph
  rw [hread] at hspared
  have hgraph : reading.graph = app.graph := graph?_graph hspared.1
  have hpipeline : reading.pipeline = app.pipeline := hspared.2
  rw [run_transformWith, hread, run_compileFrom, hgraph, hpipeline] at hrun
  -- Whatever goes wrong goes wrong before the one mark.
  cases hc : app.pipeline.compile? reading.disk app.graph r source with
  | error e =>
    rw [Pipeline.transform_error hc] at hrun
    obtain ⟨rfl, rfl⟩ := Prod.mk.inj hrun
    exact ⟨fun _ _ => rfl, fun _ => rfl, fun out hout => nomatch hout⟩
  | ok compiled =>
    cases compiled with
    | none =>
      rw [Pipeline.transform_static hc] at hrun
      obtain ⟨rfl, rfl⟩ := Prod.mk.inj hrun
      exact ⟨fun _ _ => rfl, fun _ => rfl, fun out hout => nomatch hout⟩
    | some c =>
      rw [Pipeline.transform_ok hc] at hrun
      obtain ⟨rfl, rfl⟩ := Prod.mk.inj hrun
      obtain ⟨hkey, hreported⟩ := Pipeline.compile?_reported hc
      refine ⟨fun e he => (nomatch he), fun hnone => (nomatch hnone), fun out _ => ?_⟩
      exact ⟨⟨c.key, app.graph.nextVersion reading.now, c.deps, c.inlineCss⟩, hkey,
        Graph.sets_mark hg.sound hroom reading.now c.key c.deps c.inlineCss, hreported⟩

/-- A loader that finds style text, on an app whose generator adds to it: the module was recorded
before, and the record it gets now comes later. -/
theorem transformWith_records_loaded :
    let loader : Loader := ⟨fun _ => true, fun _ _ => .ok ⟨"<p/>", some "jsx", some "p\x7b\x7d"⟩⟩
    let p : Pipeline :=
      { Pipeline.standard true ⟨Dict.empty, Dict.empty⟩ with
        loaders := [loader]
        atomic := some (⟨["wind"], Dict.empty⟩, fun _ _ _ => .ok "q\x7b\x7d") }
    let around : Surroundings :=
      ⟨fun url => .error (.request url), fun _ => none, fun _ s _ => .error (.request s)⟩
    let g := Graph.ofRecords 5 [⟨"./a.page", 9, [], none⟩]
    let app : App := ⟨around, p, ⟨"/app", Dict.empty⟩, {}, some g, RouteTable.empty, 3000, 3000,
      Dict.empty, 7, [], []⟩
    let fetch : String → Action FetchError RemoteText := fun url => .ofResult (around.remote url)
    let run := (transformWith fetch ⟨"./a.page", false⟩).run app
    Spares fetch ∧ g.Reachable ∧ g.clock < Version.last ∧
      ∃ out record, run.1 = .ok (some out) ∧ g.Sets run.2.graph record ∧
        record = ⟨"./a.page", 10, [], some "p\x7b\x7d\nq\x7b\x7d"⟩ := by
  intro loader p around g app fetch run
  have hfetch : Spares fetch := fun _ _ => ⟨rfl, rfl⟩
  have hg : g.Reachable := .made (.ofRecords 5 _)
  have hroom : g.clock < Version.last := by decide +kernel
  have hout : run.1 = .ok (some ⟨"<p/>", MediaType.script⟩) :=
    eq_ok_of_toOption (by decide +kernel)
  have hget : run.2.graph.get? "./a.page" =
      some ⟨"./a.page", 10, [], some "p\x7b\x7d\nq\x7b\x7d"⟩ := by decide +kernel
  have hrun : (transformWith fetch ⟨"./a.page", false⟩).run app = (run.1, run.2) := rfl
  obtain ⟨record, hkey, hsets, -⟩ :=
    (transformWith_records hfetch ⟨"./a.page", false⟩ app hg hroom rfl hrun).2.2 _ hout
  have hkey : record.specifier = "./a.page" := hkey.trans (by decide +kernel)
  have hself := hsets.get?_self
  rw [hkey, hget] at hself
  exact ⟨hfetch, hg, hroom, _, record, hout, hsets, (Option.some.inj hself).symm⟩

end App
end Waymark
