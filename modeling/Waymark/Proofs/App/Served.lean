import Waymark.Proofs.App.Recording
import Waymark.Proofs.App.Verdict
/-!
# What is recorded when a request is answered

The answer to a request compiles one module and records it under its key.  The text of
that module may be fetched from the app itself, which then answers another request
first, and so on.  All that is recorded is what one of these answers compiled, and
everything else in the graph stays as it was.

`Touches` and `Records` are the frames: which keys something may have been recorded
under, and under which of them it was for certain.  `Serves` says which keys these are
for an answer, and `MayRecord` bounds them from the request alone, without a look at the
state it is answered in.

## Main results

* `Records.trans` — frames of two steps in a row.
* `records_respondWith` — what one answer records, given what its fetching does.
* `records_answerWithin` — an answer records the modules that are served for it.
* `Serves.mayRecord` — which modules these can be.
* `touches_receive`, `touches_goOn` — a turn on an answer records no other ones.
-/

namespace Waymark.App

/-! ## Frames -/

/-- Nothing is changed in the graph but what is recorded under keys in `S`. -/
structure Touches (app : App) (S : Specifier → Prop) (app' : App) : Prop where
  keeps : Keeps app app'
  others : ∀ k, ¬S k → app'.depsAt k = app.depsAt k

/-- The modules with keys in `S` are recorded, and nothing else is changed in the graph. -/
structure Records (app : App) (S : Specifier → Prop) (app' : App) : Prop
    extends Touches app S app' where
  recorded : ∀ k, S k → (app'.depsAt k).isSome = true

theorem Keeps.trans {a b c : App} (h : Keeps a b) (h' : Keeps b c) : Keeps a c :=
  ⟨h'.pipeline.trans h.pipeline, h'.surroundings.trans h.surroundings,
    h'.homePort.trans h.homePort, h'.disk.trans h.disk⟩

/-- Nothing is touched where what is recorded stays the same. -/
theorem touches_nothing {app app' : App} {S : Specifier → Prop} (h : Keeps app app')
    (hdeps : app'.depsAt = app.depsAt) : Touches app S app' :=
  ⟨h, fun k _ => congrFun hdeps k⟩

/-- Nor is anything recorded there. -/
theorem records_nothing {app app' : App} (h : Keeps app app') (hdeps : app'.depsAt = app.depsAt) :
    Records app (fun _ => False) app' :=
  ⟨touches_nothing h hdeps, fun _ hk => hk.elim⟩

section
variable {a b c : App} {S T : Specifier → Prop}

theorem Touches.mono (h : Touches a S b) (hle : ∀ k, S k → T k) : Touches a T b :=
  ⟨h.keeps, fun k hk => h.others k fun hs => hk (hle k hs)⟩

theorem Touches.trans (h : Touches a S b) (h' : Touches b T c) :
    Touches a (fun k => S k ∨ T k) c where
  keeps := h.keeps.trans h'.keeps
  others k hk := by
    rw [not_or] at hk
    rw [h'.others k hk.2, h.others k hk.1]

theorem Records.congr (h : Records a S b) (heq : ∀ k, T k ↔ S k) : Records a T b :=
  ⟨h.toTouches.mono fun k hk => (heq k).2 hk, fun k hk => h.recorded k ((heq k).1 hk)⟩

theorem Records.trans (h : Records a S b) (h' : Records b T c) :
    Records a (fun k => S k ∨ T k) c where
  toTouches := h.toTouches.trans h'.toTouches
  recorded k hk := by
    by_cases ht : T k
    · exact h'.recorded k ht
    · rw [h'.others k ht]
      exact h.recorded k (hk.resolve_right ht)

theorem Records.isSome_iff (h : Records a S b) (k : Specifier) :
    (b.depsAt k).isSome = true ↔ (a.depsAt k).isSome = true ∨ S k := by
  by_cases hk : S k
  · simp [h.recorded k hk, hk]
  · simp [h.others k hk, hk]

end

/-! ## Steps of an answer -/

/-- A request is compiled to the module with a key. -/
def CompilesTo (app : App) (r : ModuleRequest) (source : Except CompileError String)
    (k : Specifier) : Prop :=
  ∃ c, app.pipeline.compile? app.disk app.graph r source = .ok (some c) ∧ c.key = k

theorem CompilesTo.eq_graphKey {app : App} {r : ModuleRequest}
    {source : Except CompileError String} {k : Specifier} (h : CompilesTo app r source k) :
    k = Specifier.graphKey r.specifier := by
  obtain ⟨c, hc, rfl⟩ := h
  exact (Pipeline.compile?_reported hc).1

theorem records_respondFrom (r : ModuleRequest) (source : Except CompileError String)
    (app : App) :
    Records app (CompilesTo app r source) ((respondFrom r source).run app).2 := by
  have hnone (h : ∀ c, app.pipeline.compile? app.disk app.graph r source ≠ .ok (some c)) :
      Records app (CompilesTo app r source) app.ensureGraph := by
    have hsame : Records app (fun _ => False) app.ensureGraph :=
      records_nothing ⟨rfl, rfl, rfl, rfl⟩ rfl
    refine hsame.congr fun k => ?_
    constructor
    · rintro ⟨c, hc, -⟩
      exact h c hc
    · exact False.elim
  cases hc : app.pipeline.compile? app.disk app.graph r source with
  | error e =>
    rw [run_respondFrom_error hc]
    exact hnone fun c hc' => nomatch hc.symm.trans hc'
  | ok compiled =>
    cases compiled with
    | none =>
      rw [run_respondFrom_static hc]
      exact hnone fun c hc' => nomatch hc.symm.trans hc'
    | some c =>
      have hkey (k : Specifier) : CompilesTo app r source k ↔ k = c.key := by
        constructor
        · rintro ⟨c', hc', rfl⟩
          obtain rfl := Option.some.inj (Except.ok.inj (hc.symm.trans hc'))
          rfl
        · rintro rfl
          exact ⟨c, hc, rfl⟩
      rw [run_respondFrom_compiled hc]
      refine ⟨⟨⟨rfl, rfl, rfl, rfl⟩, fun k hk => ?_⟩, fun k hk => ?_⟩
      · rw [depsAt_mark, if_neg fun h => hk ((hkey k).2 h)]
      · rw [depsAt_mark, if_pos ((hkey k).1 hk)]
        rfl

theorem run_fetchWith_home {answer : Uri → StateM App Response} {url : String} {app : App}
    {inner : Uri} (h : app.homeUri? url = some inner) :
    (fetchWith answer url).run.run app =
      (contentOf url ((answer inner).run { app with fetched := app.fetched ++ [url] }).1,
        ((answer inner).run { app with fetched := app.fetched ++ [url] }).2) := by
  have hport : ({ app with fetched := app.fetched ++ [url] } : App).homeUri? = app.homeUri? :=
    homeUri?_congr rfl
  unfold fetchWith
  rw [run_action_modify_bind, run_action_get_bind, hport, h]
  dsimp only
  rw [run_action_lift_bind]
  rfl

/-- Fetching records what the app records for a request to itself. -/
theorem records_fetchWith {answer : Uri → StateM App Response} {A : App → Uri → Specifier → Prop}
    (h : ∀ app uri, Records app (A app uri) ((answer uri).run app).2) (app : App) (url : String) :
    Records app (fun k => ∃ inner, app.homeUri? url = some inner ∧
      A { app with fetched := app.fetched ++ [url] } inner k)
      ((fetchWith answer url).run.run app).2 := by
  have hfetched : Records app (fun _ => False) { app with fetched := app.fetched ++ [url] } :=
    records_nothing ⟨rfl, rfl, rfl, rfl⟩ rfl
  cases hhome : app.homeUri? url with
  | none =>
    rw [run_fetchWith_away answer hhome]
    exact hfetched.congr fun k => by simp
  | some inner =>
    rw [run_fetchWith_home hhome]
    exact (hfetched.trans (h _ inner)).congr fun k => by simp

theorem records_sourceFor {fetch : String → Action FetchError RemoteText}
    {F : App → String → Specifier → Prop}
    (h : ∀ app url, Records app (F app url) ((fetch url).run.run app).2) (app : App)
    (r : ModuleRequest) :
    Records app (fun k => ∃ s, app.pipeline.sourceOf? r.specifier = some s ∧
      Specifier.isRemote s = true ∧ F app s k) ((sourceFor fetch r).run app).2 := by
  have hnothing : Records app (fun _ => False) app := records_nothing ⟨rfl, rfl, rfl, rfl⟩ rfl
  rw [run_sourceFor]
  cases hs : app.pipeline.sourceOf? r.specifier with
  | none => exact hnothing.congr fun k => by simp
  | some s =>
    dsimp only
    by_cases hremote : Specifier.isRemote s = true
    · rw [run_readSource_remote hremote]
      exact (h app s).congr fun k => by simp [hremote]
    · rw [Bool.not_eq_true] at hremote
      rw [run_readSource_local hremote]
      exact hnothing.congr fun k => by simp [hremote]

/-! ## Whole answers -/

/-- A request is taken up as one for a module. -/
structure TakesUp (app : App) (uri : Uri) (r : ModuleRequest) : Prop where
  hook : app.surroundings.hook uri = none
  path : climbs uri.path = false
  parse : ModuleRequest.parse uri.path uri.query = r

/-- The text of a module and the app as it is read is compiled to the module with a key. -/
def ReadsTo (fetch : String → Action FetchError RemoteText) (app : App) (r : ModuleRequest)
    (k : Specifier) : Prop :=
  CompilesTo ((sourceFor fetch r).run app).2 r ((sourceFor fetch r).run app).1 k

theorem records_respondWith {fetch : String → Action FetchError RemoteText}
    {F : App → String → Specifier → Prop}
    (h : ∀ app url, Records app (F app url) ((fetch url).run.run app).2) (app : App) (uri : Uri) :
    Records app (fun k => ∃ r, TakesUp app uri r ∧
        ((∃ s, app.pipeline.sourceOf? r.specifier = some s ∧ Specifier.isRemote s = true ∧
            F (app.received uri) s k) ∨ ReadsTo fetch (app.received uri) r k))
      ((respondWith fetch uri).run app).2 := by
  have hseen : Records app (fun _ => False) { app with requests := app.requests ++ [uri] } :=
    records_nothing ⟨rfl, rfl, rfl, rfl⟩ rfl
  have hreceived : Records app (fun _ => False) (app.received uri) :=
    records_nothing ⟨rfl, rfl, rfl, rfl⟩ rfl
  cases hhook : app.surroundings.hook uri with
  | some response =>
    rw [respondWith_hook hhook]
    refine hseen.congr fun k => ?_
    constructor
    · rintro ⟨r, htakes, -⟩
      exact nomatch hhook.symm.trans htakes.hook
    · exact False.elim
  | none =>
    by_cases hclimbs : climbs uri.path = true
    · rw [run_respondWith_climbs hhook hclimbs]
      refine hseen.congr fun k => ?_
      constructor
      · rintro ⟨r, htakes, -⟩
        exact nomatch hclimbs.symm.trans htakes.path
      · exact False.elim
    · rw [Bool.not_eq_true] at hclimbs
      rw [run_respondWith hhook hclimbs rfl, run_state_bind]
      have hread := records_sourceFor h (app.received uri)
        (ModuleRequest.parse uri.path uri.query)
      refine ((hreceived.trans hread).trans (records_respondFrom _ _ _)).congr fun k => ?_
      constructor
      · rintro ⟨r, htakes, hk⟩
        obtain rfl := htakes.parse
        exact hk.imp_left Or.inr
      · rintro ((hfalse | hfetched) | hcompiled)
        · exact hfalse.elim
        · exact ⟨_, ⟨hhook, hclimbs, rfl⟩, Or.inl hfetched⟩
        · exact ⟨_, ⟨hhook, hclimbs, rfl⟩, Or.inr hcompiled⟩

/-- How content is fetched for an answer that may go through so many requests to the app itself. -/
def fetchWithin : Nat → String → Action FetchError RemoteText
  | 0 => fetchWith fun _ => pure .notFound
  | depth + 1 => fetchWith (answerWithin depth)

theorem answerWithin_eq (depth : Nat) (uri : Uri) :
    answerWithin depth uri = respondWith (fetchWithin depth) uri := by
  cases depth with
  | zero => rfl
  | succ depth => rfl

/-- Answering a request, through at most so many requests to the app itself, serves the module with
a key: it is what the request is compiled to, or it is served on the way. -/
inductive Serves : Nat → App → Uri → Specifier → Prop where
  | own {depth : Nat} {app : App} {uri : Uri} {r : ModuleRequest} {k : Specifier}
      (htakes : TakesUp app uri r)
      (hreads : ReadsTo (fetchWithin depth) (app.received uri) r k) : Serves depth app uri k
  | inner {depth : Nat} {app : App} {uri : Uri} {r : ModuleRequest} {s : Specifier} {home : Uri}
      {k : Specifier} (htakes : TakesUp app uri r)
      (hs : app.pipeline.sourceOf? r.specifier = some s) (hremote : Specifier.isRemote s = true)
      (hhome : app.homeUri? s = some home)
      (h : Serves depth { app.received uri with fetched := app.fetched ++ [s] } home k) :
      Serves (depth + 1) app uri k

/-- An answer records the modules that are served for it, and nothing else. -/
theorem records_answerWithin (depth : Nat) (app : App) (uri : Uri) :
    Records app (Serves depth app uri) ((answerWithin depth uri).run app).2 := by
  induction depth generalizing app uri with
  | zero =>
    rw [answerWithin_eq]
    have hnothing : ∀ (app : App) (uri : Uri), Records app (fun _ => False)
        ((pure .notFound : StateM App Response).run app).2 := fun app uri =>
      records_nothing ⟨rfl, rfl, rfl, rfl⟩ rfl
    refine (records_respondWith (records_fetchWith hnothing) app uri).congr ?_
    intro k
    constructor
    · intro h
      cases h with
      | own htakes hreads => exact ⟨_, htakes, Or.inr hreads⟩
    · rintro ⟨r, htakes, ⟨s, -, -, inner, -, hfalse⟩ | hreads⟩
      · exact hfalse.elim
      · exact .own htakes hreads
  | succ depth ih =>
    rw [answerWithin_eq]
    have hport : (app.received uri).homeUri? = app.homeUri? := homeUri?_congr rfl
    refine (records_respondWith (records_fetchWith ih) app uri).congr ?_
    intro k
    rw [hport]
    constructor
    · intro h
      cases h with
      | own htakes hreads => exact ⟨_, htakes, Or.inr hreads⟩
      | inner htakes hs hremote hhome h =>
        exact ⟨_, htakes, Or.inl ⟨_, hs, hremote, _, hhome, h⟩⟩
    · rintro ⟨r, htakes, ⟨s, hs, hremote, home, hhome, h⟩ | hreads⟩
      · exact .inner htakes hs hremote hhome h
      · exact .own htakes hreads

/-! ## What may be recorded -/

/-- The keys that may be recorded for a request: its own, and those of the requests that its text
leads to. -/
inductive MayRecord (app : App) : ModuleRequest → Specifier → Prop where
  | own (r : ModuleRequest) : MayRecord app r (Specifier.graphKey r.specifier)
  | inner {r : ModuleRequest} {s : Specifier} {home : Uri} {k : Specifier}
      (hs : app.pipeline.sourceOf? r.specifier = some s) (hremote : Specifier.isRemote s = true)
      (hhome : app.homeUri? s = some home)
      (h : MayRecord app (ModuleRequest.parse home.path home.query) k) : MayRecord app r k

theorem MayRecord.congr {app app' : App} {r : ModuleRequest} {k : Specifier}
    (h : MayRecord app r k) (hpipeline : app'.pipeline = app.pipeline)
    (hport : app'.homePort = app.homePort) : MayRecord app' r k := by
  induction h with
  | own r => exact .own r
  | inner hs hremote hhome _ ih =>
    rw [← hpipeline] at hs
    rw [← homeUri?_congr hport] at hhome
    exact .inner hs hremote hhome ih

theorem Serves.mayRecord {app app' : App} {depth : Nat} {uri : Uri} {k : Specifier}
    (h : Serves depth app' uri k) (hpipeline : app'.pipeline = app.pipeline)
    (hport : app'.homePort = app.homePort) :
    MayRecord app (ModuleRequest.parse uri.path uri.query) k := by
  induction h with
  | own htakes hreads =>
    obtain rfl := htakes.parse
    rw [CompilesTo.eq_graphKey hreads]
    exact .own _
  | inner htakes hs hremote hhome _ ih =>
    obtain rfl := htakes.parse
    rw [hpipeline] at hs
    rw [homeUri?_congr hport] at hhome
    exact .inner hs hremote hhome (ih hpipeline hport)

/-- Where a module is not fetched from the app itself, its own key is all that may be recorded. -/
theorem eq_of_mayRecord {app : App} {r : ModuleRequest} (haway : FetchesAway app r)
    {k : Specifier} (h : MayRecord app r k) : k = Specifier.graphKey r.specifier := by
  cases h with
  | own => rfl
  | inner hs hremote hhome => exact nomatch (haway _ hs hremote).symm.trans hhome

/-! ## Answers under way -/

theorem touches_sourceFor (app : App) (r : ModuleRequest) :
    Touches app (MayRecord app r) ((sourceFor fetch r).run app).2 := by
  have hanswer : ∀ (app : App) (uri : Uri),
      Records app (Serves uri.toText.length app uri) ((answer uri).run app).2 :=
    fun app uri => records_answerWithin _ app uri
  refine (records_sourceFor (records_fetchWith hanswer) app r).toTouches.mono ?_
  rintro k ⟨s, hs, hremote, home, hhome, hserves⟩
  exact .inner hs hremote hhome (hserves.mayRecord rfl rfl)

theorem touches_respondFrom (app : App) (r : ModuleRequest)
    (source : Except CompileError String) :
    Touches app (· = Specifier.graphKey r.specifier) ((respondFrom r source).run app).2 :=
  (records_respondFrom r source app).toTouches.mono fun _ hk => hk.eq_graphKey

theorem touches_answerFrom (app : App) (r : ModuleRequest) (source : Except CompileError String) :
    Touches app (· = Specifier.graphKey r.specifier) ((answerFrom r source).run app).2 := by
  rcases run_answerFrom r source app with ⟨text, -, hanswer⟩ | hanswer
  · rw [hanswer]
    exact touches_nothing ⟨rfl, rfl, rfl, rfl⟩ rfl
  · rw [hanswer]
    dsimp only
    exact touches_respondFrom app r source

/-- The keys that may be recorded when a module is asked for. -/
def CanRecord (app : App) (s k : Specifier) : Prop := ∃ r, requestOf? s = some r ∧ MayRecord app r k

theorem CanRecord.congr {app app' : App} {s k : Specifier} (h : CanRecord app s k)
    (hpipeline : app'.pipeline = app.pipeline) (hport : app'.homePort = app.homePort) :
    CanRecord app' s k :=
  let ⟨r, hr, hk⟩ := h
  ⟨r, hr, hk.congr hpipeline hport⟩

/-- An answer that is under way is one to the request for this module. -/
inductive IsFor (s : Specifier) : Answering → Prop where
  | reading {r : ModuleRequest} (hr : requestOf? s = some r) : IsFor s (.reading r)
  | bundling {r : ModuleRequest} (hr : requestOf? s = some r) (text : String) :
      IsFor s (.bundling r text)
  | answered (answer : Response) : IsFor s (.answered answer)

section
variable {s : Specifier} {r : ModuleRequest}

theorem isFor_answerFrom (hr : requestOf? s = some r) (source : Except CompileError String)
    (app : App) : IsFor s ((answerFrom r source).run app).1 := by
  rcases run_answerFrom r source app with ⟨text, -, hanswer⟩ | hanswer
  · rw [hanswer]
    exact .bundling hr text
  · rw [hanswer]
    exact .answered _

theorem touches_compile (hr : requestOf? s = some r) (app : App) :
    Touches app (CanRecord app s) ((sourceFor fetch r >>= answerFrom r).run app).2 ∧
      IsFor s ((sourceFor fetch r >>= answerFrom r).run app).1 := by
  rw [run_state_bind]
  refine ⟨?_, isFor_answerFrom hr _ _⟩
  refine ((touches_sourceFor app r).trans (touches_answerFrom _ r _)).mono ?_
  rintro k (hsource | rfl)
  · exact ⟨r, hr, hsource⟩
  · exact ⟨r, hr, .own r⟩

/-- Receiving the request for a module records nothing that it could not. -/
theorem touches_receive {uri : Uri} (huri : Uri.parse (Specifier.requestPath s) = .ok uri)
    (app : App) :
    Touches app (CanRecord app s) ((receive uri).run app).2 ∧
      IsFor s ((receive uri).run app).1 := by
  cases hhook : app.surroundings.hook uri with
  | some response =>
    have hrun : (receive uri).run app =
        (.answered response, { app with requests := app.requests ++ [uri] }) := by
      unfold receive receiveWith
      rw [run_state_modify_bind, run_state_get_bind, hhook]
      rfl
    rw [hrun]
    exact ⟨touches_nothing ⟨rfl, rfl, rfl, rfl⟩ rfl, .answered response⟩
  | none =>
    by_cases hclimbs : climbs uri.path = true
    · rw [receive, run_receiveWith_climbs hhook hclimbs]
      exact ⟨touches_nothing ⟨rfl, rfl, rfl, rfl⟩ rfl, .answered _⟩
    · rw [Bool.not_eq_true] at hclimbs
      have hr := requestOf?_of_parse huri hclimbs
      have hreceived : Touches app (fun _ => False) (app.received uri) :=
        touches_nothing ⟨rfl, rfl, rfl, rfl⟩ rfl
      rw [receive, run_receiveWith hhook hclimbs rfl]
      split
      · exact ⟨hreceived.mono fun _ hk => hk.elim, .reading hr⟩
      · obtain ⟨hcompile, hfor⟩ := touches_compile hr (app.received uri)
        refine ⟨(hreceived.trans hcompile).mono ?_, hfor⟩
        rintro k (hfalse | hk)
        · exact hfalse.elim
        · exact hk.congr rfl rfl

/-- Nor does working on the answer. -/
theorem touches_goOn {answering : Answering} (h : IsFor s answering) (app : App) :
    Touches app (CanRecord app s) ((goOn answering).run app).2 ∧
      IsFor s ((goOn answering).run app).1 := by
  cases h with
  | reading hr => exact touches_compile hr app
  | @bundling r hr text =>
    have hrun : (goOn (.bundling r text)).run app =
        (.answered ((respondFrom r (.ok text)).run app).1,
          ((respondFrom r (.ok text)).run app).2) := by
      show (respondFrom r (.ok text) >>= fun answer => pure (Answering.answered answer)).run app = _
      rw [run_state_bind]
      rfl
    rw [hrun]
    dsimp only
    refine ⟨?_, .answered _⟩
    apply (touches_respondFrom app r (.ok text)).mono
    rintro k rfl
    exact ⟨r, hr, .own r⟩
  | answered answer =>
    have hrun : (goOn (.answered answer)).run app = (.answered answer, app) := rfl
    rw [hrun]
    exact ⟨touches_nothing ⟨rfl, rfl, rfl, rfl⟩ rfl, .answered answer⟩

end

end Waymark.App
