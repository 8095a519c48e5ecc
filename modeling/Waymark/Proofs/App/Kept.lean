import Waymark.Proofs.App.Served
import Waymark.Proofs.Graph.Restored
/-!
# What answers keep

All that an app does to itself, while it serves and fetches modules, is to note what was
requested and fetched, and to mark modules on its graph.  So whatever marks keep of a graph
holds of it after any request if it did before: that each record stands under its own
specifier, and that a module which is recorded stays so.

## Main results

* `keeps_fetch` — fetching, through the app itself or not.
* `keeps_receive`, `keeps_goOn` — a turn on an answer.
* `recorded_of_receive`, `recorded_of_goOn` — an answer that succeeds has recorded its module.
-/

namespace Waymark

namespace Graph

/-- Marks keep a property of graphs. -/
def KeptByMarks (P : Graph → Prop) : Prop :=
  ∀ (g : Graph) (now : Version) (s : Specifier) (deps : List Specifier) (css : Option String),
    P g → P (g.mark now s deps css)

theorem keptByMarks_keyed : KeptByMarks Keyed :=
  fun _ now s deps css hg => hg.perform ⟨now, .mark s deps css⟩

/-- A module has a record. -/
def Recorded (k : Specifier) (g : Graph) : Prop := (g.get? k).isSome = true

theorem keptByMarks_recorded (k : Specifier) : KeptByMarks (Recorded k) := by
  intro g now s deps css hg
  unfold Recorded
  by_cases hk : k = s
  · rw [hk, get?_mark_self]
    rfl
  · rw [get?_mark_ne g now deps css hk]
    exact hg

end Graph

namespace App

/-- A property of apps is kept by all that an app does to itself while it answers. -/
structure KeptByAnswers (I : App → Prop) : Prop where
  requested {app : App} (h : I app) (uri : Uri) : I { app with requests := app.requests ++ [uri] }
  fetched {app : App} (h : I app) (url : String) : I { app with fetched := app.fetched ++ [url] }
  ensured {app : App} (h : I app) : I app.ensureGraph
  marked {app : App} (h : I app) (s : Specifier) (deps : List Specifier) (css : Option String) :
    I (app.withGraph (app.graph.mark app.now s deps css))

/-- What marks keep of a graph. -/
theorem keptByAnswers_graph {P : Graph → Prop} (hP : Graph.KeptByMarks P) :
    KeptByAnswers fun app => P app.graph where
  requested h _ := h
  fetched h _ := h
  ensured h := h
  marked h s deps css := hP _ _ s deps css h

/-- What an app does keeps a property. -/
def Preserves (I : App → Prop) {α : Type} (act : StateM App α) : Prop :=
  ∀ app : App, I app → I (act.run app).2

section
variable {I : App → Prop} {α β : Type}

theorem Preserves.bind {x : StateM App α} {f : α → StateM App β} (hx : Preserves I x)
    (hf : ∀ a, Preserves I (f a)) : Preserves I (x >>= f) :=
  fun app happ => hf _ _ (hx app happ)

theorem preserves_pure (a : α) : Preserves I (pure a) := fun _ happ => happ

/-! ## Answers -/

theorem keeps_fetchWith (hI : KeptByAnswers I) {answer : Uri → StateM App Response}
    (h : ∀ uri, Preserves I (answer uri)) (url : String) :
    Preserves I (fetchWith answer url).run := by
  intro app happ
  cases hhome : app.homeUri? url with
  | none =>
    rw [run_fetchWith_away answer hhome]
    exact hI.fetched happ url
  | some inner =>
    rw [run_fetchWith_home hhome]
    exact h inner _ (hI.fetched happ url)

theorem keeps_sourceFor {fetch : String → Action FetchError RemoteText}
    (h : ∀ url, Preserves I (fetch url).run) (r : ModuleRequest) :
    Preserves I (sourceFor fetch r) := by
  intro app happ
  rw [run_sourceFor]
  cases app.pipeline.sourceOf? r.specifier with
  | none => exact happ
  | some s =>
    dsimp only
    cases hs : Specifier.isRemote s with
    | true =>
      rw [run_readSource_remote hs]
      exact h s app happ
    | false =>
      rw [run_readSource_local hs]
      exact happ

theorem keeps_respondFrom (hI : KeptByAnswers I) (r : ModuleRequest)
    (source : Except CompileError String) : Preserves I (respondFrom r source) := by
  intro app happ
  cases hc : app.pipeline.compile? app.disk app.graph r source with
  | error e =>
    rw [run_respondFrom_error hc]
    exact hI.ensured happ
  | ok compiled =>
    cases compiled with
    | none =>
      rw [run_respondFrom_static hc]
      exact hI.ensured happ
    | some c =>
      rw [run_respondFrom_compiled hc]
      exact hI.marked happ c.key c.deps c.inlineCss

theorem keeps_respondWith (hI : KeptByAnswers I)
    {fetch : String → Action FetchError RemoteText} (h : ∀ url, Preserves I (fetch url).run)
    (uri : Uri) : Preserves I (respondWith fetch uri) := by
  intro app happ
  cases hhook : app.surroundings.hook uri with
  | some response =>
    rw [respondWith_hook hhook]
    exact hI.requested happ uri
  | none =>
    by_cases hclimbs : climbs uri.path = true
    · rw [run_respondWith_climbs hhook hclimbs]
      exact hI.requested happ uri
    · rw [Bool.not_eq_true] at hclimbs
      rw [run_respondWith hhook hclimbs rfl]
      exact ((keeps_sourceFor h _).bind fun source => keeps_respondFrom hI _ source) _
        (hI.ensured (hI.requested happ uri))

theorem keeps_answerWithin (hI : KeptByAnswers I) (depth : Nat) (uri : Uri) :
    Preserves I (answerWithin depth uri) := by
  induction depth generalizing uri with
  | zero => exact keeps_respondWith hI (keeps_fetchWith hI fun _ => preserves_pure _) uri
  | succ depth ih => exact keeps_respondWith hI (keeps_fetchWith hI ih) uri

/-- Fetching keeps what answers keep. -/
theorem keeps_fetch (hI : KeptByAnswers I) (url : String) : Preserves I (fetch url).run :=
  keeps_fetchWith hI (fun uri => keeps_answerWithin hI _ uri) url

/-! ## Answers under way -/

theorem keeps_answerFrom (hI : KeptByAnswers I) (r : ModuleRequest)
    (source : Except CompileError String) : Preserves I (answerFrom r source) := by
  intro app happ
  rcases run_answerFrom r source app with ⟨text, -, hanswer⟩ | hanswer
  · rw [hanswer]
    exact happ
  · have hkept := keeps_respondFrom hI r source app happ
    rw [hanswer]
    generalize (respondFrom r source).run app = done at hkept ⊢
    exact hkept

theorem keeps_compile (hI : KeptByAnswers I) (r : ModuleRequest) :
    Preserves I (sourceFor fetch r >>= answerFrom r) := by
  intro app happ
  rw [run_state_bind]
  exact keeps_answerFrom hI r _ _ (keeps_sourceFor (keeps_fetch hI) r app happ)

theorem run_receive_hook {uri : Uri} {app : App} {response : Response}
    (hhook : app.surroundings.hook uri = some response) :
    (receive uri).run app =
      (.answered response, { app with requests := app.requests ++ [uri] }) := by
  unfold receive receiveWith
  rw [run_state_modify_bind, run_state_get_bind, hhook]
  rfl

theorem keeps_receive (hI : KeptByAnswers I) (uri : Uri) : Preserves I (receive uri) := by
  intro app happ
  cases hhook : app.surroundings.hook uri with
  | some response =>
    rw [run_receive_hook hhook]
    exact hI.requested happ uri
  | none =>
    by_cases hclimbs : climbs uri.path = true
    · rw [receive, run_receiveWith_climbs hhook hclimbs]
      exact hI.requested happ uri
    · rw [Bool.not_eq_true] at hclimbs
      rw [receive, run_receiveWith hhook hclimbs rfl]
      have hreceived : I (app.received uri) := hI.ensured (hI.requested happ uri)
      split
      · exact hreceived
      · exact keeps_compile hI _ (app.received uri) hreceived

theorem keeps_goOn (hI : KeptByAnswers I) (answering : Answering) :
    Preserves I (goOn answering) := by
  cases answering with
  | reading r => exact keeps_compile hI r
  | bundling r text => exact (keeps_respondFrom hI r (.ok text)).bind fun _ => preserves_pure _
  | answered response => exact preserves_pure _

end

/-! ## Modules that are recorded -/

section
variable {r : ModuleRequest}

/-- An answer is none yet, or no success, or its module has a record. -/
def RecordedOnSuccess (a : App) (r : ModuleRequest) (answering : Answering) : Prop :=
  ∀ response, answering = .answered response → response.isSuccess = true →
    a.graph.Recorded (Specifier.graphKey r.specifier)

/-- The answer with a module that is no static file succeeds only if the module is compiled, and
then it is recorded. -/
theorem recorded_of_respondFrom {app : App}
    (hkind : app.pipeline.classify r.specifier ≠ .static) (source : Except CompileError String)
    (hsuccess : ((respondFrom r source).run app).1.isSuccess = true) :
    ((respondFrom r source).run app).2.graph.Recorded (Specifier.graphKey r.specifier) := by
  cases hc : app.pipeline.compile? app.disk app.graph r source with
  | error e =>
    rw [run_respondFrom_error hc] at hsuccess
    dsimp only at hsuccess
    split at hsuccess
    · nomatch hsuccess
    · nomatch hsuccess
  | ok compiled =>
    cases compiled with
    | none => exact absurd (Pipeline.classify_of_compile?_none hc) hkind
    | some c =>
      rw [run_respondFrom_compiled hc]
      show Graph.Recorded _ (app.graph.mark app.now c.key c.deps c.inlineCss)
      rw [← (Pipeline.compile?_reported hc).1, Graph.Recorded, Graph.get?_mark_self]
      rfl

theorem recordedOnSuccess_answered {done : Response × App}
    (h : done.1.isSuccess = true → done.2.graph.Recorded (Specifier.graphKey r.specifier)) :
    RecordedOnSuccess done.2 r (.answered done.1) := by
  intro response hresponse hsuccess
  rw [← Answering.answered.inj hresponse] at hsuccess
  exact h hsuccess

theorem recorded_of_answerFrom {app : App} (hkind : app.pipeline.classify r.specifier ≠ .static)
    (source : Except CompileError String) :
    RecordedOnSuccess ((answerFrom r source).run app).2 r ((answerFrom r source).run app).1 := by
  rcases run_answerFrom r source app with ⟨text, -, hanswer⟩ | hanswer
  · rw [hanswer]
    intro response hresponse
    nomatch hresponse
  · have hrecorded := recorded_of_respondFrom hkind source
    rw [hanswer]
    dsimp only
    exact recordedOnSuccess_answered hrecorded

theorem recorded_of_compile {app : App} (hkind : app.pipeline.classify r.specifier ≠ .static) :
    RecordedOnSuccess ((sourceFor fetch r >>= answerFrom r).run app).2 r
      ((sourceFor fetch r >>= answerFrom r).run app).1 := by
  have hpipeline : ((sourceFor fetch r).run app).2.pipeline = app.pipeline :=
    (touches_sourceFor app r).keeps.pipeline
  rw [run_state_bind]
  generalize (sourceFor fetch r).run app = read at hpipeline ⊢
  rw [← hpipeline] at hkind
  exact recorded_of_answerFrom hkind read.1

/-- A request for a module that is answered with success has recorded the module. -/
theorem recorded_of_receive {uri : Uri} {app : App} (hhook : app.surroundings.hook uri = none)
    (hr : ModuleRequest.parse uri.path uri.query = r)
    (hkind : app.pipeline.classify r.specifier ≠ .static) :
    RecordedOnSuccess ((receive uri).run app).2 r ((receive uri).run app).1 := by
  by_cases hclimbs : climbs uri.path = true
  · rw [receive, run_receiveWith_climbs hhook hclimbs]
    intro response hresponse hsuccess
    obtain rfl := Answering.answered.inj hresponse
    exact absurd hsuccess Bool.false_ne_true
  · rw [Bool.not_eq_true] at hclimbs
    rw [receive, run_receiveWith hhook hclimbs hr]
    split
    · intro response hresponse
      cases hresponse
    · exact recorded_of_compile hkind

/-- So has an answer to such a request that is worked on. -/
theorem recorded_of_goOn {s : Specifier} {answering : Answering} (h : IsFor s answering)
    (hwaits : 0 < answering.waiting) (hr : requestOf? s = some r) {app : App}
    (hkind : app.pipeline.classify r.specifier ≠ .static) :
    RecordedOnSuccess ((goOn answering).run app).2 r ((goOn answering).run app).1 := by
  cases h with
  | reading hr' =>
    obtain rfl := Option.some.inj (hr.symm.trans hr')
    show RecordedOnSuccess ((sourceFor fetch r >>= answerFrom r).run app).2 r
      ((sourceFor fetch r >>= answerFrom r).run app).1
    exact recorded_of_compile hkind
  | bundling hr' text =>
    obtain rfl := Option.some.inj (hr.symm.trans hr')
    have hrecorded := recorded_of_respondFrom hkind (.ok text)
    have hrun : (goOn (.bundling r text)).run app =
        (.answered ((respondFrom r (.ok text)).run app).1,
          ((respondFrom r (.ok text)).run app).2) := by
      show (respondFrom r (.ok text) >>= fun answer => pure (Answering.answered answer)).run app = _
      rw [run_state_bind]
      rfl
    rw [hrun]
    dsimp only
    exact recordedOnSuccess_answered hrecorded
  | answered => exact absurd hwaits (Nat.lt_irrefl 0)

end

end App
end Waymark
