import Waymark.App.Serve
/-!
# Answers under way

Requests that are made together are worked on in turns: on each up to where it waits
for a file, then on the next.  What needs no file, such as remote script and the
code of loaders, is compiled and recorded before any file is read.

## Main results

* `finish_receive` — an answer worked on in turns is the one that is given at once.
* `waiting_goOn_lt` — every turn takes an answer nearer to its end.
-/

namespace Waymark.App

/-- An answer and how far it is. -/
inductive Answering where
  /-- It waits for the file of the module. -/
  | reading (r : ModuleRequest)
  /-- The text of a sheet is there; it waits for the files of the sheets that this one imports. -/
  | bundling (r : ModuleRequest) (text : String)
  | answered (r : Response)

namespace Answering

/-- How often an answer waits at most. -/
def waiting : Answering → Nat
  | .reading _ => 2
  | .bundling _ _ => 1
  | .answered _ => 0

end Answering

/-- How far an answer gets from the text of its module, or from why that could not be had. -/
def answerFrom (r : ModuleRequest) (source : Except CompileError String) :
    StateM App Answering := do
  match source, (← get).pipeline.classify r.specifier with
  | .ok text, .style => return .bundling r text
  | _, _ => return .answered (← respondFrom r source)

/-- Receives a request, where `fetch` fetches content. -/
def receiveWith (fetch : String → Action FetchError RemoteText) (uri : Uri) :
    StateM App Answering := do
  modify fun app => { app with requests := app.requests ++ [uri] }
  match (← get).surroundings.hook uri with
  | some r => return .answered r
  | none =>
    if climbs uri.path then return .answered .invalidPath
    let r := ModuleRequest.parse uri.path uri.query
    modify ensureGraph
    if (← get).pipeline.readsFile r.specifier then return .reading r
    let source ← sourceFor fetch r
    answerFrom r source

/-- Works on an answer, up to where it waits next. -/
def goOnWith (fetch : String → Action FetchError RemoteText) :
    Answering → StateM App Answering
  | .reading r => do
    let source ← sourceFor fetch r
    answerFrom r source
  | .bundling r text => return .answered (← respondFrom r (.ok text))
  | .answered r => return .answered r

/-- Works on an answer until it is there. -/
def finishWith (fetch : String → Action FetchError RemoteText) :
    Answering → StateM App Response
  | .reading r => do
    let source ← sourceFor fetch r
    respondFrom r source
  | .bundling r text => respondFrom r (.ok text)
  | .answered r => return r

/-- Receives a request. -/
def receive (uri : Uri) : StateM App Answering := receiveWith fetch uri

/-- Works on an answer, up to where it waits next. -/
def goOn (a : Answering) : StateM App Answering := goOnWith fetch a

/-! ## The same answers -/

section
variable {fetch : String → Action FetchError RemoteText}

/-- An answer that is complete is finished as it is. -/
theorem finish_answered (act : StateM App Response) :
    (do finishWith fetch (.answered (← act))) = act := by
  simp only [finishWith, bind_pure]

/-- Answering from a text and finishing at once is to respond with it. -/
theorem finish_answerFrom (r : ModuleRequest) (source : Except CompileError String) :
    (do finishWith fetch (← answerFrom r source)) = respondFrom r source := by
  have hkind (kind : ModuleKind) :
      (do
        let a ← (match source, kind with
          | .ok text, .style => pure (.bundling r text)
          | _, _ => do return .answered (← respondFrom r source) : StateM App Answering)
        finishWith fetch a) = respondFrom r source := by
    split
    · simp only [pure_bind, finishWith]
    · simp only [bind_assoc, pure_bind, finish_answered]
  simp only [answerFrom, bind_assoc, hkind]
  generalize respondFrom r source = act
  rfl

/-- Receiving a request and finishing at once is to respond to it. -/
theorem finish_receive (uri : Uri) :
    (do finishWith fetch (← receiveWith fetch uri)) = respondWith fetch uri := by
  simp only [receiveWith, respondWith, bind_assoc]
  generalize ModuleRequest.parse uri.path uri.query = r
  refine bind_congr fun _ => bind_congr fun app => ?_
  cases app.surroundings.hook uri with
  | some r => simp only [pure_bind, finishWith]
  | none =>
    by_cases hc : climbs uri.path = true
    · simp only [hc, if_true, pure_bind, finishWith]
    · simp only [if_neg hc, bind_assoc]
      refine bind_congr fun _ => ?_
      have hread (app : App) :
          ((if app.pipeline.readsFile r.specifier then pure (.reading r)
            else sourceFor fetch r >>= answerFrom r) >>= finishWith fetch) =
          (sourceFor fetch r >>= respondFrom r) := by
        split
        · simp only [pure_bind, finishWith]
        · simp only [bind_assoc, finish_answerFrom]
      simp only [hread]
      generalize sourceFor fetch r >>= respondFrom r = act
      rfl

/-- A complete answer waits for nothing. -/
theorem waiting_answered (act : StateM App Response) (app : App) :
    ((do return .answered (← act) : StateM App Answering).run app).1.waiting = 0 := rfl

/-- An answer from a text waits once at most, for the sheets it imports. -/
theorem waiting_answerFrom (r : ModuleRequest) (source : Except CompileError String) (app : App) :
    ((answerFrom r source).run app).1.waiting ≤ 1 := by
  have hkind (kind : ModuleKind) :
      ((match source, kind with
        | .ok text, .style => pure (.bundling r text)
        | _, _ => do return .answered (← respondFrom r source) :
          StateM App Answering).run app).1.waiting ≤ 1 := by
    split
    · exact Nat.le_refl 1
    · simp only [waiting_answered, Nat.zero_le]
  exact hkind (app.pipeline.classify r.specifier)

/-- Each turn on an answer that waits brings it nearer to its end. -/
theorem waiting_goOn_lt {a : Answering} {app : App} (h : 0 < a.waiting) :
    ((goOnWith fetch a).run app).1.waiting < a.waiting := by
  cases a with
  | answered r => simp [Answering.waiting] at h
  | bundling r text =>
    simp only [goOnWith, waiting_answered]
    exact Nat.one_pos
  | reading r =>
    refine Nat.lt_succ_of_le ?_
    have hsource (act : StateM App (Except CompileError String)) :
        ((do answerFrom r (← act)).run app).1.waiting ≤ 1 :=
      waiting_answerFrom r (act.run app).1 (act.run app).2
    exact hsource (sourceFor fetch r)

end

end Waymark.App
