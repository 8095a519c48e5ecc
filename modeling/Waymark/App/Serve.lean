import Waymark.App
/-!
# Serving modules

How a running app answers a request: by its hook, by the compiled module, or by the
file on its disk.

Content that is fetched from the app's own address is answered by the app itself.
Such an answer may fetch again, but each time from within the rest of the address,
so that its length bounds the depth.

## Main results

* `answerWithin_hook` — a hook that answers is all there is to a request.
* `staticFile_remote` — a remote module is never a file.
-/

namespace Waymark.App

/-- What an app does: it may fail, and its value changes either way. -/
abbrev Action (ε α : Type) := ExceptT ε (StateM App) α

/-- An action out of its result. -/
def Action.ofResult {ε α : Type} (r : Except ε α) : Action ε α := ExceptT.mk (pure r)

/-! ## Fetching -/

/-- The host the app is reached under on its own machine. -/
def homeHost : List Char := "localhost".toList

/-- The request to the app itself that a URL stands for, if it stands for one. -/
def homeUri? (app : App) (url : String) : Option Uri :=
  match Url.parse url with
  | .error _ => none
  | .ok u =>
    if u.host = some homeHost ∧ u.port = some app.homePort.toNat then
      let query := match u.query with
        | some q => '?' :: q
        | none => []
      (Uri.parse (String.ofList (u.path.toText ++ query))).toOption
    else none

/-- The content of an answer, if it was a success. -/
def contentOf (url : String) (r : Response) : Except FetchError RemoteText :=
  if r.isSuccess then .ok ⟨r.bodyText, some r.contentType⟩ else .error (.status url r.status)

/-- Fetches content, where `answer` answers requests to the app itself. -/
def fetchWith (answer : Uri → StateM App Response) (url : String) :
    Action FetchError RemoteText := do
  modify fun app => { app with fetched := app.fetched ++ [url] }
  let app ← getThe App
  match app.homeUri? url with
  | some uri => Action.ofResult (contentOf url (← answer uri))
  | none => Action.ofResult (app.surroundings.remote url)

/-! ## Compiling -/

/-- The text of a module: fetched, or read from the disk. -/
def readSource (fetch : String → Action FetchError RemoteText) (s : Specifier) :
    StateM App (Except CompileError String) := do
  if Specifier.isRemote s then
    match ← (fetch s).run with
    | .ok content => return .ok content.text
    | .error e => return .error (.fetch e)
  else
    let d := (← get).disk
    match d.readText (d.pathOf (Specifier.relativePath (Specifier.stripQuery s))) with
    | .ok text => return .ok text
    | .error cause => return .error (.unreadable s cause)

/-- Compiles a module from its text, or from why that could not be had, and records it. -/
def compileFrom (r : ModuleRequest) (source : Except CompileError String) :
    StateM App (Except CompileError (Option ModuleOutput)) := do
  let app ← get
  let (result, g) := app.pipeline.transform app.disk app.graph app.now r source
  set (app.withGraph g)
  return result

/-- The text that the module of a request is compiled from, if it is compiled from its text. -/
def sourceFor (fetch : String → Action FetchError RemoteText) (r : ModuleRequest) :
    StateM App (Except CompileError String) := do
  match (← get).pipeline.sourceOf? r.specifier with
  | some s => readSource fetch s
  | none => return .ok ""

/-- Compiles a module and records it; nothing for a static file. -/
def transformWith (fetch : String → Action FetchError RemoteText) (r : ModuleRequest) :
    StateM App (Except CompileError (Option ModuleOutput)) := do
  modify ensureGraph
  let source ← sourceFor fetch r
  compileFrom r source

/-! ## Answering -/

/-- The answer with a static file. -/
def staticFile (d : Disk) (s : Specifier) : Response :=
  if Specifier.isRemote s then .notFound
  else
    let path := d.pathOf (Specifier.relativePath (Specifier.stripQuery s))
    match d.read path with
    | .ok content => .file (MediaType.ofFileName (Specifier.basename path.toList)) content
    | .error cause =>
      if cause = .notFound ∨ cause = .isDirectory then .notFound else .message 500 cause.message

/-- A remote module is never served from the disk. -/
theorem staticFile_remote {d : Disk} {s : Specifier} (h : Specifier.isRemote s = true) :
    staticFile d s = .notFound := by
  simp [staticFile, h]

/-- Whether a path goes up. -/
def climbs (path : String) : Bool := (Text.pieces '/' path.toList).any (· = ['.', '.'])

/-- The answer with a module, compiled from its text or from why that could not be had. -/
def respondFrom (r : ModuleRequest) (source : Except CompileError String) :
    StateM App Response := do
  match ← compileFrom r source with
  | .ok (some out) => return .text out.contentType out.content
  | .ok none => return staticFile (← get).disk r.specifier
  | .error e => return if e.isNotFound then .notFound else .message 500 e.message

/-- The answer to a request, where `fetch` fetches content. -/
def respondWith (fetch : String → Action FetchError RemoteText) (uri : Uri) :
    StateM App Response := do
  modify fun app => { app with requests := app.requests ++ [uri] }
  match (← get).surroundings.hook uri with
  | some r => return r
  | none =>
    if climbs uri.path then return .invalidPath
    let r := ModuleRequest.parse uri.path uri.query
    modify ensureGraph
    let source ← sourceFor fetch r
    respondFrom r source

/-- What the surroundings answer is the response; only the request is noted. -/
theorem respondWith_hook {fetch : String → Action FetchError RemoteText} {app : App} {uri : Uri}
    {r : Response} (h : app.surroundings.hook uri = some r) :
    (respondWith fetch uri).run app = (r, { app with requests := app.requests ++ [uri] }) := by
  let seen : App := { app with requests := app.requests ++ [uri] }
  change (match seen.surroundings.hook uri with
    | some r => (pure r : StateM App Response)
    | none => _) seen = (r, seen)
  have hs : seen.surroundings.hook uri = some r := h
  rw [hs]
  rfl

/-- The answer to a request, through at most `depth` requests to the app itself. -/
def answerWithin : Nat → Uri → StateM App Response
  | 0, uri => respondWith (fetchWith fun _ => pure .notFound) uri
  | depth + 1, uri => respondWith (fetchWith (answerWithin depth)) uri

/-- The same to any depth of requests that an app sends to itself. -/
theorem answerWithin_hook {app : App} {uri : Uri} {r : Response} {depth : Nat}
    (h : app.surroundings.hook uri = some r) :
    (answerWithin depth uri).run app =
      (r, { app with requests := app.requests ++ [uri] }) := by
  cases depth with
  | zero => exact respondWith_hook h
  | succ depth => exact respondWith_hook h

/-- The answer to a request. -/
def answer (uri : Uri) : StateM App Response := answerWithin uri.toText.length uri

/-- Fetches content. -/
def fetch (url : String) : Action FetchError RemoteText := fetchWith answer url

/-- Compiles a module and records it; nothing for a static file. -/
def transform (r : ModuleRequest) : StateM App (Except CompileError (Option ModuleOutput)) :=
  transformWith fetch r

/-! ## Route modules -/

/-- The code of a route file: what is registered for it, or else the compiled module at the version
it is recorded with.  A file without record gets one. -/
def loadRoute (s : Specifier) : StateM App (Except FetchError String) := do
  match (← get).registered.get? s with
  | some code => return .ok code
  | none =>
    modify ensureGraph
    let app ← get
    match app.graph.get? s with
    | some r => return app.surroundings.compiled app.port s r.version
    | none =>
      let g := app.graph.mark app.now s [] none
      set (app.withGraph g)
      return app.surroundings.compiled app.port s (g.versionOf s)

end Waymark.App
