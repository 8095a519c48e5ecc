import Waymark.Build
import Waymark.Listen
/-!
# Commands

What is done on the command line: listing the routes of an app, building it, and
starting it for development.  Each ends with the text it prints, or with the cause of
its failure; a failing command prints nothing.

## Main results

* `routesText_empty` — an app without routes says so.
* `length_padded` — how wide a padded column is.
* `build_of_listen`, `startDev_of_listen` — an app that cannot listen is neither built nor
  started.
-/

namespace Waymark

/-! ## Listening -/

/-- Lets an app listen where its configuration says.  It is known under the port it got, and its
graph is in being. -/
def App.listen (net : Listen.Network) (app : App) : Except ListenError App :=
  (Listen.listen net app.config.moduleServer.hostname app.config.moduleServer.port).map fun port =>
    { app with port }.ensureGraph

/-- What keeps its module server from listening is what an app fails with. -/
theorem App.listen_eq_error {net : Listen.Network} {app : App} {e : ListenError}
    (h : Listen.listen net app.config.moduleServer.hostname app.config.moduleServer.port =
      .error e) :
    app.listen net = .error e := by
  rw [App.listen, h]
  rfl

namespace Console

/-- What is asked for on the command line, with the directory of the app. -/
inductive Task where
  | build (dir : String)
  /-- Serves the app while its files are watched, with a companion beside it. -/
  | dev (dir : String) (companion : List String)
  | routes (dir : String)
  deriving DecidableEq, Repr

/-- The environment variable that asks for development. -/
def modeVariable : String := "ROUTEKIT_ENV"

/-- Whether the value of that variable asks for development. -/
def isDevelopment (mode : Option String) : Bool := mode = some "development"

/-- The directory that arguments name: the present one, if they name none. -/
def directory? : List String → Option String
  | [] => some "."
  | [dir] => some dir
  | _ => none

/-- The task that arguments stand for.  What follows `--` is the companion. -/
def Task.parse? : List String → Option Task
  | "build" :: args => (directory? args).map .build
  | "routes" :: args => (directory? args).map .routes
  | "dev" :: args =>
    (directory? (args.takeWhile (· ≠ "--"))).map fun dir =>
      .dev dir ((args.dropWhile (· ≠ "--")).drop 1)
  | _ => none

/-- How to ask. -/
def usage : String := "Usage: routekit <build|dev|routes> [DIR] [-- COMPANION...]\n"

/-- Why a command failed. -/
inductive Failure where
  | load (cause : App.LoadError)
  | listen (cause : ListenError)
  | build (cause : BuildError)
  /-- The companion could not be started. -/
  | companion (command : App.Command)

/-- The wording of a failure. -/
def Failure.message : Failure → String
  | .load (.config cause) => cause.message
  | .load (.routes cause) => cause.message
  | .listen cause => cause.message
  | .build cause => cause.message
  | .companion command => "Failed to start " ++ command.program

/-! ## Listing routes -/

/-- A text with blanks after it, as many as it is shorter than a column. -/
def padded (width : Nat) (s : String) : String :=
  s ++ String.ofList (List.replicate (width - s.length) ' ')

/-- A padded text is as long as its column, or as itself where it is longer. -/
theorem length_padded (width : Nat) (s : String) :
    (padded width s).length = max width s.length := by
  simp only [padded, String.length_append, String.length_ofList, List.length_replicate]
  omega

/-- The line of a route: the host it is for, its path, its file, and whether it wraps others. -/
def routeLine (r : Route) : String :=
  padded 8 (r.pattern.host.getD "*") ++ " " ++ padded 32 r.pattern.pathname ++ " " ++ r.filename ++
    (if r.nesting then " (nesting)" else "") ++ "\n"

/-- The listing of a route table. -/
def routesText (t : RouteTable) : String :=
  if t.routes = [] then "No routes configured\n" else String.join (t.routes.map routeLine)

theorem routesText_empty {t : RouteTable} (h : t.routes = []) :
    routesText t = "No routes configured\n" := by
  simp [routesText, h]

/-! ## Building -/

/-- What a build says when it is done. -/
def builtText (out : Build.Output) (outputDir : String) : String :=
  "Built " ++ toString out.routeFiles.length ++ " routes and " ++
    toString out.clientModules.length ++ " client modules into " ++ outputDir ++ "\n"

/-- Builds an app while its modules are served.  The app is what the build leaves behind. -/
def build (net : Listen.Network) (app : App) : Except Failure String × App :=
  match app.listen net with
  | .error e => (.error (.listen e), app)
  | .ok app =>
    let (result, run) := Build.run Build.copyingBundler (Build.detectEntry app.disk) app
    match result with
    | .ok out => (.ok (builtText out run.app.config.build.outputDir), run.app)
    | .error e => (.error (.build e), run.app)

/-- Without a port for the module server nothing is built, and the app stays as it is. -/
theorem build_of_listen {net : Listen.Network} {app : App} {e : ListenError}
    (h : Listen.listen net app.config.moduleServer.hostname app.config.moduleServer.port =
      .error e) :
    build net app = (.error (.listen e), app) := by
  simp [build, App.listen_eq_error h]

/-! ## Development -/

/-- Starts an app for development: it listens, and its companion runs.  `spawn` tells whether a
command could be started. -/
def startDev (net : Listen.Network) (spawn : App.Command → Bool) (companion : List String)
    (app : App) : Except Failure App :=
  match app.listen net with
  | .error e => .error (.listen e)
  | .ok app =>
    match companion with
    | [] => .ok app
    | program :: args =>
      let command := app.companion program args
      if spawn command then .ok app else .error (.companion command)

/-- Without a port for the module server no companion is started. -/
theorem startDev_of_listen {net : Listen.Network} {app : App} {e : ListenError}
    (h : Listen.listen net app.config.moduleServer.hostname app.config.moduleServer.port =
      .error e)
    (spawn : App.Command → Bool) (companion : List String) :
    startDev net spawn companion app = .error (.listen e) := by
  simp [startDev, App.listen_eq_error h]

end Console
end Waymark
