import Waymark.Config.Load
import Waymark.Pipeline
import Waymark.Response
import Waymark.Route.Scan
import Waymark.Uri
/-!
# Running apps

A loaded app: its configuration, compilers, route table and dependency graph, over
the files on a disk.  All that changes while the app runs is part of its value, and
what it does is a function from one value to the next.

The graph comes into being when it is first needed, with the reading of the clock
at that time as its initial version.

## Main results

* `graph?_graph` — a graph that is there is the one that is used.
* `installGraph_of_some` — a second graph is not installed.
* `isRouteFile_of_containsFile` — every route of the table is a route file.
-/

namespace Waymark

/-- What an app reaches outside of itself. -/
structure Surroundings where
  /-- The content at a URL. -/
  remote : String → Except FetchError RemoteText
  /-- Answers a request in place of the module server, if it wants to. -/
  hook : Uri → Option Response
  /-- The code of a module at a version, from the server at a port. -/
  compiled : UInt16 → Specifier → Version → Except FetchError String

/-- A running app. -/
structure App where
  surroundings : Surroundings
  pipeline : Pipeline
  disk : Disk
  config : AppConfig
  graph? : Option Graph
  routes : RouteTable
  /-- The port that fetches from this app are told by: the one it was configured with when it was
  loaded. -/
  homePort : UInt16
  /-- The port the module server is known under. -/
  port : UInt16
  /-- Bundled code of route files. -/
  registered : Dict String
  /-- The reading of the wall clock. -/
  now : Version
  /-- The requests that were made to the module server, in order. -/
  requests : List Uri
  /-- The URLs that were fetched, in order. -/
  fetched : List String

namespace App

/-! ## Loading -/

/-- Why an app could not be loaded. -/
inductive LoadError where
  | config (cause : ConfigError)
  | routes (cause : RouteError)

/-- An app with a given configuration. -/
def start (around : Surroundings) (pipeline : Pipeline) (d : Disk) (now : Version)
    (config : AppConfig) : Except RouteError App := do
  let routes ← RouteTable.load config.routes d
  return { surroundings := around, pipeline, disk := d, config, graph? := none, routes
           homePort := config.moduleServer.port, port := config.moduleServer.port
           registered := Dict.empty, now, requests := [], fetched := [] }

/-- The app on a disk.  Its compilers depend on its configuration and import map. -/
def load (around : Surroundings) (compilers : AppConfig → ImportMap → Pipeline) (d : Disk)
    (now : Version) : Except LoadError App :=
  match AppConfig.load d with
  | .error e => .error (.config e)
  | .ok config =>
    match ImportMap.load d config.importMap with
    | .error e => .error (.config e)
    | .ok map => (start around (compilers config map) d now config).mapError .routes

/-! ## The graph -/

/-- The graph, made now if there is none. -/
def graph (app : App) : Graph := app.graph?.getD (Graph.new app.now)

theorem graph?_graph {app : App} {g : Graph} (h : app.graph? = some g) : app.graph = g := by
  simp [graph, h]

/-- The app with a graph. -/
def withGraph (app : App) (g : Graph) : App := { app with graph? := some g }

/-- The app with its graph in being. -/
def ensureGraph (app : App) : App := app.withGraph app.graph

/-- Installs a graph, unless there is one. -/
def installGraph (app : App) (g : Graph) : Option App :=
  match app.graph? with
  | none => some (app.withGraph g)
  | some _ => none

/-- A graph that is in being is not replaced. -/
theorem installGraph_of_some {app : App} {present : Graph} (h : app.graph? = some present)
    (g : Graph) : app.installGraph g = none := by
  simp [installGraph, h]

/-! ## Routes -/

/-- Finds the route files again under the present configuration. -/
def refreshRoutes (app : App) : Except RouteError App :=
  (RouteTable.load app.config.routes app.disk).map fun routes => { app with routes }

/-- Whether a file is a route, or would be one. -/
def isRouteFile (app : App) (s : Specifier) : Bool :=
  app.routes.containsFile s ||
    match app.config.routes.map RouteFiles.compile with
    | some (.ok files) => files.accepts s
    | _ => false

theorem isRouteFile_of_containsFile {app : App} {s : Specifier}
    (h : app.routes.containsFile s = true) : app.isRouteFile s = true := by
  simp [isRouteFile, h]

/-! ## Ports and companions -/

/-- The origin the module server answers at. -/
def modulesOrigin (app : App) : String := "http://localhost:" ++ toString app.port.toNat

/-- The environment variable that tells a companion the port of the module server. -/
def portVariable : String := "ROUTEKIT_MODULES_PORT"

/-- A command that is run beside the app. -/
structure Command where
  program : String
  args : List String
  env : List (String × String)
  /-- The directory it is run in. -/
  dir : String
  deriving DecidableEq, Repr

/-- The command of a companion: it runs in the app root and is told the port. -/
def companion (app : App) (program : String) (args : List String) : Command :=
  ⟨program, args, [(portVariable, toString app.port.toNat)], app.disk.root⟩

end App
end Waymark
