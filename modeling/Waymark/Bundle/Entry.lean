import Waymark.Graph.Snapshot
import Waymark.Jsx
/-!
# The server program

The program a server bundle starts with.  It restores the dependency graph from
its snapshot, registers every route, and then starts the app's own server or the
framework's.  Every text that comes from outside stands in it as a JSON string, so
none of them can end a line or a string.
-/

namespace Waymark.Bundle

/-- The server a bundle starts. -/
inductive ServerEntry where
  /-- The app's own, by its specifier. -/
  | custom (path : Specifier)
  /-- The framework's, without additions. -/
  | standard
  deriving DecidableEq, Repr

namespace ServerEntry

/-- Files that hold an app's own server, in the order they are looked for. -/
def fileNames : List String := ["server.tsx", "server.ts", "server.jsx", "server.js"]

/-- Whether the server is written with JSX. -/
def isJsx : ServerEntry → Bool
  | .custom path => ".jsx".toList.isSuffixOf path.toList || ".tsx".toList.isSuffixOf path.toList
  | .standard => false

end ServerEntry

/-- A route file and the names it exports. -/
structure RouteExports where
  filename : Specifier
  exports : List String
  deriving DecidableEq, Repr

/-- The URL of a module on the app's module server. -/
def moduleUrl (origin : String) (s : Specifier) : String :=
  origin ++ Specifier.encodePath (Specifier.urlPath s)

/-- An opening brace, for programs that are put together from parts. -/
def openBrace : String := String.singleton (Char.ofNat 0x7B)

/-- A closing brace. -/
def closeBrace : String := String.singleton (Char.ofNat 0x7D)

/-- Text between braces and spaces. -/
def inBraces (s : String) : String := openBrace ++ " " ++ s ++ " " ++ closeBrace

/-- An import of bindings. -/
def importLine (bindings url : String) : String :=
  "import " ++ bindings ++ " from " ++ Json.quote url ++ ";"

/-- The lines of the route at an index: its default export, its data, and its registration. -/
def routeLines (origin : String) (index : Nat) (r : RouteExports) : List String :=
  let i := toString index
  let url := moduleUrl origin r.filename
  [ if "default" ∈ r.exports then importLine ("_" ++ i) url
    else "const _" ++ i ++ " = undefined;",
    if "data" ∈ r.exports then importLine (inBraces ("data as $" ++ i)) url
    else "const $" ++ i ++ " = undefined;",
    "register(" ++ Json.quote r.filename ++ ", " ++
      inBraces ("default: _" ++ i ++ ", data: $" ++ i) ++ ");" ]

/-- The lines that start the server. -/
def serverLines (entry : ServerEntry) (frameworkUrl origin : String) : List String :=
  match entry with
  | .custom path => ["import " ++ Json.quote (moduleUrl origin path) ++ ";"]
  | .standard => [importLine (inBraces "serve") (frameworkUrl ++ "/server/mod.ts"), "serve();"]

/-- The lines of the server program. -/
def entryLines (routes : List RouteExports) (entry : ServerEntry)
    (frameworkUrl origin : String) : List String :=
  [ importLine (inBraces "DependencyGraph") (frameworkUrl ++ "/server/graph.ts"),
    importLine "graph" ("./" ++ Snapshot.fileName),
    "globalThis.serverDependencyGraph = new DependencyGraph(graph.modules);" ] ++
  (if routes.isEmpty then []
    else [importLine (inBraces "register") (frameworkUrl ++ "/server/routing.ts")]) ++
  (routes.mapIdx fun index r => routeLines origin index r).flatten ++
  serverLines entry frameworkUrl origin

/-- The server program. -/
def entryProgram (routes : List RouteExports) (entry : ServerEntry)
    (frameworkUrl origin : String) : String :=
  String.intercalate "\n" (entryLines routes entry frameworkUrl origin)

/-! ## JSX -/

/-- The file that brings the library into a JSX program. -/
def shimFile : String := "jsx-shim.js"

/-- The module that brings the library into a JSX program. -/
def shimText (runtime : JsxRuntime) (source : String) : String :=
  let bindings := match runtime with
    | .react => "React"
    | .preact => inBraces "h, Fragment"
  let exported := match runtime with
    | .react => inBraces "React"
    | .preact => inBraces "h, Fragment"
  importLine bindings source ++ "\nexport " ++ exported

end Waymark.Bundle
