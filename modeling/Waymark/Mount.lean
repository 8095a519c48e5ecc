import Waymark.Specifier
import Waymark.Url
import Waymark.Version
/-!
# Where modules are mounted

The path under which the module server answers for a specifier, the request made
for it, and the file it is written to when the app is built.

## Main results

* `serverPath_of_not_isRemote` — a local module is mounted under its own path.
* `requestPath_of_isRemote` — the request for a remote module is its mount, unescaped.
-/

namespace Waymark.Specifier

/-- The host segment of a mount.  Plain `http` is marked, and a port follows an underscore. -/
def mountHost (u : Url) : List Char :=
  (if u.scheme = "http".toList then plainMarker else []) ++ u.host.getD [] ++
    (match u.port with
      | some port => '_' :: Url.decimal port
      | none => [])

/-- The mount of a URL: its host, its path without trailing slashes, and its query. -/
def mountOf (u : Url) : List Char :=
  mountPoint ++ mountHost u ++ Text.dropEndWhile (· = '/') u.path.toText ++
    (match u.query with
      | some query => '?' :: query
      | none => [])

/-- The path of a specifier on the module server, its query included.  A remote specifier that
is no URL is taken as it stands. -/
def serverPath (s : Specifier) : String :=
  if isRemote s then
    match Url.parse s with
    | .ok u => String.ofList (mountOf u)
    | .error _ => urlPath s
  else urlPath s

/-- A module of the app is served under its own path. -/
theorem serverPath_of_not_isRemote {s : Specifier} (h : isRemote s = false) :
    serverPath s = urlPath s := by
  simp [serverPath, h]

/-- The request URI of a specifier.  A local path is escaped, a mount already is. -/
def requestPath (s : Specifier) : String :=
  if isRemote s then serverPath s
  else match Text.cut '?' (urlPath s).toList with
    | some (path, query) =>
      encodePath (String.ofList path) ++ String.ofList ('?' :: query)
    | none => encodePath (urlPath s)

/-- The path of a mount is asked for as it is: it is escaped already. -/
theorem requestPath_of_isRemote {s : Specifier} (h : isRemote s = true) :
    requestPath s = serverPath s := by
  simp [requestPath, h]

/-- Whether a query asks for a style sheet as a script module. -/
def asksForModule (query : List Char) : Bool :=
  (Text.pieces '&' query).any fun pair =>
    pair = "module".toList || "module=".toList.isPrefixOf pair

/-- The file a compiled module is written to, relative to the output directory.  A remote module
and a style sheet wanted as a module end in `.js`, so that the name fits the content. -/
def savePath (s : Specifier) : String :=
  let (path, query) := (Text.cut '?' (serverPath s).toList).getD ((serverPath s).toList, [])
  let file := path.dropWhile (· = '/')
  let js := ".js".toList
  let wantsJs :=
    if isRemote s && !js.isSuffixOf file then true
    else extension (String.ofList path) = some "css" && asksForModule query
  String.ofList (if wantsJs then file ++ js else file)

/-- The URL of a module on a server of this machine, with the version in its query. -/
def versionedUrl (port : Nat) (s : Specifier) (v : Version) : String :=
  let path := if isRemote s then serverPath s else encodePath (urlPath s)
  let separator := if '?' ∈ path.toList then "&" else "?"
  "http://127.0.0.1:" ++ toString port ++ path ++ separator ++ "v=" ++ v.token

end Waymark.Specifier
