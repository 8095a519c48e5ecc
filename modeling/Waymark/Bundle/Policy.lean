import Waymark.ImportMap
import Waymark.Remote
import Waymark.Graph.Snapshot
/-!
# What a server bundle holds

Which imports of the server program are put into its bundle and which are left to
be resolved when it runs.  Dynamic imports stay outside, and so do remote modules,
except those of the framework's server, of the UI library's binding, and of the
app's own module server.

## Main results

* `resolve_dynamic` — a dynamic import always stays outside.
* `loadUrl_of_ne` — only one module is loaded from another place than its own.
-/

namespace Waymark.Bundle

/-- How a module is imported. -/
inductive ImportKind where
  | entry
  | static
  | dynamic
  deriving DecidableEq, Repr

/-- Where a module comes from. -/
inductive Origin where
  | file
  | http
  deriving DecidableEq, Repr

/-- An import a bundler has met. -/
structure Request where
  path : String
  /-- The resolved path of the importing module. -/
  importer : Option String
  /-- Where the importing module comes from. -/
  origin : Origin
  kind : ImportKind

/-- What becomes of an import. -/
inductive Resolution where
  | external (path : String)
  | resolved (path : String) (origin : Origin)
  deriving DecidableEq, Repr

/-- The languages a bundler reads. -/
inductive Language where
  | js
  | ts
  | jsx
  | tsx
  deriving DecidableEq, Repr

namespace Language

/-- The name of a language. -/
def name : Language → String
  | .js => "js"
  | .ts => "ts"
  | .jsx => "jsx"
  | .tsx => "tsx"

/-- The language of an extension. -/
def ofExtension? (ext : String) : Option Language :=
  match ext with
  | "js" => some .js
  | "mjs" => some .js
  | "ts" => some .ts
  | "mts" => some .ts
  | "jsx" => some .jsx
  | "tsx" => some .tsx
  | _ => none

/-- The language of a content type. -/
def ofContentType? (type : String) : Option Language :=
  ([("application/javascript", Language.js), ("application/typescript", .ts), ("text/jsx", .jsx),
    ("text/tsx", .tsx)].find? fun (start, _) => start.toList.isPrefixOf type.toList).map (·.2)

/-- The language of a fetched module.  Its extension counts before its content type. -/
def sniff (path : String) (contentType : Option String) : Language :=
  (((Specifier.extension path).bind ofExtension?).or (contentType.bind ofContentType?)).getD .js

end Language

/-- A module as a bundler reads it. -/
structure Loaded where
  contents : String
  language : Language
  deriving DecidableEq, Repr

/-- What a bundler asks while it meets imports: what becomes of each, and what the modules are
that it is to put into the bundle.  A module that is not loaded is left to the bundler. -/
structure Plugin (m : Type → Type) where
  resolve : Request → Resolution
  load : String → Origin → m (Option Loaded)

/-- What decides over imports. -/
structure Policy where
  frameworkUrl : String
  uiBindingUrl : String
  /-- The origin of the app's own module server. -/
  modulesOrigin : String
  importMap : ImportMap

namespace Policy

/-- The module that starts the framework's server. -/
def serverUrl (p : Policy) : String := p.frameworkUrl ++ "/server/mod.ts"

/-- The module that compiles modules while the app is developed. -/
def transformerUrl (p : Policy) : String := p.frameworkUrl ++ "/server/transformer.ts"

/-- The module that serves compiled modules in production. -/
def distUrl (p : Policy) : String := p.frameworkUrl ++ "/server/serve_dist.ts"

/-- Whether a remote module belongs into the bundle. -/
def mustInline (p : Policy) (url : String) : Bool :=
  url = p.serverUrl || url = p.transformerUrl ||
    p.uiBindingUrl.toList.isPrefixOf url.toList ||
    (p.modulesOrigin ++ "/").toList.isPrefixOf url.toList

/-- The URL a module is loaded from.  The compiler is replaced by its production twin. -/
def loadUrl (p : Policy) (url : String) : String :=
  if url = p.transformerUrl then p.distUrl else url

/-- Only the compiler is loaded from another URL than its own. -/
theorem loadUrl_of_ne {p : Policy} {url : String} (h : url ≠ p.transformerUrl) :
    p.loadUrl url = url := by
  simp [loadUrl, h]

/-- The path an import means: mapped, without the scheme of files, without fragment. -/
def mappedPath (p : Policy) (r : Request) : String :=
  let mapped := (p.importMap.resolve r.path r.importer).getD r.path
  let mapped :=
    if Specifier.isRemote mapped then mapped.toList
    else Text.dropCopies "file://".toList mapped.toList
  String.ofList (Text.before '#' mapped)

/-- A path as seen from a remote module; the path itself where there is no URL for it. -/
def hrefFrom (importer : Option String) (path : String) : String :=
  match importer.map Url.parse with
  | some (.ok base) =>
    match base.join path with
    | .ok url => toString url
    | .error _ => path
  | _ => path

/-- What becomes of an import. -/
def resolve (p : Policy) (r : Request) : Resolution :=
  let path := p.mappedPath r
  if r.kind = .dynamic then .external path
  else match r.origin with
    | .http =>
      let href := hrefFrom r.importer path
      if p.mustInline href then .resolved href .http else .external href
    | .file =>
      let remote := Specifier.isRemote ((p.importMap.resolve r.path r.importer).getD r.path)
      if remote then
        if p.mustInline path then .resolved path .http else .external path
      else if path = "./" ++ Snapshot.fileName then .external path
      else .resolved path .file

/-- A dynamic import stays outside, whatever it imports. -/
theorem resolve_dynamic {p : Policy} {r : Request} (h : r.kind = .dynamic) :
    p.resolve r = .external (p.mappedPath r) := by
  simp [resolve, h]

/-- The path of a URL; the text itself if it is none. -/
def urlPathOf (url : String) : String :=
  match Url.parse url with
  | .ok u => String.ofList u.path.toText
  | .error _ => url

/-- The language of the module loaded from a URL. -/
def languageOf (url : String) (content : RemoteText) : Language :=
  Language.sniff (urlPathOf url) content.contentType

/-- The policy as a plugin that gets remote modules by `get`. -/
def plugin {m : Type → Type} [Monad m] (p : Policy) (get : String → m RemoteText) : Plugin m where
  resolve := p.resolve
  load path
    | .file => return none
    | .http => do
      let content ← get (p.loadUrl path)
      return some ⟨content.text, languageOf (p.loadUrl path) content⟩

end Policy
end Waymark.Bundle
