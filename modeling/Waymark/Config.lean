import Waymark.Dict
import Waymark.Json
import Waymark.Jsx
import Waymark.Route.Files
/-!
# App configuration

The settings of an app, each with a default, and the rules a configuration must
meet before it is used.  All faults of a configuration are found at once.

## Main results

* `faults_default` — the defaults are without fault.
* `mem_faults_unsupported` — a platform that is not supported is always reported.
* `frameworkUrl_normalized_ne` — a framework URL of slashes alone is not taken for missing.
-/

namespace Waymark

/-! ## Settings -/

/-- The edition of the language that a server bundle is written in. -/
inductive BuildTarget where
  | es2015
  | es2016
  | es2017
  | es2018
  | es2019
  | es2020
  | es2021
  | es2022
  deriving DecidableEq, Repr

namespace BuildTarget

/-- All editions. -/
def all : List BuildTarget :=
  [es2015, es2016, es2017, es2018, es2019, es2020, es2021, es2022]

/-- The name of an edition. -/
def name : BuildTarget → String
  | .es2015 => "es2015"
  | .es2016 => "es2016"
  | .es2017 => "es2017"
  | .es2018 => "es2018"
  | .es2019 => "es2019"
  | .es2020 => "es2020"
  | .es2021 => "es2021"
  | .es2022 => "es2022"

/-- The edition of a name. -/
def ofName? (s : String) : Option BuildTarget := all.find? (·.name = s)

end BuildTarget

/-- The platform a server bundle is deployed to. -/
inductive Platform where
  | deno
  | cloudflare
  | vercel
  deriving DecidableEq, Repr

namespace Platform

/-- The name of a platform in the configuration. -/
def name : Platform → String
  | .deno => "deno"
  | .cloudflare => "cloudflare"
  | .vercel => "vercel"

/-- The name of a platform in messages. -/
def title : Platform → String
  | .deno => "Deno"
  | .cloudflare => "Cloudflare"
  | .vercel => "Vercel"

/-- The platform of a name. -/
def ofName? (s : String) : Option Platform := [deno, cloudflare, vercel].find? (·.name = s)

/-- Whether a bundle can be built for a platform. -/
def isSupported (p : Platform) : Bool := p = deno

end Platform

/-- How an app is built. -/
structure BuildSettings where
  target : BuildTarget := .es2020
  platform : Platform := .deno
  /-- The output directory, relative to the app root. -/
  outputDir : String := "dist"

/-- Where the module server listens. -/
structure ModuleServerSettings where
  hostname : String := "127.0.0.1"
  /-- The first port tried. -/
  port : UInt16 := 6060

/-- Settings of the app's own server. -/
structure ServerSettings where
  hostname : Option String := none
  port : UInt16 := 8080
  tlsCert : Option String := none
  tlsKey : Option String := none

/-- How JSX is compiled. -/
structure JsxSettings where
  runtime : JsxRuntime := .react
  /-- The module that provides the library. -/
  importSource : Option String := none

/-- Settings of the atomic style generator, most of which it alone understands. -/
structure AtomicSettings where
  presets : List String
  options : Dict Json

/-- Whether atomic styles are generated. -/
def AtomicSettings.isActive (s : AtomicSettings) : Bool := !s.presets.isEmpty

/-- The settings of an app. -/
structure AppConfig where
  routes : Option RoutesConfig := none
  build : BuildSettings := {}
  moduleServer : ModuleServerSettings := {}
  server : ServerSettings := {}
  jsx : JsxSettings := {}
  atomicCss : Option AtomicSettings := none
  /-- The URL below which the framework's modules are found. -/
  frameworkUrl : String := ""
  /-- The import map, relative to the app root. -/
  importMap : Option String := none
  logLevel : String := "info"

/-! ## Faults -/

/-- What is wrong with a configuration. -/
inductive ConfigFault where
  | unsupportedPlatform (p : Platform)
  | missingTlsCert
  | missingTlsKey
  | noRouteExtensions
  | invalidRoutes (e : RouteError)
  deriving DecidableEq, Repr

/-- The wording of a fault. -/
def ConfigFault.message : ConfigFault → String
  | .unsupportedPlatform p => "deploy to " ++ p.title ++ " is not supported yet"
  | .missingTlsCert =>
    "missing " ++ backquoted "tls_cert" ++ " option (required with " ++ backquoted "tls_key" ++ ")"
  | .missingTlsKey =>
    "missing " ++ backquoted "tls_key" ++ " option (required with " ++ backquoted "tls_cert" ++ ")"
  | .noRouteExtensions => "routes.exts must list at least one extension"
  | .invalidRoutes e => e.message
where
  /-- A name of a setting between grave accents. -/
  backquoted (s : String) : String :=
    let mark := String.singleton (Char.ofNat 0x60)
    mark ++ s ++ mark

namespace AppConfig

/-- The faults of the platform. -/
def platformFaults (c : AppConfig) : List ConfigFault :=
  if c.build.platform.isSupported then [] else [.unsupportedPlatform c.build.platform]

/-- The faults of the certificate and its key, which need one another. -/
def tlsFaults (c : AppConfig) : List ConfigFault :=
  match c.server.tlsCert, c.server.tlsKey with
  | none, some _ => [.missingTlsCert]
  | some _, none => [.missingTlsKey]
  | _, _ => []

/-- The faults of a routes configuration. -/
def routeFaults (routes : RoutesConfig) : List ConfigFault :=
  (match routes with
    | .dir _ [] _ => [.noRouteExtensions]
    | _ => []) ++
  match RouteFiles.compile routes with
  | .error e => [.invalidRoutes e]
  | .ok _ => []

/-- All faults of a configuration. -/
def faults (c : AppConfig) : List ConfigFault :=
  c.platformFaults ++ c.tlsFaults ++
    match c.routes with
    | some routes => routeFaults routes
    | none => []

/-- The default settings pass every check. -/
theorem faults_default : faults {} = [] := by rfl

/-- A platform that is not supported is a fault, whatever the other settings are. -/
theorem mem_faults_unsupported {c : AppConfig} (h : c.build.platform.isSupported = false) :
    .unsupportedPlatform c.build.platform ∈ c.faults := by
  simp [faults, platformFaults, h]

/-! ## Derived settings -/

/-- The framework that is used if none is configured. -/
def defaultFrameworkUrl : String := "https://deno.land/x/routekit@0.1.0"

/-- The configuration with a framework URL that has no slash at its end. -/
def normalized (c : AppConfig) : AppConfig :=
  let url := if c.frameworkUrl = "" then defaultFrameworkUrl else c.frameworkUrl
  { c with frameworkUrl := String.ofList (Text.dropEndWhile (· = '/') url.toList) }

/-- A framework URL that is set loses the slashes at its end, and nothing else. -/
theorem frameworkUrl_normalized_ne {c : AppConfig} (h : c.frameworkUrl ≠ "") :
    c.normalized.frameworkUrl =
      String.ofList (Text.dropEndWhile (· = '/') c.frameworkUrl.toList) := by
  simp [normalized, h]

/-- The URL below which the binding of the UI library is found. -/
def uiBindingUrl (c : AppConfig) : String :=
  c.frameworkUrl ++ "/framework/" ++ c.jsx.runtime.name ++ "/"

/-- The output directory relative to the app root, as a path. -/
def outputPath (c : AppConfig) : String := Specifier.relativePath c.build.outputDir

end AppConfig
end Waymark
