import Waymark.Config
import Waymark.Json.Fields
/-!
# Reading a configuration

A configuration out of its JSON form.  Every setting may be left out, settings that
are not known are passed over, and a setting of the wrong type is an error.

A group of settings is an object, or an array with the settings in order.

## Main results

* `ofJson?_empty` — nothing configured is the default.
-/

namespace Waymark

namespace Config

/-- The values of a group of settings, each given or not.  Of an array, what goes beyond the group
is passed over. -/
def group? (names : List String) (v : Json) : Option (List (Option Json)) :=
  match v with
  | .array items => (Json.array (items.take names.length)).record? names
  | v => v.record? names

/-- A named choice: its name, or an object with that one name and an empty value. -/
def choice? {α : Type} (ofName? : String → Option α) (v : Json) : Option α :=
  match v with
  | .string s => ofName? s
  | .object [(s, .object [])] => ofName? s
  | .object [(s, .array [])] => ofName? s
  | .object [(s, .null)] => ofName? s
  | _ => none

/-- A port: an integer of 16 bits. -/
def port? (v : Json) : Option UInt16 :=
  match v with
  | .integer (.ofNat n) => if n < UInt16.size then some (UInt16.ofNat n) else none
  | _ => none

/-- A truth value. -/
def boolean? (v : Json) : Option Bool :=
  match v with
  | .boolean b => some b
  | _ => none

/-- A route directory out of its settings, of which only the last may be left out. -/
def routeDir? : List (Option Json) → Option RoutesConfig
  | [some dir, some extensions, host] => do
    return .dir (← dir.string?) (← extensions.strings?) (← Json.orElse false boolean? host)
  | _ => none

/-- Where route files are: a glob, or a directory. -/
def routes? (v : Json) : Option (Option RoutesConfig) :=
  match v with
  | .null => some none
  | .string s => some (some (.glob s))
  | v => ((v.record? ["dir", "exts", "host"]).bind routeDir?).map some

/-- Settings of the build. -/
def build? (v : Json) : Option BuildSettings := do
  let base : BuildSettings := {}
  match ← group? ["target", "platform", "output_dir"] v with
  | [target, platform, outputDir] =>
    return { target := ← Json.orElse base.target (choice? BuildTarget.ofName?) target
             platform := ← Json.orElse base.platform (choice? Platform.ofName?) platform
             outputDir := ← Json.orElse base.outputDir Json.string? outputDir }
  | _ => none

/-- Settings of the module server. -/
def moduleServer? (v : Json) : Option ModuleServerSettings := do
  let base : ModuleServerSettings := {}
  match ← group? ["hostname", "port"] v with
  | [hostname, port] =>
    return { hostname := ← Json.orElse base.hostname Json.string? hostname
             port := ← Json.orElse base.port port? port }
  | _ => none

/-- Settings of the app's own server. -/
def server? (v : Json) : Option ServerSettings := do
  let base : ServerSettings := {}
  match ← group? ["hostname", "port", "tls_cert", "tls_key"] v with
  | [hostname, port, tlsCert, tlsKey] =>
    return { hostname := ← Json.orElse base.hostname Json.optionalString? hostname
             port := ← Json.orElse base.port port? port
             tlsCert := ← Json.orElse base.tlsCert Json.optionalString? tlsCert
             tlsKey := ← Json.orElse base.tlsKey Json.optionalString? tlsKey }
  | _ => none

/-- Settings of JSX. -/
def jsx? (v : Json) : Option JsxSettings := do
  let base : JsxSettings := {}
  match ← group? ["runtime", "import_source"] v with
  | [runtime, importSource] =>
    return { runtime := ← Json.orElse base.runtime (choice? JsxRuntime.ofName?) runtime
             importSource := ← Json.orElse base.importSource Json.optionalString? importSource }
  | _ => none

/-- Settings of the atomic style generator: presets, and all else as it stands. -/
def atomicCss? (v : Json) : Option (Option AtomicSettings) :=
  match v with
  | .null => some none
  | .object fields => do
    let presets ← Json.orElse [] Json.strings? (← Json.uniqueField? fields "presets")
    return some ⟨presets, Dict.ofList (fields.filter (·.1 ≠ "presets"))⟩
  | _ => none

/-- The log level among the settings of observability. -/
def logLevel? (v : Json) : Option String := do
  match ← group? ["log_level"] v with
  | [level] => Json.orElse "info" Json.string? level
  | _ => none

/-- The names of all settings, in order. -/
def names : List String :=
  ["routes", "build", "module_server", "server", "jsx", "atomic_css", "framework_url",
    "import_map", "observability"]

end Config

open Config in
/-- Reads a configuration. -/
def AppConfig.ofJson? (v : Json) : Option AppConfig := do
  let base : AppConfig := {}
  match ← group? names v with
  | [routes, build, moduleServer, server, jsx, atomicCss, frameworkUrl, importMap, logging] =>
    return { routes := ← Json.orElse base.routes routes? routes
             build := ← Json.orElse base.build build? build
             moduleServer := ← Json.orElse base.moduleServer moduleServer? moduleServer
             server := ← Json.orElse base.server server? server
             jsx := ← Json.orElse base.jsx jsx? jsx
             atomicCss := ← Json.orElse base.atomicCss atomicCss? atomicCss
             frameworkUrl := ← Json.orElse base.frameworkUrl Json.string? frameworkUrl
             importMap := ← Json.orElse base.importMap Json.optionalString? importMap
             logLevel := ← Json.orElse base.logLevel logLevel? logging }
  | _ => none

/-- A file without settings gives the default ones. -/
theorem AppConfig.ofJson?_empty : AppConfig.ofJson? (.object []) = some {} := by rfl

end Waymark
