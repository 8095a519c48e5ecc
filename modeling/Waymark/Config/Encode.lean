import Waymark.Config
import Waymark.Json.Access
/-!
# Writing configurations

The configuration of an app as JSON, with every setting spelled out, whether it was
given or not.

## Main results

* `toJson_routes_none` — an app without routes has `null` for them.
-/

namespace Waymark

/-- Where routes are looked for: the text of a pattern, or a directory. -/
def RoutesConfig.toJson : RoutesConfig → Json
  | .glob pattern => pattern
  | .dir base exts host => .object [("dir", base), ("exts", exts), ("host", host)]

/-- The settings of atomic styles: the presets and whatever else was given. -/
def AtomicSettings.toJson (a : AtomicSettings) : Json :=
  .object (("presets", ↑a.presets) :: a.options.entries)

namespace AppConfig

/-- A configuration with all its settings. -/
def toJson (c : AppConfig) : Json :=
  .object [
    ("routes", (c.routes.map RoutesConfig.toJson).getD .null),
    ("build", .object [("target", c.build.target.name), ("platform", c.build.platform.name),
      ("output_dir", c.build.outputDir)]),
    ("module_server", .object [("hostname", c.moduleServer.hostname),
      ("port", c.moduleServer.port.toNat)]),
    ("server", .object [("hostname", c.server.hostname), ("port", c.server.port.toNat),
      ("tls_cert", c.server.tlsCert), ("tls_key", c.server.tlsKey)]),
    ("jsx", .object [("runtime", c.jsx.runtime.name), ("import_source", c.jsx.importSource)]),
    ("atomic_css", (c.atomicCss.map AtomicSettings.toJson).getD .null),
    ("framework_url", c.frameworkUrl),
    ("import_map", c.importMap),
    ("observability", .object [("log_level", c.logLevel)])]

theorem toJson_routes_none {c : AppConfig} (h : c.routes = none) :
    c.toJson.field? "routes" = some .null := by
  simp [toJson, h, Json.field?]

end AppConfig
end Waymark
