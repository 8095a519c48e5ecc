import Waymark.Bundle.Entry
import Waymark.Config
import Waymark.Disk
/-!
# Bundling jobs

What a bundler is asked to do: the program to start from, where the bundle goes, and
how it is written.
-/

namespace Waymark.Bundle

/-- A file whose exports every module of a bundle can use. -/
structure Injected where
  path : String
  text : String
  deriving DecidableEq, Repr

/-- What is to be bundled. -/
structure Job where
  /-- The program the bundle starts with. -/
  contents : String
  /-- The name the program is reported under. -/
  sourceName : String
  /-- The path the bundle is written to. -/
  outfile : String
  target : BuildTarget
  minify : Bool
  jsx : JsxRuntime
  inject : List Injected
  deriving DecidableEq, Repr

/-- The name of a bundle in the output directory. -/
def bundleFile : String := "server.js"

/-- The name that server programs are reported under. -/
def sourceName : String := "server.tsx"

/-- The job of an app's server program. -/
def Job.ofConfig (c : AppConfig) (isDev : Bool) (outDir contents : String)
    (inject : List Injected) : Job :=
  { contents, sourceName := Bundle.sourceName, outfile := Disk.join outDir bundleFile
    target := c.build.target
    minify := !isDev, jsx := c.jsx.runtime, inject }

end Waymark.Bundle
