import Waymark.ImportMap
import Waymark.Mount
import Waymark.Pipeline.Error
/-!
# Loaders

A loader turns a file that is neither script nor style sheet into script.  Of the
loaders of an app the first that takes a path loads it.

## Main results

* `accepts_of_find?` — the loader found takes the path.
-/

namespace Waymark

/-- What loaders are told about the app. -/
structure LoaderContext where
  isDev : Bool
  importMap : ImportMap

/-- What a loader makes of a file. -/
structure LoaderOutput where
  code : String
  /-- The language the code is written in; script if none is given. -/
  lang : Option String
  /-- The style text found in the file. -/
  inlineCss : Option String
  deriving DecidableEq, Repr

/-- A loader: the paths it takes, and what it makes of one. -/
structure Loader where
  accepts : String → Bool
  load : LoaderContext → String → Except CompileError LoaderOutput

namespace Loader

/-- The first loader that takes a path. -/
def find? (loaders : List Loader) (path : String) : Option Loader :=
  List.find? (·.accepts path) loaders

theorem accepts_of_find? {loaders : List Loader} {path : String} {l : Loader}
    (h : find? loaders path = some l) : l.accepts path = true := by
  simpa using List.find?_some h

/-- The path that loaders see for a specifier: the one the browser asks for, a local one without
its query. -/
def pathOf (s : Specifier) : String :=
  if Specifier.isRemote s then Specifier.serverPath s
  else Specifier.urlPath (Specifier.stripQuery s)

end Loader
end Waymark
