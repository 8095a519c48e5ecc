/-!
# JSX runtimes

The UI libraries that a server program with JSX can be written for.

## Main results

* `ofName?_name` — every library is found by its name.
-/

namespace Waymark

/-- The UI library a server program is written for. -/
inductive JsxRuntime where
  | react
  | preact
  deriving DecidableEq, Repr

namespace JsxRuntime

/-- The name of the library. -/
def name : JsxRuntime → String
  | .react => "react"
  | .preact => "preact"

/-- The library of a name. -/
def ofName? (s : String) : Option JsxRuntime := [react, preact].find? (·.name = s)

theorem ofName?_name (r : JsxRuntime) : ofName? r.name = some r := by
  cases r <;> decide

/-- The function that makes an element. -/
def factory : JsxRuntime → String
  | .react => "React.createElement"
  | .preact => "h"

/-- The component that groups elements. -/
def fragment : JsxRuntime → String
  | .react => "React.Fragment"
  | .preact => "Fragment"

end JsxRuntime
end Waymark
