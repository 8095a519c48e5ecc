import Waymark.Route.Files
/-!
# The route table

All routes of an app in the order they are tried.  The pages that wrap the app or
answer its failures come first and are never matched; the others are ordered by
the depth of their file and then by the number of parameters.  Routes that rank
alike keep the order their files were listed in.

## Main results

* `mem_routes_ofFiles` — the table holds exactly the files that have a pattern.
* `isMagic_eq_false_of_find?` — a request is never answered by a magic page.
-/

namespace Waymark

/-- A route: its file, the pattern it answers, and whether it wraps the routes below it. -/
structure Route where
  filename : String
  pattern : RoutePattern
  nesting : Bool
  deriving DecidableEq, Repr

namespace Route

/-- The path of the page that wraps the app. -/
def layoutPath : String := "/_app"

/-- The path of the page for requests without a route. -/
def notFoundPath : String := "/_404"

/-- The path of the page for errors. -/
def errorPath : String := "/_error"

/-- Whether the route is one of the pages that are never matched. -/
def isMagic (r : Route) : Bool :=
  r.pattern.pathname ∈ [layoutPath, notFoundPath, errorPath]

/-- The rank in hundredths: a hundred for every segment of the file name and one for every
parameter.  Magic pages rank first. -/
def rank (r : Route) : Nat :=
  if r.isMagic then 0
  else
    100 * (Text.pieces '/' r.filename.toList).length +
      Text.countText ['/', ':'] r.pattern.pathname.toList

/-- The rank with two decimals. -/
def rankText (r : Route) : String :=
  let cents := r.rank % 100
  toString (r.rank / 100) ++ "." ++ (if cents < 10 then "0" else "") ++ toString cents

/-- Whether a route with the path wraps others, given the paths of all routes. -/
def nests (path : String) (all : List String) : Bool :=
  path = layoutPath ||
    (path ≠ "/" && !"/index".toList.isSuffixOf path.toList &&
      all.any fun p => p ≠ path && (path.toList ++ ['/']).isPrefixOf p.toList)

end Route

/-- The routes of an app, in the order they are tried. -/
structure RouteTable where
  routes : List Route
  deriving DecidableEq, Repr

namespace RouteTable

/-- The table without routes. -/
def empty : RouteTable := ⟨[]⟩

/-- The routes that files compile to, in the order of the files. -/
def compileAll (files : RouteFiles) (names : List String) : List Route :=
  names.filterMap fun name => (files.pattern? name).map fun pattern => ⟨name, pattern, false⟩

/-- The routes by rank. -/
def inOrder (routes : List Route) : List Route :=
  routes.mergeSort fun a b => a.rank ≤ b.rank

/-- The routes, each marked for whether it wraps others. -/
def markNesting (routes : List Route) : List Route :=
  let paths := routes.map (·.pattern.pathname)
  routes.map fun r => { r with nesting := Route.nests r.pattern.pathname paths }

/-- The table of the route files among `names`. -/
def ofFiles (files : RouteFiles) (names : List String) : RouteTable :=
  ⟨markNesting (inOrder (compileAll files names))⟩

/-- The routes of a table are the files that have a pattern. -/
theorem mem_routes_ofFiles {files : RouteFiles} {names : List String} {name : String} :
    (∃ r ∈ (ofFiles files names).routes, r.filename = name) ↔
      name ∈ names ∧ (files.pattern? name).isSome = true := by
  simp only [ofFiles, markNesting, inOrder, compileAll, List.mem_map, List.mem_mergeSort,
    List.mem_filterMap, Option.map_eq_some_iff, Option.isSome_iff_exists]
  constructor
  · rintro ⟨r, ⟨s, ⟨n, hn, p, hp, rfl⟩, rfl⟩, rfl⟩
    exact ⟨hn, p, hp⟩
  · rintro ⟨hn, p, hp⟩
    exact ⟨_, ⟨_, ⟨name, hn, p, hp, rfl⟩, rfl⟩, rfl⟩

/-- The number of routes. -/
def size (t : RouteTable) : Nat := t.routes.length

/-- The first route with a path. -/
def slot (t : RouteTable) (path : String) : Option Route :=
  t.routes.find? (·.pattern.pathname = path)

/-- Whether a file is a route of the table. -/
def containsFile (t : RouteTable) (name : String) : Bool :=
  t.routes.any (·.filename = name)

/-- The first route that fits a request, and what it binds. -/
def find? (t : RouteTable) (host : Option String) (pathname : String) :
    Option (Route × Dict String) :=
  t.routes.findSome? fun r =>
    if r.isMagic then none else (r.pattern.bind host pathname).map (r, ·)

/-- A magic page never answers a request. -/
theorem isMagic_eq_false_of_find? {t : RouteTable} {host : Option String} {pathname : String}
    {r : Route} {params : Dict String} (h : t.find? host pathname = some (r, params)) :
    r.isMagic = false := by
  obtain ⟨s, _, hs⟩ := List.exists_of_findSome?_eq_some h
  split at hs
  · simp at hs
  · rename_i hm
    simp only [Option.map_eq_some_iff, Prod.mk.injEq] at hs
    obtain ⟨_, _, rfl, _⟩ := hs
    simpa using hm

end RouteTable
end Waymark
