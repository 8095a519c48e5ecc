import Waymark.Specifier
/-!
# Module requests

What a request to the module server asks for: a specifier, and whether a style
sheet is wanted as a script module.  The server reads the two parameters `module`
and `v` itself; all others of a remote module are passed on.

## Main results

* `asModule_parse_none` — a request without query wants no script module.
-/

namespace Waymark

/-- A request for a module. -/
structure ModuleRequest where
  specifier : Specifier
  asModule : Bool
  deriving DecidableEq, Repr

namespace ModuleRequest

/-- The key of a query pair. -/
def pairKey (pair : List Char) : List Char := Text.before '=' pair

/-- The pairs of a query that are not empty. -/
def queryPairs (query : List Char) : List (List Char) := Text.segments '&' query

/-- Whether a pair is read by the server itself and not passed on. -/
def isConsumed (pair : List Char) : Bool :=
  pairKey pair = "module".toList || pairKey pair = "v".toList

/-- Reads the path and the query of a request. -/
def parse (path : String) (query : Option String) : ModuleRequest :=
  let specifier := Specifier.ofRequestPath path
  let pairs := queryPairs ((query.map String.toList).getD [])
  let passedOn := pairs.filter (!isConsumed ·)
  { specifier :=
      if Specifier.isRemote specifier && !passedOn.isEmpty then
        specifier ++ String.ofList ('?' :: Text.joinPieces '&' passedOn)
      else specifier
    asModule := pairs.any fun pair => pairKey pair = "module".toList }

/-- Without a query a sheet is asked for as a sheet. -/
theorem asModule_parse_none (path : String) : (parse path none).asModule = false := by
  simp [parse, queryPairs, Text.segments, Text.pieces, Text.piecesWhere]

end ModuleRequest
end Waymark
