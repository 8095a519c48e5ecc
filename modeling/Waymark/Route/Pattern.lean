import Waymark.Dict
import Waymark.Text.Lower
import Waymark.Text.Pieces
/-!
# Route patterns

The URL pattern a route answers: an optional host and a path of literal segments,
parameters `:name` and catch-alls `:name+`.  A parameter takes one segment, a
catch-all takes one or more and leaves one for every segment after it.

## Main results

* `matchSegments_literal`, `matchSegments_param` — how the first segment of a path is taken.
* `bind_host` — a match keeps the condition on the host.
-/

namespace Waymark

/-- The pattern a route file compiles to, as text. -/
structure RoutePattern where
  host : Option String
  pathname : String
  deriving DecidableEq, Repr

namespace RoutePattern

/-- A segment of a pattern. -/
inductive Segment where
  | literal (text : String)
  | param (name : String)
  | catchAll (name : String)
  deriving DecidableEq, Repr

/-- The segment that a piece of a path stands for. -/
def Segment.ofPiece (piece : List Char) : Segment :=
  match piece with
  | ':' :: name =>
    match Text.dropSuffix? ['+'] name with
    | some name => .catchAll (String.ofList name)
    | none => .param (String.ofList name)
  | _ => .literal (String.ofList piece)

/-- The segments of a path that are not empty. -/
def pathSegments (path : String) : List String :=
  (Text.segments '/' path.toList).map String.ofList

/-- The segments of a pattern. -/
def segments (p : RoutePattern) : List Segment :=
  (Text.segments '/' p.pathname.toList).map Segment.ofPiece

/-- Segments put together with slashes between them. -/
def joinSegments (parts : List String) : String :=
  String.ofList (Text.joinPieces '/' (parts.map String.toList))

/-- What the parts of a path bind.  A name that occurs twice keeps its last value. -/
def matchSegments : List Segment → List String → List (String × String) →
    Option (List (String × String))
  | [], [], bound => some bound
  | [], _ :: _, _ => none
  | .literal text :: segs, parts, bound =>
    match parts with
    | part :: parts => if part = text then matchSegments segs parts bound else none
    | [] => none
  | .param name :: segs, parts, bound =>
    match parts with
    | part :: parts => matchSegments segs parts (bound ++ [(name, part)])
    | [] => none
  | .catchAll name :: segs, parts, bound =>
    let taken := parts.length - segs.length
    if taken = 0 then none
    else matchSegments segs (parts.drop taken) (bound ++ [(name, joinSegments (parts.take taken))])

/-- A literal segment fits itself and binds nothing. -/
theorem matchSegments_literal (text : String) (segs : List Segment) (parts : List String)
    (bound : List (String × String)) :
    matchSegments (.literal text :: segs) (text :: parts) bound =
      matchSegments segs parts bound := by
  simp [matchSegments]

/-- A parameter fits any part and binds it. -/
theorem matchSegments_param (name part : String) (segs : List Segment) (parts : List String)
    (bound : List (String × String)) :
    matchSegments (.param name :: segs) (part :: parts) bound =
      matchSegments segs parts (bound ++ [(name, part)]) := by
  simp [matchSegments]

/-- A text in lower case. -/
def lowerText (s : String) : String := String.ofList (Text.lower s.toList)

/-- A host without its port, in lower case. -/
def hostName (host : String) : String :=
  lowerText (String.ofList (Text.before ':' host.toList))

/-- Whether a request's host fits the pattern.  A pattern without host fits any. -/
def fitsHost (p : RoutePattern) (host : Option String) : Bool :=
  match p.host with
  | none => true
  | some expected => host.any fun h => hostName h = lowerText expected

/-- The parameters a request binds, if it fits the pattern. -/
def bind (p : RoutePattern) (host : Option String) (pathname : String) :
    Option (Dict String) :=
  if p.fitsHost host then
    (matchSegments p.segments (pathSegments pathname) []).map Dict.ofList
  else none

/-- A pattern that fits a request fits its host. -/
theorem bind_host {p : RoutePattern} {host : Option String} {pathname : String}
    {params : Dict String} (h : p.bind host pathname = some params) :
    p.fitsHost host = true := by
  unfold bind at h
  split at h
  · assumption
  · simp at h

end RoutePattern
end Waymark
