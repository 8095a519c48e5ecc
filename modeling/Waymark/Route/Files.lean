import Waymark.Route.Glob
import Waymark.Route.Pattern
import Waymark.Specifier
/-!
# Route files

Which files are routes, and which pattern each of them answers.  Route files are
given by a directory and extensions or by a glob; both compile to one matcher.

In a file name `[name]` and `$name` are parameters, `[...name]` is a catch-all, and
`index` stands for its directory.  Where hosts are told apart, a first segment
`@host` is the host.

## Main results

* `accepts_of_pattern?` — only a file that is accepted has a pattern.
* `segmentPattern_plain` — a segment without marks stands for itself.
-/

namespace Waymark

/-- Where route files are. -/
inductive RoutesConfig where
  | glob (pattern : String)
  | dir (dir : String) (extensions : List String) (host : Bool)
  deriving DecidableEq, Repr

/-- A glob that could not be read. -/
structure RouteError where
  pattern : String
  cause : GlobError
  deriving DecidableEq, Repr

/-- The wording of the error. -/
def RouteError.message (e : RouteError) : String :=
  "invalid route glob '" ++ e.pattern ++ "': error parsing glob '" ++ e.pattern ++ "': " ++
    e.cause.message

/-- How a route file is told from others. -/
inductive FileRule where
  | extensions (list : List String)
  | glob (tokens : List Glob.Token)

/-- A compiled routes configuration. -/
structure RouteFiles where
  /-- The directory that holds all route files. -/
  base : String
  rule : FileRule
  host : Bool

namespace RouteFiles

/-- The pattern a glob is read as: below the root, whether or not it was written so. -/
def rootedGlob (glob : String) : String :=
  "./" ++ String.ofList (Text.dropCopies ['.', '/'] (glob.toList.dropWhile (· = '/')))

/-- Compiles a configuration. -/
def compile (config : RoutesConfig) : Except RouteError RouteFiles :=
  match config with
  | .dir dir extensions host =>
    .ok { base := "." ++ Specifier.clean dir, rule := .extensions extensions, host }
  | .glob glob =>
    let pattern := rootedGlob glob
    match Glob.parse pattern.toList with
    | .ok tokens =>
      .ok { base := "." ++ Specifier.clean (String.ofList (Text.before '*' glob.toList))
            rule := .glob tokens
            host := false }
    | .error cause => .error ⟨pattern, cause⟩

/-- What follows the base in a file name, if it begins with it. -/
def afterBase? (r : RouteFiles) (file : String) : Option (List Char) :=
  List.isPrefixOf? r.base.toList file.toList

/-- Whether a file lies in the base directory. -/
def isBelow (r : RouteFiles) (file : String) : Bool :=
  match r.afterBase? file with
  | some rest => ['/'].isSuffixOf r.base.toList || ['/'].isPrefixOf rest
  | none => false

/-- Whether a file has the extension, which may be written with or without its dot. -/
def hasExtension (file ext : String) : Bool :=
  let ext := ext.toList
  (if ['.'].isPrefixOf ext then ext else '.' :: ext).isSuffixOf file.toList

/-- Whether a file is a route file. -/
def accepts (r : RouteFiles) (file : String) : Bool :=
  match r.rule with
  | .extensions list => r.isBelow file && list.any (hasExtension file)
  | .glob tokens => Glob.isMatch tokens (Text.Utf8.encode file.toList)

/-! ## From file name to pattern -/

/-- The start of a catch-all. -/
def catchAllMark : List Char := "[...".toList

/-- The pattern of one segment of a file name. -/
def segmentPattern (segment : List Char) : List Char :=
  if catchAllMark.isPrefixOf segment ∧ ']' ∈ segment ∧ 5 < segment.length then
    ':' :: Text.replaceFirst ']' ['+'] (segment.drop 4)
  else if ['['].isPrefixOf segment ∧ ']' ∈ segment ∧ 2 < segment.length then
    ':' :: Text.replaceFirst ']' [] (segment.drop 1)
  else if ['$'].isPrefixOf segment ∧ 1 < segment.length then
    ':' :: segment.drop 1
  else segment

/-- A name without a bracket or a dollar at its front is its own pattern. -/
theorem segmentPattern_plain {segment : List Char} (h₁ : segment.head? ≠ some '[')
    (h₂ : segment.head? ≠ some '$') : segmentPattern segment = segment := by
  cases segment with
  | nil => simp [segmentPattern, catchAllMark]
  | cons c s =>
    simp only [List.head?_cons, ne_eq, Option.some.injEq] at h₁ h₂
    have h₁' : ¬ '[' = c := fun h => h₁ h.symm
    have h₂' : ¬ '$' = c := fun h => h₂ h.symm
    simp [segmentPattern, catchAllMark, List.isPrefixOf, h₁', h₂']

/-- The last segment without its extension; `index` stands for the directory itself. -/
def closeSegments (segments : List (List Char)) : Option (List (List Char)) :=
  match segments.getLast? with
  | none => none
  | some name =>
    let stem := (Specifier.trimExtension (String.ofList name)).toList
    some (if stem = "index".toList then segments.dropLast else segments.dropLast ++ [stem])

/-- The pattern a route file answers; `none` if the file is no route. -/
def pattern? (r : RouteFiles) (file : String) : Option RoutePattern :=
  if r.accepts file then
    let rest := (r.afterBase? file).getD file.toList
    let segments := ((Text.segments '/' rest).filter (· ≠ ['.'])).map segmentPattern
    let (host, segments) := match segments with
      | ('@' :: host) :: s :: ss =>
        if r.host then (some (String.ofList host), s :: ss) else (none, segments)
      | _ => (none, segments)
    (closeSegments segments).map fun segments =>
      { host, pathname := String.ofList ('/' :: Text.joinPieces '/' segments) }
  else none

/-- Only files that are accepted have a pattern. -/
theorem accepts_of_pattern? {r : RouteFiles} {file : String} {p : RoutePattern}
    (h : r.pattern? file = some p) : r.accepts file = true := by
  unfold pattern? at h
  split at h
  · assumption
  · simp at h

end RouteFiles
end Waymark
