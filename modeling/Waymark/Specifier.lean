import Waymark.Percent
import Waymark.Text.Pieces
/-!
# Module specifiers

A specifier names a module: a *local* one is written `./dir/file.ext` below the
app root, a *remote* one is an absolute `http://` or `https://` URL.  The module
server answers for local modules under their path and for remote modules under a
*mount*: the directory `-`, the host, and the path at that host.

This module holds what can be said of a specifier as text.  Where a remote
specifier is mounted depends on the parts of its URL and stands in
`Waymark.Mount`.

## Main results

* `graphKey_eq_self_of_isRemote` — a remote specifier is its own key.
* `toList_clean` — a clean path is a slash and the segments that survive, joined by slashes.
* `mem_cleanSegments` — no surviving segment is empty, `.` or `..`.
-/

namespace Waymark

/-- The name of a module. -/
abbrev Specifier := String

namespace Specifier

/-! ## Remote and local -/

/-- Whether a specifier is an absolute `http://` or `https://` URL. -/
def isRemote (s : Specifier) : Bool :=
  "https://".toList.isPrefixOf s.toList || "http://".toList.isPrefixOf s.toList

/-- The specifier without its query and fragment. -/
def stripQuery (s : Specifier) : String :=
  String.ofList (s.toList.takeWhile fun c => c ≠ '?' && c ≠ '#')

/-- The key a module is recorded under.  The query of a remote module selects what is fetched
and belongs to the key; that of a local module does not. -/
def graphKey (s : Specifier) : String :=
  if isRemote s then s else stripQuery s

/-- A remote module is recorded under its whole URL. -/
@[simp] theorem graphKey_eq_self_of_isRemote {s : Specifier} (h : isRemote s = true) :
    graphKey s = s := by
  simp [graphKey, h]

/-! ## Names and extensions -/

/-- The last segment of a path. -/
def basename (path : List Char) : List Char :=
  match Text.cutLast '/' path with
  | some (_, name) => name
  | none => path

/-- A file name cut at its last dot, unless that dot is its first character or there is none. -/
def cutExtension (name : List Char) : Option (List Char × List Char) :=
  match Text.cutLast '.' name with
  | some (stem, ext) => if stem = [] then none else some (stem, ext)
  | none => none

/-- The extension of the last segment, without the dot. -/
def extension (s : Specifier) : Option String :=
  (cutExtension (basename (stripQuery s).toList)).map fun (_, ext) => String.ofList ext

/-- A file name without its extension. -/
def trimExtension (name : String) : String :=
  match cutExtension name.toList with
  | some (stem, _) => String.ofList stem
  | none => name

/-- Extensions of the languages that are compiled to script. -/
def scriptExtensions : List String := ["js", "jsx", "ts", "tsx", "mjs", "mts"]

/-- Whether the extension is that of a script. -/
def isScript (s : Specifier) : Bool := (extension s).any (· ∈ scriptExtensions)

/-- Whether the extension is that of a style sheet. -/
def isStyle (s : Specifier) : Bool := extension s = some "css"

/-! ## Clean paths -/

/-- One step of cleaning, the segments kept so far being the last one first: empty and `.`
segments vanish, `..` takes the last one back. -/
def pushSegment (kept : List (List Char)) (segment : List Char) : List (List Char) :=
  if segment = [] ∨ segment = ['.'] then kept
  else if segment = ['.', '.'] then kept.tail
  else segment :: kept

/-- The segments of a path that survive cleaning.  Both slashes separate segments. -/
def cleanSegments (path : List Char) : List (List Char) :=
  ((Text.piecesWhere (fun c => c = '/' || c = '\\') path).foldl pushSegment []).reverse

/-- The path with one leading slash, no trailing one, and `.`, `..` and empty segments
resolved.  It never climbs above the root. -/
def clean (path : String) : String :=
  String.ofList ('/' :: Text.joinPieces '/' (cleanSegments path.toList))

@[simp] theorem toList_clean (path : String) :
    (clean path).toList = '/' :: Text.joinPieces '/' (cleanSegments path.toList) := by
  simp [clean]

/-- No segment that is pushed is empty or stands for a directory. -/
theorem mem_foldl_pushSegment {ps kept : List (List Char)} {a : List Char}
    (hkept : ∀ x ∈ kept, x ≠ [] ∧ x ≠ ['.'] ∧ x ≠ ['.', '.'])
    (h : a ∈ ps.foldl pushSegment kept) : a ≠ [] ∧ a ≠ ['.'] ∧ a ≠ ['.', '.'] := by
  induction ps generalizing kept with
  | nil => exact hkept a h
  | cons p ps ih =>
    refine ih ?_ h
    intro x hx
    unfold pushSegment at hx
    split at hx
    · exact hkept x hx
    · split at hx
      · exact hkept x (List.mem_of_mem_tail hx)
      · rename_i h₁ h₂
        simp only [List.mem_cons] at hx
        rcases hx with rfl | hx
        · simp only [not_or] at h₁
          exact ⟨h₁.1, h₁.2, h₂⟩
        · exact hkept x hx

/-- A clean path has no empty segment, and none that stands for a directory. -/
theorem mem_cleanSegments {path a : List Char} (h : a ∈ cleanSegments path) :
    a ≠ [] ∧ a ≠ ['.'] ∧ a ≠ ['.', '.'] :=
  mem_foldl_pushSegment (by simp) (List.mem_reverse.1 h)

/-! ## URL paths -/

/-- The URL path of a local specifier: its leading dot taken off, one slash in front. -/
def urlPath (s : Specifier) : String :=
  let rest := match s.toList with
    | '.' :: rest => rest
    | rest => rest
  match rest with
  | '/' :: _ => String.ofList rest
  | _ => String.ofList ('/' :: rest)

/-- Whether a character stands for itself in an encoded URL path.  A slash does, so that
segments stay segments; a percent sign does not, so that decoding gives the path back. -/
def keepsInPath (c : Char) : Bool :=
  !(Percent.isControl c || c ∈ [' ', '"', '#', '%', '<', '>', '?', '`', '{', '}'])

/-- A URL path with every character escaped that could not stand in one. -/
def encodePath (path : String) : String :=
  String.ofList (Percent.encodeWith keepsInPath path.toList)

/-- The text of an encoded URL path. -/
def decodePath (path : String) : String :=
  String.ofList (Percent.decodeLossy path.toList)

/-- A path relative to the root: every leading `./` of the specifier taken off. -/
def relativePath (s : Specifier) : String :=
  String.ofList (Text.dropCopies ['.', '/'] s.toList)

/-! ## Requests -/

/-- The marker of a plain `http` origin in a mounted host. -/
def plainMarker : List Char := "http_".toList

/-- The host and port of a mounted host segment: a final `_` and digits are the port. -/
def unmountHost (host : List Char) : List Char :=
  match Text.cutLast '_' host with
  | some (name, port) =>
    if port ≠ [] ∧ port.all Char.isDigit then name ++ ':' :: port else host
  | none => host

/-- The directory that remote modules are mounted in. -/
def mountPoint : List Char := ['/', '-', '/']

/-- The specifier a request path asks for.  A local path is decoded and cleaned; a mounted path
is kept as sent, since the remote server owns its encoding. -/
def ofRequestPath (path : String) : Specifier :=
  match List.isPrefixOf? mountPoint path.toList with
  | none => "." ++ clean (decodePath path)
  | some rest =>
    let (host, tail) := (Text.cut '/' rest).getD (rest, [])
    let (scheme, host) := match List.isPrefixOf? plainMarker host with
      | some host => ("http", host)
      | none => ("https", host)
    String.ofList (scheme.toList ++ "://".toList ++ unmountHost host ++ '/' :: tail)

end Specifier
end Waymark
