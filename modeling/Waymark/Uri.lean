import Waymark.Text.Pieces
/-!
# Request URIs

The URI of a request: a path with an optional query, on its own or after a scheme
and an authority.  What a URI may be made of is checked strictly, except that
characters outside ASCII pass as they are; a fragment is dropped unread.

## Main results

* `toText_rooted` — a path with its query is written as it was read.
-/

namespace Waymark

/-- Why a text is no URI. -/
inductive UriError where
  | empty
  | tooLong
  | invalidCharacter
  | invalidAuthority
  | invalidFormat
  | schemeTooLong
  deriving DecidableEq, Repr

/-- The wording of a cause. -/
def UriError.message : UriError → String
  | .empty => "empty string"
  | .tooLong => "uri too long"
  | .invalidCharacter => "invalid uri character"
  | .invalidAuthority => "invalid authority"
  | .invalidFormat => "invalid format"
  | .schemeTooLong => "scheme too long"

/-- The URI of a request. -/
structure Uri where
  /-- The scheme, and the separator after it. -/
  scheme : String
  authority : String
  path : String
  query : Option String
  deriving DecidableEq, Repr

namespace Uri

/-- The text of a URI. -/
def toText (u : Uri) : String :=
  u.scheme ++ u.authority ++ u.path ++ (match u.query with | some q => "?" ++ q | none => "")

theorem toText_rooted (path : String) : toText ⟨"", "", path, none⟩ = path := by
  simp [toText]

/-! ## Path and query -/

/-- Whether a character may stand in a path. -/
def inPath (c : Char) : Bool :=
  let n := c.toNat
  n = 0x21 || n = 0x22 || (0x24 ≤ n && n ≤ 0x3B) || n = 0x3D || (0x40 ≤ n && n ≤ 0x5F) ||
    (0x61 ≤ n && n ≠ 0x7F)

/-- Whether a character may stand in a query. -/
def inQuery (c : Char) : Bool :=
  let n := c.toNat
  n = 0x21 || (0x24 ≤ n && n ≤ 0x3B) || n = 0x3D || (0x3F ≤ n && n ≠ 0x7F)

/-- Reads a path with its query.  An empty path is `whenEmpty`. -/
def readPath (scheme authority whenEmpty : String) (s : List Char) : Except UriError Uri :=
  let s := Text.before '#' s
  let (path, query) := match Text.cut '?' s with
    | some (path, query) => (path, some query)
    | none => (s, none)
  if path.all inPath && (query.getD []).all inQuery then
    .ok { scheme, authority
          path := if path = [] then whenEmpty else String.ofList path
          query := query.map String.ofList }
  else .error .invalidCharacter

/-! ## Scheme and authority -/

/-- The longest scheme. -/
def maxScheme : Nat := 64

/-- Whether a character may stand in a scheme. -/
def inScheme (c : Char) : Bool := c.isAlphanum || c ∈ ['+', '-', '.', '~']

/-- The separator after a scheme. -/
def separator : List Char := "://".toList

/-- A scheme with its separator, and what follows; `none` if there is no scheme. -/
def cutScheme (s : List Char) : Except UriError (Option (String × List Char)) :=
  let name := s.takeWhile inScheme
  match List.isPrefixOf? separator (s.dropWhile inScheme) with
  | none => .ok none
  | some rest =>
    let low := String.ofList (name.map Char.toLower)
    if low = "http" ∨ low = "https" then .ok (some (low ++ "://", rest))
    else if maxScheme < name.length then .error .schemeTooLong
    else .ok (some (String.ofList name ++ "://", rest))

/-- Whether a character may stand in an authority, apart from those with a meaning there. -/
def inAuthority (c : Char) : Bool :=
  c.isAlphanum ||
    c ∈ ['!', '$', '&', '\'', '(', ')', '*', '+', ',', '-', '.', ';', '=', '_', '~']

/-- What has been seen of an authority. -/
structure Seen where
  colons : Nat := 0
  opened : Bool := false
  closed : Bool := false
  percent : Bool := false
  /-- Whether the last character was an `@`. -/
  endsInAt : Bool := false

/-- The most colons that an address in brackets can hold. -/
def maxColons : Nat := 8

/-- Takes one more character of an authority. -/
def Seen.push (v : Seen) (c : Char) : Except UriError Seen :=
  let v := { v with endsInAt := c = '@' }
  if c = ':' then
    if maxColons ≤ v.colons then .error .invalidAuthority
    else .ok { v with colons := v.colons + 1 }
  else if c = '[' then
    if v.percent || v.opened then .error .invalidAuthority else .ok { v with opened := true }
  else if c = ']' then
    if !v.opened || v.closed then .error .invalidAuthority
    else .ok { v with closed := true, colons := 0, percent := false }
  else if c = '@' then .ok { v with colons := 0, percent := false }
  else if c = '%' then .ok { v with percent := true }
  else if inAuthority c then .ok v
  else .error .invalidCharacter

/-- Whether an authority may end after what has been seen. -/
def Seen.isWhole (v : Seen) : Bool :=
  v.opened = v.closed && v.colons ≤ 1 && !v.endsInAt && !v.percent

/-- Whether a character ends an authority. -/
def endsAuthority (c : Char) : Bool := c = '/' || c = '?' || c = '#'

/-- An authority, and what follows it. -/
def cutAuthority (s : List Char) : Except UriError (List Char × List Char) := do
  let name := s.takeWhile (!endsAuthority ·)
  let seen ← name.foldlM Seen.push {}
  if seen.isWhole then return (name, s.dropWhile (!endsAuthority ·)) else throw .invalidAuthority

/-! ## Whole URIs -/

/-- The longest URI, in octets. -/
def maxSize : Nat := 65534

/-- Reads a URI that does not begin with a slash. -/
def readFull (s : List Char) : Except UriError Uri := do
  match ← cutScheme s with
  | none =>
    let (authority, rest) ← cutAuthority s
    if rest = [] then return ⟨"", String.ofList authority, "", none⟩ else throw .invalidFormat
  | some (scheme, rest) =>
    let (authority, rest) ← cutAuthority rest
    if authority = [] then throw .invalidFormat
    else readPath scheme (String.ofList authority) "/" rest

/-- Reads a URI. -/
def parse (text : String) : Except UriError Uri :=
  if maxSize < text.utf8ByteSize then .error .tooLong
  else match text.toList with
    | [] => .error .empty
    | ['*'] => .ok ⟨"", "", "*", none⟩
    | '/' :: s => readPath "" "" "/" ('/' :: s)
    | s => readFull s

end Uri
end Waymark
