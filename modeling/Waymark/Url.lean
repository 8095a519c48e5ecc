import Waymark.Url.Host
/-!
# URLs

A URL as its parts, its one written form, and how a text is read as a URL, on its
own or relative to another URL.  Reading follows the URL standard that browsers
follow, so that a link means here what it means to the browser that requests it.

## Main results

* `toText_eq` — the written form is the parts in order.
* `readPort_default` — the default port of a scheme is never kept.
-/

namespace Waymark

/-- The path of a URL: a text of its own, as in `mailto:a@b`, or segments below a root. -/
inductive UrlPath where
  | plain (text : List Char)
  | rooted (segments : List (List Char))
  deriving DecidableEq

/-- The parts of a URL, each in its written form. -/
structure Url where
  scheme : List Char
  username : List Char
  password : List Char
  host : Option (List Char)
  port : Option Nat
  path : UrlPath
  query : Option (List Char)
  fragment : Option (List Char)
  deriving DecidableEq

namespace UrlPath

/-- The written form of a path. -/
def toText : UrlPath → List Char
  | .plain text => text
  | .rooted segments => segments.flatMap ('/' :: ·)

end UrlPath

namespace Url

/-! ## Written form -/

/-- User and password, with the `@` after them; nothing when both are empty. -/
def credentials (u : Url) : List Char :=
  if u.username = [] ∧ u.password = [] then []
  else u.username ++ (if u.password = [] then [] else ':' :: u.password) ++ ['@']

/-- The host with what belongs to it.  Without a host, a path that begins with two slashes is
set off so that it does not read as a host. -/
def authority (u : Url) : List Char :=
  match u.host with
  | some host =>
    "//".toList ++ u.credentials ++ host ++ (match u.port with
      | some port => ':' :: decimal port
      | none => [])
  | none =>
    match u.path with
    | .rooted ([] :: _ :: _) => "/.".toList
    | _ => []

/-- The written form of a URL. -/
def toText (u : Url) : List Char :=
  u.scheme ++ ':' :: u.authority ++ u.path.toText ++
    (match u.query with | some q => '?' :: q | none => []) ++
    (match u.fragment with | some f => '#' :: f | none => [])

/-- The parts of a URL as they are written. -/
theorem toText_eq (u : Url) :
    u.toText = u.scheme ++ [':'] ++ u.authority ++ u.path.toText ++
      (u.query.map ('?' :: ·)).getD [] ++ (u.fragment.map ('#' :: ·)).getD [] := by
  unfold toText
  cases u.query <;> cases u.fragment <;> simp

instance : ToString Url where
  toString u := String.ofList u.toText

/-! ## Schemes -/

/-- Schemes with hosts, slashes and default ports of their own. -/
def isSpecial (scheme : List Char) : Bool :=
  scheme ∈ ["http", "https", "ws", "wss", "ftp", "file"].map String.toList

/-- The port a scheme uses when none is written. -/
def defaultPort (scheme : List Char) : Option Nat :=
  match String.ofList scheme with
  | "http" => some 80
  | "ws" => some 80
  | "https" => some 443
  | "wss" => some 443
  | "ftp" => some 21
  | _ => none

/-- The scheme of files. -/
def fileScheme : List Char := "file".toList

/-- Whether a character may stand in a scheme after its first letter. -/
def inScheme (c : Char) : Bool := c.isAlphanum || c ∈ ['+', '-', '.']

/-- The scheme that a text begins with, in lower case. -/
def schemeOf? (s : List Char) : Option (List Char) :=
  if s.head?.any Char.isAlpha && (s.dropWhile inScheme).head? = some ':' then
    some ((s.takeWhile inScheme).map Char.toLower)
  else none

/-! ## Which characters stay as they are in which part -/

/-- In a fragment. -/
def keepsInFragment (c : Char) : Bool :=
  !(Percent.isControl c || c ∈ [' ', '"', '<', '>', '`'])

/-- In a path. -/
def keepsInPath (c : Char) : Bool :=
  keepsInFragment c && !(c ∈ ['#', '?', '{', '}'])

/-- In a user name or password. -/
def keepsInUserinfo (c : Char) : Bool :=
  keepsInPath c && !(c ∈ ['/', ':', ';', '=', '@', '[', '\\', ']', '^', '|'])

/-- In a query. -/
def keepsInQuery (special : Bool) (c : Char) : Bool :=
  !(Percent.isControl c || c ∈ [' ', '"', '#', '<', '>'] || (special && c = '\''))

/-! ## Paths -/

/-- Whether a character separates segments. -/
def isSlash (special : Bool) (c : Char) : Bool := c = '/' || (special && c = '\\')

/-- Whether a segment names the directory itself. -/
def isSingleDot (s : List Char) : Bool :=
  s.map Char.toLower ∈ [".", "%2e"].map String.toList

/-- Whether a segment names the directory above. -/
def isDoubleDot (s : List Char) : Bool :=
  s.map Char.toLower ∈ ["..", ".%2e", "%2e.", "%2e%2e"].map String.toList

/-- Whether a segment is a drive letter, with a colon or with the bar that stands for it. -/
def isDriveLetter (s : List Char) : Bool :=
  match s with
  | [c, d] => c.isAlpha && (d = ':' || d = '|')
  | _ => false

/-- Whether a segment is a drive letter with its colon. -/
def isDrive (s : List Char) : Bool := isDriveLetter s && s.getLast? = some ':'

/-- Whether a directory is the root of a drive, which nothing leads out of. -/
def isDriveRoot (s : List Char) : Bool := isDriveLetter (s.takeWhile (· ≠ '\\'))

/-- Whether a character is passed over wherever it stands. -/
def isBreak (c : Char) : Bool := c = '\t' || c = '\n' || c = '\r'

/-- The text without tabs and line ends. -/
def dropBreaks (s : List Char) : List Char := s.filter (!isBreak ·)

/-- The directory above, the last segment being first.  In any scheme, the root of a drive is
above itself. -/
def climb : List (List Char) → List (List Char)
  | [] => []
  | s :: above => if isDriveRoot s then s :: above else above

/-- A drive letter with its colon that a tab or a line end sets off from the rest of its segment,
and this rest. -/
def brokenDrive? (piece : List Char) : Option (List Char × List Char) :=
  match piece.dropWhile isBreak with
  | [] => none
  | c :: s =>
    match s.dropWhile isBreak with
    | ':' :: d :: s =>
      if c.isAlpha && isBreak d && s.any (!isBreak ·) then some ([c, ':'], dropBreaks s) else none
    | _ => none

/-- A walk along a path. -/
structure Walk where
  /-- The segments so far, the last one first. -/
  passed : List (List Char)
  /-- Whether the first of them was read as the drive of a file. -/
  onDrive : Bool

/-- The walk that stands in a directory. -/
def Walk.start (directory : List (List Char)) : Walk := ⟨directory.reverse, false⟩

/-- The walk with one more segment. -/
def Walk.append (w : Walk) (segment : List Char) : Walk :=
  { w with passed := Percent.encodeWith keepsInPath segment :: w.passed }

/-- The walk with one more piece of a path; `last` tells that no slash follows it.  At the root of
the files a drive letter gets its colon, and one that is set off is a segment of its own. -/
def Walk.push (scheme : List Char) (w : Walk) (last : Bool) (piece : List Char) : Walk :=
  let segment := dropBreaks piece
  let tail := if last then [[]] else []
  let atRoot := scheme = fileScheme ∧ w.passed = []
  if isDoubleDot segment then { w with passed := tail ++ climb w.passed }
  else if isSingleDot segment then { w with passed := tail ++ w.passed }
  else if atRoot ∧ isDriveLetter segment then ⟨[segment.take 1 ++ [':']], true⟩
  else match brokenDrive? piece with
    | some (drive, rest) =>
      if atRoot then (w.append drive).append rest else w.append segment
    | none => w.append segment

/-- The walk with pieces pushed in turn. -/
def Walk.pushAll (scheme : List Char) (w : Walk) : List (List Char) → Walk
  | [] => w
  | [s] => w.push scheme true s
  | s :: t :: ss => (w.push scheme false s).pushAll scheme (t :: ss)

/-- The path of a walk.  A file path has no empty segments in front. -/
def Walk.toPath (scheme : List Char) (w : Walk) : UrlPath :=
  if scheme = fileScheme then
    match w.passed.reverse.dropWhile (· = []) with
    | [] => .rooted [[]]
    | segments => .rooted segments
  else .rooted w.passed.reverse

/-- The pieces of a path between its slashes. -/
def piecesOf (scheme text : List Char) : List (List Char) :=
  Text.piecesWhere (isSlash (isSpecial scheme)) text

/-- The walk along `text` from the directory `path`. -/
def walk (scheme : List Char) (path : List (List Char)) (text : List Char) : Walk :=
  (Walk.start path).pushAll scheme (piecesOf scheme text)

/-- The path that `text` leads to from the directory `path`. -/
def walkPath (scheme : List Char) (path : List (List Char)) (text : List Char) : UrlPath :=
  (walk scheme path text).toPath scheme

/-- The path that `text` leads to from the file `segments`.  The file is left behind, unless it
looks like a drive: it is then a directory at the root, and elsewhere the start of the first
segment of `text`. -/
def walkBeside (segments : List (List Char)) (text : List Char) : UrlPath :=
  match segments.getLast?.filter isDrive with
  | none => walkPath fileScheme segments.dropLast text
  | some drive =>
    match segments.dropLast, piecesOf fileScheme text with
    | directory@(_ :: _), piece :: pieces =>
      let segment := dropBreaks piece
      let (path, pieces) :=
        if isDoubleDot segment then (segments, pieces)
        else if isSingleDot segment then (segments, piece :: pieces)
        else (directory, (drive ++ segment) :: pieces)
      ((Walk.start path).pushAll fileScheme pieces).toPath fileScheme
    | _, _ => walkPath fileScheme segments text

/-! ## Query and fragment -/

/-- Cuts a text into the part before its query and fragment, and these. -/
def cutSuffixes (s : List Char) : List Char × Option (List Char) × Option (List Char) :=
  let (front, fragment) := match Text.cut '#' s with
    | some (front, fragment) => (front, some fragment)
    | none => (s, none)
  match Text.cut '?' front with
  | some (front, query) => (front, some query, fragment)
  | none => (front, none, fragment)

/-- The written form of a query. -/
def encodeQuery (scheme : List Char) (q : List Char) : List Char :=
  Percent.encodeWith (keepsInQuery (isSpecial scheme)) q

/-- The written form of a fragment. -/
def encodeFragment (f : List Char) : List Char := Percent.encodeWith keepsInFragment f

/-! ## Hosts and ports -/

/-- The port at the start of a text, and what follows it.  The default port is left out. -/
def readPort (scheme : List Char) (s : List Char) : Except UrlError (Option Nat × List Char) :=
  let digits := s.takeWhile Char.isDigit
  let rest := s.dropWhile Char.isDigit
  let port := (readNumber? 10 digits).getD 0
  if digits ≠ [] ∧ 65535 < port then .error .invalidPort
  else match rest with
    | c :: _ =>
      if c = '/' ∨ c = '\\' then keep digits port rest else .error .invalidPort
    | [] => keep digits port rest
where
  keep (digits : List Char) (port : Nat) (rest : List Char) :
      Except UrlError (Option Nat × List Char) :=
    if digits = [] ∨ defaultPort scheme = some port then .ok (none, rest)
    else .ok (some port, rest)

/-- A port that is kept is not the one of its scheme. -/
theorem readPort_keep_default {scheme digits s rest : List Char} {port p : Nat}
    (h : readPort.keep scheme digits port s = .ok (some p, rest)) :
    defaultPort scheme ≠ some p := by
  unfold readPort.keep at h
  split at h
  · simp at h
  · rename_i hne
    simp only [not_or] at hne
    simp only [Except.ok.injEq, Prod.mk.injEq, Option.some.injEq] at h
    exact h.1 ▸ hne.2

/-- A port that is read is not the one of its scheme. -/
theorem readPort_default {scheme s rest : List Char} {p : Nat}
    (h : readPort scheme s = .ok (some p, rest)) : defaultPort scheme ≠ some p := by
  unfold readPort at h
  dsimp only at h
  split at h
  · simp at h
  · split at h
    · split at h
      · exact readPort_keep_default h
      · simp at h
    · exact readPort_keep_default h

/-- The host at the start of a text: it ends at a colon outside brackets. -/
def cutHost (inBrackets : Bool) : List Char → List Char × List Char
  | [] => ([], [])
  | c :: s =>
    if c = ':' && !inBrackets then ([], c :: s)
    else
      let inBrackets := if c = '[' then true else if c = ']' then false else inBrackets
      let (host, rest) := cutHost inBrackets s
      (c :: host, rest)

/-- An authority as it stands in a text. -/
structure Authority where
  /-- What stands before the last `@`, if there is one. -/
  userinfo : Option (List Char)
  host : List Char
  /-- The port with the colon in front, if there is one. -/
  afterHost : List Char

/-- Cuts an authority into its parts. -/
def cutAuthority (s : List Char) : Authority :=
  match Text.cutLast '@' s with
  | some (userinfo, hostport) => ⟨some userinfo, (cutHost false hostport).1, (cutHost false hostport).2⟩
  | none => ⟨none, (cutHost false s).1, (cutHost false s).2⟩

/-- User name and password, in written form. -/
def readUserinfo (s : List Char) : List Char × List Char :=
  let (user, password) := (Text.cut ':' s).getD (s, [])
  (Percent.encodeWith keepsInUserinfo user, Percent.encodeWith keepsInUserinfo password)

/-- The port of an authority, and what follows it. -/
def readAfterHost (scheme : List Char) :
    List Char → Except UrlError (Option Nat × List Char)
  | [] => .ok (none, [])
  | _ :: rest => readPort scheme rest

/-- The path after an authority. -/
def readPathAfter (scheme path : List Char) : UrlPath :=
  match path with
  | [] => if isSpecial scheme then .rooted [[]] else .rooted []
  | c :: rest => walkPath scheme [] (if isSlash (isSpecial scheme) c then rest else c :: rest)

/-- The URL with a cut authority and what stands after it. -/
def readParts (scheme : List Char) (a : Authority) (path : List Char)
    (query fragment : Option (List Char)) : Except UrlError Url :=
  let (username, password) := readUserinfo (a.userinfo.getD [])
  let readHostOf := if isSpecial scheme then readHost else readPlainHost
  if isSpecial scheme ∧ a.host = [] then .error .emptyHost
  else do
    let host ← readHostOf a.host
    if host = [] ∧ a.afterHost ≠ [] then .error .emptyHost
    else do
      let (port, afterPort) ← readAfterHost scheme a.afterHost
      if host = [] ∧ (username ≠ [] ∨ password ≠ []) then .error .emptyHost
      else
        .ok { scheme, username, password, host := some host, port
              path := readPathAfter scheme (afterPort ++ path), query, fragment }

/-- Reads what stands after the two slashes of a scheme that is not `file`. -/
def readAuthority (scheme : List Char) (s : List Char) (query fragment : Option (List Char)) :
    Except UrlError Url :=
  let authority := s.takeWhile fun c => !isSlash (isSpecial scheme) c
  let path := s.dropWhile fun c => !isSlash (isSpecial scheme) c
  let a := cutAuthority authority
  if a.userinfo = some [] ∧ a.host = [] ∧ a.afterHost = [] ∧
      (path ≠ [] ∨ query.isSome ∨ fragment.isSome) then .error .emptyHost
  else readParts scheme a path query fragment

/-! ## Reading a URL -/

/-- The base with another path, query and fragment. -/
def withSuffix (base : Url) (path : UrlPath) (query fragment : Option (List Char)) : Url :=
  { base with path, query, fragment }

/-- The segments of a path below a root. -/
def segmentsOf : UrlPath → List (List Char)
  | .rooted segments => segments
  | .plain _ => []

/-- Reads a text without scheme relative to `base`, which has a root and is no file. -/
def readRelative (base : Url) (front : List Char) (query fragment : Option (List Char)) :
    Except UrlError Url :=
  match front with
  | [] => .ok { base with query := query.or base.query, fragment }
  | c :: rest =>
    if isSlash true c then
      if rest.head?.any (isSlash true) then
        let after := match front with
          | '/' :: '/' :: after => after
          | _ => front.dropWhile (isSlash true)
        readAuthority base.scheme after query fragment
      else .ok (base.withSuffix (walkPath base.scheme [] rest) query fragment)
    else
      .ok (base.withSuffix (walkPath base.scheme (segmentsOf base.path).dropLast front) query
        fragment)

/-- A file URL without host. -/
def fileUrl (host : List Char) (path : UrlPath) (query fragment : Option (List Char)) : Url :=
  { scheme := fileScheme, username := [], password := [], host := some host, port := none, path,
    query, fragment }

/-- Whether a text begins with a drive letter that ends there or before a slash. -/
def startsWithDrive (s : List Char) : Bool :=
  isDriveLetter (s.takeWhile fun c => !isSlash true c)

/-- The text after its first character, tabs and line ends not counted. -/
def afterFirst (s : List Char) : List Char := (s.dropWhile isBreak).drop 1

/-- Reads what stands after two slashes of a file URL: a host with the path after it.  A drive
letter is no host, and a path on a drive has none. -/
def readFileHost (text : List Char) (query fragment : Option (List Char)) :
    Except UrlError Url := do
  let host := dropBreaks (text.takeWhile fun c => !isSlash true c)
  let path := text.dropWhile fun c => !isSlash true c
  if isDriveLetter host then return fileUrl [] (walkPath fileScheme [] text) query fragment
  if host = [] then return fileUrl [] (walkPath fileScheme [] path) query fragment
  let host ← readHost host
  let w := walk fileScheme [] (path.drop 1)
  let host := if host = "localhost".toList ∨ w.onDrive then [] else host
  return fileUrl host (w.toPath fileScheme) query fragment

/-- Reads what stands after one slash of a file URL: a path from the root of the base's drive and
host. -/
def readFilePath (base : Option Url) (text : List Char) (query fragment : Option (List Char)) :
    Url :=
  let onDrive := startsWithDrive (dropBreaks text)
  let drive := match base.map (segmentsOf ·.path) with
    | some (s :: _) => if isDrive s ∧ !onDrive then [s] else []
    | _ => []
  let host := if onDrive ∨ drive ≠ [] then [] else (base.bind (·.host)).getD []
  fileUrl host (walkPath fileScheme drive text) query fragment

/-- Reads what stands after `file:`, relative to a base that is a file, if there is one.  Tabs and
line ends still stand in the text. -/
def readFile (base : Option Url) (text : List Char) (query fragment : Option (List Char)) :
    Except UrlError Url :=
  match dropBreaks text, base with
  | [], some base => .ok { base with query := query.or base.query, fragment }
  | [], none => .ok (fileUrl [] (.rooted [[]]) query fragment)
  | c :: front, base =>
    if isSlash true c then
      if front.head?.any (isSlash true) then
        readFileHost (afterFirst (afterFirst text)) query fragment
      else .ok (readFilePath base (afterFirst text) query fragment)
    else match base with
      | some base =>
        if startsWithDrive (c :: front) then
          .ok (fileUrl [] (walkPath fileScheme [] text) query fragment)
        else .ok (base.withSuffix (walkBeside (segmentsOf base.path) text) query fragment)
      | none => .ok (fileUrl [] (walkPath fileScheme [] text) query fragment)

/-- Reads what stands after the colon of a scheme. -/
def readWithScheme (base : Option Url) (scheme text : List Char)
    (query fragment : Option (List Char)) : Except UrlError Url :=
  let front := dropBreaks text
  if scheme = fileScheme then readFile (base.filter (·.scheme = fileScheme)) text query fragment
  else if isSpecial scheme then
    let after := front.dropWhile (isSlash true)
    match base.filter (·.scheme = scheme) with
    | some base =>
      if front.length < after.length + 2 then readRelative base front query fragment
      else readAuthority scheme after query fragment
    | none => readAuthority scheme after query fragment
  else match front with
    | '/' :: '/' :: after => readAuthority scheme after query fragment
    | '/' :: rest => .ok (bare scheme (walkPath scheme [] rest) query fragment)
    | _ =>
      .ok (bare scheme (.plain (Percent.encodeWith (fun c => !Percent.isControl c) front)) query
        fragment)
where
  /-- A URL without host. -/
  bare (scheme : List Char) (path : UrlPath) (query fragment : Option (List Char)) : Url :=
    { scheme, username := [], password := [], host := none, port := none, path, query, fragment }

/-- The text without controls and blanks at its ends. -/
def trim (s : List Char) : List Char :=
  Text.dropEndWhile (·.toNat ≤ 0x20) (s.dropWhile (·.toNat ≤ 0x20))

/-- Reads a text as a URL, relative to `base` if there is one.  Tabs and line ends are passed
over. -/
def read (base : Option Url) (text : List Char) : Except UrlError Url :=
  let (front, query, fragment) := cutSuffixes (trim text)
  let query := query.map dropBreaks
  let fragment := fragment.map fun f => encodeFragment (dropBreaks f)
  match schemeOf? (dropBreaks front), base with
  | some scheme, _ =>
    let rest := ((Text.cut ':' front).map (·.2)).getD []
    readWithScheme base scheme rest (query.map (encodeQuery scheme)) fragment
  | none, none => .error .relativeWithoutBase
  | none, some base =>
    let query := query.map (encodeQuery base.scheme)
    match base.path with
    | .plain _ =>
      if dropBreaks front = [] ∧ query = none ∧ fragment.isSome then .ok { base with fragment }
      else .error .relativeToRootless
    | .rooted _ =>
      if base.scheme = fileScheme then readFile (some base) front query fragment
      else readRelative base (dropBreaks front) query fragment

/-- Reads a text as a URL on its own. -/
def parse (text : String) : Except UrlError Url := read none text.toList

/-- Reads a text as a URL relative to another. -/
def join (base : Url) (text : String) : Except UrlError Url := read (some base) text.toList

end Url
end Waymark
