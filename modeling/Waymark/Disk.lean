import Waymark.Dict
import Waymark.Text.Pieces
/-!
# Files below the app root

The files and directories below one root, as a value, and the operations on them
with the causes they fail for.  Paths are absolute texts.  Of what lies outside the
root only the directories that lead to it are known, so nothing else is found there.

A path is walked name by name, as the operating system does: each name must be
looked up in a directory, `.` stays and `..` goes up.

## Main results

* `FileError.message` — the wording of every cause.
* `parent_slash` — a slash at the end of a path leads nowhere.
* `read_eq_error_of_dir` — a directory is never read as a file.
* `find?_put_self` — a file put in place is found there.
-/

namespace Waymark

/-- Why an operation on a file failed. -/
inductive FileError where
  | notFound
  | alreadyExists
  | notDirectory
  | isDirectory
  | nameTooLong
  | notText
  | nulInName
  deriving DecidableEq, Repr

/-- The wording of a cause. -/
def FileError.message : FileError → String
  | .notFound => "No such file or directory (os error 2)"
  | .alreadyExists => "File exists (os error 17)"
  | .notDirectory => "Not a directory (os error 20)"
  | .isDirectory => "Is a directory (os error 21)"
  | .nameTooLong => "File name too long (os error 36)"
  | .notText => "stream did not contain valid UTF-8"
  | .nulInName => "file name contained an unexpected NUL byte"

/-- A file with its octets, or a directory. -/
inductive DiskEntry where
  | file (content : ByteArray)
  | directory

/-- The files and directories below a root.  An entry is kept under its path relative to the root,
without slashes at the ends. -/
structure Disk where
  root : String
  entries : Dict DiskEntry

/-- Where a path leads: names below the root, or outside of it. -/
abbrev Place := Option (List String)

/-- Where a walk along a path is. -/
inductive Spot where
  /-- At the entry with these names below the root. -/
  | below (names : List String)
  /-- In a directory that leads to the root, with so many others in between. -/
  | above (between : Nat)
  deriving DecidableEq, Repr

/-- A directory that leads to the root is outside of it, whichever it is. -/
def Spot.place : Spot → Place
  | below names => some names
  | above _ => none

namespace Disk

/-! ## Paths -/

/-- A path seen from a directory.  A rooted path is taken as it is. -/
def join (base path : String) : String :=
  if ['/'].isPrefixOf path.toList then path
  else if ['/'].isSuffixOf base.toList then base ++ path
  else base ++ "/" ++ path

/-- The path of a specifier below the root. -/
def pathOf (d : Disk) (relative : String) : String := join d.root relative

/-- A path read from its end, without the slashes and the single dots there that lead nowhere. -/
def dropIdle : List Char → List Char
  | '/' :: s => dropIdle s
  | '.' :: '/' :: s => dropIdle s
  | s => s

/-- The path without its last name; `none` for a path without names. -/
def parent (path : String) : Option String :=
  match dropIdle path.toList.reverse with
  | [] => none
  | s =>
    let above := s.dropWhile (· ≠ '/')
    match above, dropIdle above with
    | [], _ => some ""
    | _, [] => some "/"
    | _, dir => some (String.ofList dir.reverse)

/-- The last name of a path; `none` if the path ends in no name but in dots. -/
def fileName? (path : String) : Option String :=
  let name := String.ofList ((dropIdle path.toList.reverse).takeWhile (· ≠ '/')).reverse
  if name = "" ∨ name = "." ∨ name = ".." then none else some name

theorem dropIdle_slash (s : List Char) : dropIdle ('/' :: s) = dropIdle s := by
  simp [dropIdle]

/-- A slash at the end of a path changes nothing of its parent. -/
theorem parent_slash (path : String) : parent (path ++ "/") = parent path := by
  simp [parent, dropIdle_slash]

/-- The longest path that the system takes, in octets. -/
def maxPathSize : Nat := 4095

/-- Why the system does not even look at a path, if it does not. -/
def refusal? (path : String) : Option FileError :=
  if '\x00' ∈ path.toList then some .nulInName
  else if maxPathSize < path.utf8ByteSize then some .nameTooLong
  else none

/-- The key of an entry. -/
def keyOf (names : List String) : String := "/".intercalate names

/-- The names of a key. -/
def namesOf (key : String) : List String :=
  (Text.segments '/' key.toList).map String.ofList

/-- The names of a path, relative to the root; `none` if the path does not begin with the
root. -/
def namesBelow (d : Disk) (path : String) : Option (List String) :=
  match List.isPrefixOf? d.root.toList path.toList with
  | none => none
  | some rest =>
    if rest = [] ∨ ['/'].isPrefixOf rest ∨ ['/'].isSuffixOf d.root.toList then
      some (namesOf (String.ofList rest))
    else none

/-- The names of the root itself, from the top of the file system. -/
def rootNames (d : Disk) : List String := namesOf d.root

/-- Where the walk along a path starts, and the names it goes through. -/
def entrance? (d : Disk) (path : String) : Option (Spot × List String) :=
  match d.namesBelow path with
  | some names => some (.below [], names)
  | none =>
    if ['/'].isPrefixOf path.toList then some (.above (d.rootNames.length - 1), namesOf path)
    else none

/-- Whether a path ends in a slash and so can only name a directory. -/
def wantsDirectory (path : String) : Bool := ['/'].isSuffixOf path.toList

/-! ## Looking up -/

/-- The entry below the root with these names. -/
def find? (d : Disk) (names : List String) : Option DiskEntry :=
  if names = [] then some .directory else d.entries.get? (keyOf names)

/-- The longest name a file can have, in octets. -/
def maxNameSize : Nat := 255

/-- The directory that a spot is in.  The top of the file system is in itself. -/
def up (d : Disk) : Spot → Spot
  | .below [] => if d.rootNames = [] then .below [] else .above 0
  | .below names => .below names.dropLast
  | .above n => if n + 1 < d.rootNames.length then .above (n + 1) else .above n

/-- The next directory on the way to the root. -/
def toRoot : Nat → Spot
  | 0 => .below []
  | n + 1 => .above n

/-- Looks a name up at a spot. -/
def step (d : Disk) (spot : Spot) (name : String) : Except FileError Spot :=
  match spot with
  | .above n =>
    if name = "." then .ok spot
    else if name = ".." then .ok (d.up spot)
    else if maxNameSize < name.utf8ByteSize then .error .nameTooLong
    else if d.rootNames.reverse[n]? = some name then .ok (toRoot n)
    else .error .notFound
  | .below names =>
    match d.find? names with
    | some .directory =>
      if name = "." then .ok spot
      else if name = ".." then .ok (d.up spot)
      else if maxNameSize < name.utf8ByteSize then .error .nameTooLong
      else if (d.find? (names ++ [name])).isSome then .ok (.below (names ++ [name]))
      else .error .notFound
    | some (.file _) => .error .notDirectory
    | none => .error .notFound

/-- Walks names from a spot. -/
def walk (d : Disk) (spot : Spot) (names : List String) : Except FileError Spot :=
  names.foldlM (step d) spot

/-- What a path names. -/
def lookup (d : Disk) (path : String) : Except FileError (Place × DiskEntry) :=
  match refusal? path, d.entrance? path with
  | some cause, _ => .error cause
  | none, none => .error .notFound
  | none, some (start, names) => do
    match ← d.walk start names with
    | .above _ => return (none, .directory)
    | .below names =>
      match d.find? names with
      | some (.file content) =>
        if wantsDirectory path then throw .notDirectory
        return (some names, .file content)
      | some .directory => return (some names, .directory)
      | none => throw .notFound

/-- Whether a path names a file. -/
def isFile (d : Disk) (path : String) : Bool :=
  match d.lookup path with
  | .ok (_, .file _) => true
  | _ => false

/-- Whether a path names a directory. -/
def isDirectory (d : Disk) (path : String) : Bool :=
  match d.lookup path with
  | .ok (_, .directory) => true
  | _ => false

/-- The octets of a file. -/
def read (d : Disk) (path : String) : Except FileError ByteArray :=
  match d.lookup path with
  | .ok (_, .file content) => .ok content
  | .ok (_, .directory) => .error .isDirectory
  | .error e => .error e

/-- A directory is not read. -/
theorem read_eq_error_of_dir {d : Disk} {path : String} (h : d.isDirectory path = true) :
    d.read path = .error .isDirectory := by
  unfold isDirectory at h
  unfold read
  split at h
  · rename_i heq
    rw [heq]
  · simp at h

/-- The text of a file. -/
def readText (d : Disk) (path : String) : Except FileError String := do
  match String.fromUTF8? (← d.read path) with
  | some text => return text
  | none => throw .notText

/-! ## Listing -/

/-- Whether names lie below others, at any depth. -/
def isBelow (names other : List String) : Bool := names ≠ other && other.isPrefixOf names

/-- Whether names come no later than others: by the first name in which they differ, a directory
before what is in it. -/
def namesLe : List String → List String → Bool
  | [], _ => true
  | _ :: _, [] => false
  | a :: as, b :: bs => a < b || (a = b && namesLe as bs)

/-- The files below a directory, entry by entry in the order of their names, each directory's
entries at its place. -/
def filesBelow (d : Disk) (names : List String) : List (List String) :=
  let files := d.entries.entries.filterMap fun (key, entry) =>
    match entry with
    | .file _ => if isBelow (namesOf key) names then some (namesOf key) else none
    | .directory => none
  files.mergeSort namesLe

/-! ## Changing -/

/-- The disk with the directories that lead to an entry. -/
def putParents (d : Disk) (names : List String) : Disk :=
  match d.find? names.dropLast with
  | some .directory => d
  | _ =>
    let parents := (List.range names.length).filterMap fun n =>
      if n = 0 then none else some (names.take n)
    { d with entries := parents.foldl (fun es p => es.insert (keyOf p) .directory) d.entries }

/-- Puts an entry in place, with the directories that lead to it. -/
def put (d : Disk) (names : List String) (entry : DiskEntry) : Disk :=
  let d := d.putParents names
  if names = [] then d else { d with entries := d.entries.insert (keyOf names) entry }

theorem find?_put_self {d : Disk} {names : List String} {entry : DiskEntry} (h : names ≠ []) :
    (d.put names entry).find? names = some entry := by
  simp [put, find?, h]

/-- Takes away all that lies below a directory, and with `whole` the entry itself. -/
def clear (d : Disk) (names : List String) (whole : Bool) : Disk :=
  { d with
    entries := d.entries.filter fun key _ =>
      !(isBelow (namesOf key) names || (whole && namesOf key = names)) }

/-- The place and name that a path would create: where it is put, and the entry already there. -/
def target (d : Disk) (path : String) :
    Except FileError (Option (List String) × Option DiskEntry) :=
  match refusal? path, d.entrance? path with
  | some cause, _ => .error cause
  | none, none => .error .notFound
  | none, some (start, names) =>
    match names.getLast? with
    | none => .ok (start.place, some .directory)
    | some name => do
      let parent ← d.walk start names.dropLast
      match d.step parent name, parent with
      | .ok (.below found), _ => return (some found, d.find? found)
      | .ok (.above _), _ => return (none, some .directory)
      | .error .notFound, .below parent => return (some (parent ++ [name]), none)
      | .error e, _ => throw e

/-- Writes a file, in place of one that is there. -/
def write (d : Disk) (path : String) (content : ByteArray) : Except FileError Disk := do
  match ← d.target path with
  | (_, some .directory) => throw .isDirectory
  | (some names, some (.file _)) =>
    if wantsDirectory path then throw .notDirectory
    return d.put names (.file content)
  | (some names, none) =>
    if wantsDirectory path then throw .isDirectory
    return d.put names (.file content)
  | (none, _) => throw .notFound

/-- Writes a file of text. -/
def writeText (d : Disk) (path text : String) : Except FileError Disk :=
  d.write path text.toUTF8

/-- Goes from a spot into the directory `name`, before the names `rest`; one that is not there is
made, but not for the sake of single dots alone.  `made` tells that one has been made before: a
file in the way is then met as the directory is made, and not on the way to another. -/
def enter (d : Disk) (made : Bool) (spot : Spot) (name : String) (rest : List String) :
    Except FileError (Disk × Bool × Spot) :=
  match d.step spot name, spot with
  | .ok (.above n), _ => .ok (d, made, .above n)
  | .ok (.below names), _ =>
    match d.find? names with
    | some .directory => .ok (d, made, .below names)
    | _ => .error (if made || rest.isEmpty then .alreadyExists else .notDirectory)
  | .error .notFound, .below names =>
    if !rest.isEmpty && rest.all (· = ".") then .error .notFound
    else
      let names := names ++ [name]
      .ok ({ d with entries := d.entries.insert (keyOf names) .directory }, true, .below names)
  | .error cause, _ => .error cause

/-- Goes through names from a spot, and makes the directories that are not there. -/
def enterAll (d : Disk) (made : Bool) (spot : Spot) : List String → Except FileError Disk
  | [] => .ok d
  | name :: names =>
    match d.enter made spot name names with
    | .ok (d, made, spot) => enterAll d made spot names
    | .error cause => .error cause

/-- Makes a directory and those that lead to it. -/
def ensureDirectory (d : Disk) (path : String) : Except FileError Disk :=
  match refusal? path, d.entrance? path with
  | some cause, _ => .error cause
  | none, none => .error .notFound
  | none, some (start, names) => d.enterAll false start names

theorem ensureDirectory_of_refusal {d : Disk} {path : String} {cause : FileError}
    (h : refusal? path = some cause) : d.ensureDirectory path = .error cause := by
  simp [ensureDirectory, h]

/-- Takes a file away. -/
def removeFile (d : Disk) (path : String) : Except FileError Disk := do
  match ← d.lookup path with
  | (some names, .file _) => return d.clear names true
  | (none, .file _) => throw .notFound
  | (_, .directory) => throw .isDirectory

/-- Gives a file another path, in the place of a file that has it. -/
def renameFile (d : Disk) (old new : String) : Except FileError Disk := do
  let content ← d.read old
  let d ← d.removeFile old
  d.write new content

/-- Empties a directory, or makes it if there is none.  A directory that leads to the root is
emptied of the root as well. -/
def resetDirectory (d : Disk) (path : String) : Except FileError Disk :=
  match d.lookup path with
  | .ok (some names, .directory) => .ok (d.clear names false)
  | .ok (none, .directory) => .ok { d with entries := Dict.empty }
  | .ok (_, .file _) => .error .notDirectory
  | .error e => if e = .notFound then d.ensureDirectory path else .error e

/-- How many files there are. -/
def fileCount (d : Disk) : Nat :=
  (d.entries.entries.filter fun e => match e.2 with | .file _ => true | .directory => false).length

end Disk
end Waymark
