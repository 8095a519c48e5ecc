import Waymark.Disk
import Waymark.Graph.Snapshot
/-!
# Snapshot files

A graph is saved as a snapshot in the output directory and restored from the file.

## Main results

* `restore_of_readText_error` — a file that cannot be read is not restored.
-/

namespace Waymark

/-- Why a snapshot could not be restored. -/
inductive SnapshotError where
  | unreadable (cause : FileError)
  | malformed
  deriving DecidableEq, Repr

namespace Snapshot

/-- The path of the snapshot in a directory. -/
def pathIn (dir : String) : String := Disk.join dir fileName

/-- Saves the snapshot of a graph in a directory. -/
def save (g : Graph) (d : Disk) (dir : String) : Except FileError Disk :=
  d.writeText (pathIn dir) (ofGraph g).render

/-- Restores a snapshot from a file. -/
def restore (d : Disk) (path : String) : Except SnapshotError Snapshot :=
  match d.readText path with
  | .error cause => .error (.unreadable cause)
  | .ok text =>
    match parse text with
    | some s => .ok s
    | none => .error .malformed

theorem restore_of_readText_error {d : Disk} {path : String} {cause : FileError}
    (h : d.readText path = .error cause) : restore d path = .error (.unreadable cause) := by
  simp [restore, h]

end Snapshot
end Waymark
