import Waymark.App.Watch
/-!
# Changes made to files

What the system tells of when files below the root of a running app are written,
replaced, renamed or removed, and what the app does about it.

A new file is told of twice: it is there, and then it has a content.  A file that is
put in the place of another one under its name only changes.  One that gets another name
is told of under the old name, under the new one, and once more under both.

## Main results

* `FileEdit.ne_created_of_present` — a file that is there is not told of as new.
* `FileEdit.eq_modified_of_rename` — nor is one that gets another name: it is told of as modified.
-/

namespace Waymark.App

/-- What is done to a file. -/
inductive FileEdit where
  | write (content : ByteArray)
  /-- Another file takes its place in one go. -/
  | replace (content : ByteArray)
  /-- It gets another name, in the place of the file that had it. -/
  | rename (target : List String)
  | remove

namespace FileEdit

/-- The path of the file with these names. -/
def pathIn (d : Disk) (names : List String) : String := d.pathOf (Disk.keyOf names)

/-- The disk after an edit. -/
def apply (d : Disk) (names : List String) : FileEdit → Disk
  | .write content => d.put names (.file content)
  | .replace content => d.put names (.file content)
  | .rename target => (d.renameFile (pathIn d names) (pathIn d target)).toOption.getD d
  | .remove => d.clear names true

/-- What the system tells of an edit. -/
def events (d : Disk) (names : List String) : FileEdit → List FileEvent
  | .write _ =>
    (if (d.find? names).isSome then [] else [⟨.create, [pathIn d names]⟩]) ++
      [⟨.modify .data, [pathIn d names]⟩]
  | .replace _ => [⟨.modify .name, [pathIn d names]⟩]
  | .rename target =>
    if (d.renameFile (pathIn d names) (pathIn d target)).toOption.isSome then
      [⟨.modify .name, [pathIn d names]⟩, ⟨.modify .name, [pathIn d target]⟩,
        ⟨.modify .name, [pathIn d names, pathIn d target]⟩]
    else []
  | .remove => if (d.find? names).isSome then [⟨.remove, [pathIn d names]⟩] else []

/-- The changes that count of an edit. -/
def changes (d : Disk) (names : List String) (e : FileEdit) : List (ChangeKind × String) :=
  (e.events d names).flatMap FileEvent.changes

variable {d : Disk} {names : List String} {change : ChangeKind × String}

/-- Whatever is done to a file that is there, it is not told of as new. -/
theorem ne_created_of_present {e : FileEdit} (hfile : (d.find? names).isSome = true)
    (h : change ∈ e.changes d names) : change.1 ≠ .created := by
  obtain ⟨event, hevent, hchange⟩ := List.mem_flatMap.1 h
  have hkind : event.kind ≠ .create := by
    unfold events at hevent
    rw [hfile] at hevent
    split at hevent
    · obtain rfl := List.mem_singleton.1 hevent
      nofun
    · obtain rfl := List.mem_singleton.1 hevent
      nofun
    · split at hevent
      · simp only [List.mem_cons, List.not_mem_nil, or_false] at hevent
        rcases hevent with rfl | rfl | rfl <;> nofun
      · nomatch hevent
    · obtain rfl := List.mem_singleton.1 hevent
      nofun
  intro hnew
  rw [FileEvent.mem_changes, hnew, ChangeKind.ofEvent?_eq_created_iff] at hchange
  exact hkind hchange.1

/-- A file that gets another name is told of as modified, under the old name and the new one. -/
theorem eq_modified_of_rename {target : List String}
    (h : change ∈ (rename target).changes d names) :
    change.1 = .modified ∧ (change.2 = pathIn d names ∨ change.2 = pathIn d target) := by
  obtain ⟨event, hevent, hchange⟩ := List.mem_flatMap.1 h
  rw [FileEvent.mem_changes] at hchange
  obtain ⟨hkind, hpath⟩ := hchange
  simp only [events] at hevent
  split at hevent
  · simp only [List.mem_cons, List.not_mem_nil, or_false] at hevent
    rcases hevent with rfl | rfl | rfl
    · exact ⟨(Option.some.inj hkind).symm, Or.inl (List.mem_singleton.1 hpath)⟩
    · exact ⟨(Option.some.inj hkind).symm, Or.inr (List.mem_singleton.1 hpath)⟩
    · refine ⟨(Option.some.inj hkind).symm, ?_⟩
      simpa using hpath
  · nomatch hevent

end FileEdit

/-- Reacts to changes of files, one after the other. -/
def handleAll (app : App) : List (ChangeKind × String) → App × List Change
  | [] => (app, [])
  | (kind, path) :: changes =>
    let (app, change) := app.handle kind path
    let (app, more) := app.handleAll changes
    (app, change.toList ++ more)

/-- Edits a file of a watched app. -/
def edit (app : App) (names : List String) (e : FileEdit) : App × List Change :=
  { app with disk := e.apply app.disk names }.handleAll (e.changes app.disk names)

end Waymark.App
