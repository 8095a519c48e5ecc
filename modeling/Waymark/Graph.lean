import Waymark.Dict
import Waymark.Specifier
import Waymark.Version
/-!
# The dependency graph

A record for every module compiled so far: its version, the modules it depends on
in the order it imports them, and the style text found while compiling it.

One clock serves all records.  Whatever the wall clock shows, each mark and each
update takes a version above the last one, so that a changed module never keeps a
version under which it was served before.

## Main results

* `get?_mark_self`, `get?_mark_ne` — a mark sets one record and leaves the others alone.
* `update_of_none` — an update of an unknown module changes nothing.
* `mem_dependents` — dependents are the records that list the module.
-/

namespace Waymark

/-- What is known of a compiled module. -/
structure ModuleRecord where
  specifier : Specifier
  version : Version
  deps : List Specifier
  inlineCss : Option String
  deriving DecidableEq, Repr, Inhabited

namespace ModuleRecord

/-- Whether the record lists a module among its dependencies. -/
def dependsOn (r : ModuleRecord) (s : Specifier) : Bool := s ∈ r.deps

end ModuleRecord

/-- The records of all modules compiled so far. -/
structure Graph where
  records : Dict ModuleRecord
  /-- The version of modules without a record. -/
  initial : Version
  /-- The version handed out last. -/
  clock : Version

namespace Graph

/-! ## Making a graph -/

/-- A graph without records at a reading of the wall clock. -/
def new (now : Version) : Graph := ⟨Dict.empty, now, now⟩

/-- A graph with given records.  Its clock starts at the latest version it knows. -/
def ofRecords (now : Version) (records : List ModuleRecord) : Graph :=
  { records := Dict.ofList (records.map fun r => (r.specifier, r))
    initial := now
    clock := records.foldl (fun latest r => max latest r.version) now }

/-- The version after the clock at a reading of the wall clock. -/
def nextVersion (g : Graph) (now : Version) : Version := max now (g.clock + 1)

/-! ## Looking up -/

/-- The record of a module. -/
def get? (g : Graph) (s : Specifier) : Option ModuleRecord := g.records.get? s

/-- The version of a module, the initial one if it has no record. -/
def versionOf (g : Graph) (s : Specifier) : Version :=
  match g.get? s with
  | some r => r.version
  | none => g.initial

/-- All records in order of their specifiers. -/
def modules (g : Graph) : List ModuleRecord := g.records.values

/-- The number of records. -/
def size (g : Graph) : Nat := g.records.size

/-- The tokens of all local modules but one.  Remote modules get none, so that what is served for
them does not depend on local ones. -/
def versionsExcept (g : Graph) (s : Specifier) : Dict String :=
  if Specifier.isRemote s then Dict.empty
  else (g.records.filter fun k _ => k ≠ s && !Specifier.isRemote k).map fun _ r => r.version.token

/-! ## Writing -/

/-- Sets what is known of a module and moves its version on. -/
def mark (g : Graph) (now : Version) (s : Specifier) (deps : List Specifier)
    (inlineCss : Option String) : Graph :=
  let version := g.nextVersion now
  { g with records := g.records.insert s ⟨s, version, deps, inlineCss⟩, clock := version }

/-- Moves the version of a module on, if it has a record. -/
def update (g : Graph) (now : Version) (s : Specifier) : Graph :=
  match g.get? s with
  | none => g
  | some r =>
    let version := g.nextVersion now
    { g with records := g.records.insert s { r with version }, clock := version }

/-- A module that was marked has a record with the next version. -/
@[simp] theorem get?_mark_self (g : Graph) (now : Version) (s : Specifier)
    (deps : List Specifier) (css : Option String) :
    (g.mark now s deps css).get? s = some ⟨s, g.nextVersion now, deps, css⟩ := by
  simp [mark, get?]

/-- The records of all other modules are as they were. -/
theorem get?_mark_ne (g : Graph) (now : Version) {s t : Specifier} (deps : List Specifier)
    (css : Option String) (h : t ≠ s) : (g.mark now s deps css).get? t = g.get? t := by
  simp [mark, get?, Dict.get?_insert_ne _ _ h]

/-- A module that was never marked does not get a record from an update. -/
theorem update_of_none {g : Graph} {s : Specifier} (now : Version) (h : g.get? s = none) :
    g.update now s = g := by
  simp [update, h]

/-! ## Who depends on whom -/

/-- The modules that list a module among their dependencies, in order. -/
def dependents (g : Graph) (s : Specifier) : List Specifier :=
  (g.records.entries.filter fun e => e.2.dependsOn s).map (·.1)

theorem mem_dependents {g : Graph} {s t : Specifier} :
    t ∈ g.dependents s ↔ ∃ r, (t, r) ∈ g.records.entries ∧ s ∈ r.deps := by
  simp [dependents, ModuleRecord.dependsOn]

/-- The modules that have a record and are not among `seen`. -/
def unseen (g : Graph) (seen : List Specifier) : List Specifier :=
  g.records.keys.filter (· ∉ seen)

/-- The dependents of `x` that are neither `origin` nor among `seen`. -/
def freshDependents (g : Graph) (origin : Specifier) (seen : List Specifier) (x : Specifier) :
    List Specifier :=
  (g.dependents x).filter fun d => d ≠ origin && !seen.contains d

/-- Each time dependents are found there are fewer left to find. -/
theorem unseen_append_lt (g : Graph) (origin x : Specifier) (seen : List Specifier)
    (h : g.freshDependents origin seen x ≠ []) :
    (g.unseen (seen ++ g.freshDependents origin seen x)).length < (g.unseen seen).length := by
  obtain ⟨d, ds, hd⟩ := List.exists_cons_of_ne_nil h
  have hmem : d ∈ g.freshDependents origin seen x := by simp [hd]
  have hmem' := hmem
  simp only [freshDependents, List.mem_filter, dependents, List.mem_map, Bool.and_eq_true,
    decide_eq_true_eq, Bool.not_eq_true', List.contains_eq_mem, decide_eq_false_iff_not] at hmem'
  obtain ⟨⟨e, he, hed⟩, _, hseen⟩ := hmem'
  have hkey : d ∈ g.unseen seen := by
    simp only [unseen, List.mem_filter, Dict.keys, List.mem_map, decide_eq_true_eq]
    exact ⟨⟨e, he.1, hed⟩, hseen⟩
  have hsub : g.unseen (seen ++ g.freshDependents origin seen x) =
      (g.unseen seen).filter (· ∉ g.freshDependents origin seen x) := by
    simp only [unseen, List.filter_filter, List.mem_append, not_or]
    congr 1
    funext k
    simp [Bool.and_comm]
  rw [hsub]
  refine List.length_filter_lt_length_iff_exists.2 ⟨d, hkey, ?_⟩
  simp [hmem]

/-- Adds to `seen` all modules that depend, directly or not, on one in the queue. -/
def spread (g : Graph) (origin : Specifier) (seen : List Specifier) :
    List Specifier → List Specifier
  | [] => seen
  | x :: queue =>
    let fresh := g.freshDependents origin seen x
    spread g origin (seen ++ fresh) (queue ++ fresh)
termination_by queue => ((g.unseen seen).length, queue.length)
decreasing_by
  by_cases h : g.freshDependents origin seen x = []
  · simp only [h, List.append_nil]
    exact Prod.Lex.right _ (by simp)
  · exact Prod.Lex.left _ _ (unseen_append_lt g origin x seen h)

/-- The modules other than `s` that depend on it, directly or not, in order. -/
def affected (g : Graph) (s : Specifier) : List Specifier :=
  ordered (g.spread s [] [s])

end Graph
end Waymark
