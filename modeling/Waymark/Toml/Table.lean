import Waymark.Json
/-!
# Tables in TOML

A document fills nested tables in three ways: a header opens a table, a doubled
header adds one to a list of tables, and a dotted key goes through tables that it
makes itself.  How a table came to be decides what may be added to it later.

## Main results

* `lookup_setField_self` — a field that is set is found.
-/

namespace Waymark.Toml

/-- How a table came to be. -/
inductive TableKind where
  /-- By a header of its own. -/
  | header
  /-- On the way to a table with a header. -/
  | implied
  /-- On the way of a dotted key. -/
  | dotted
  deriving DecidableEq, Repr

/-- What a name stands for. -/
inductive Node where
  | value (v : Json)
  | table (kind : TableKind) (fields : List (String × Node))
  | tables (items : List (List (String × Node)))

/-- The names of a table and what they stand for. -/
abbrev Fields := List (String × Node)

mutual

/-- A node as JSON. -/
def Node.toJson : Node → Json
  | .value v => v
  | .table _ fields => .object (fieldsToJson fields)
  | .tables items => .array (itemsToJson items)

/-- Fields as JSON. -/
def fieldsToJson : List (String × Node) → List (String × Json)
  | [] => []
  | (k, n) :: fs => (k, n.toJson) :: fieldsToJson fs

/-- Tables as JSON. -/
def itemsToJson : List (List (String × Node)) → List Json
  | [] => []
  | t :: ts => .object (fieldsToJson t) :: itemsToJson ts

end

/-- Sets a name, at its place or at the end. -/
def setField (k : String) (n : Node) : Fields → Fields
  | [] => [(k, n)]
  | (k', n') :: fs => if k = k' then (k, n) :: fs else (k', n') :: setField k n fs

/-- A field that was set is found. -/
theorem lookup_setField_self (k : String) (n : Node) (fs : Fields) :
    (setField k n fs).lookup k = some n := by
  induction fs with
  | nil => simp [setField]
  | cons f fs ih =>
    obtain ⟨k', n'⟩ := f
    simp only [setField]
    split
    · simp
    · rename_i h
      have : (k == k') = false := by simpa using h
      simp [List.lookup_cons, this, ih]

/-- Changes the table that a header path leads to, by way of the last table of a list. -/
def within (change : Fields → Option Fields) : List String → Fields → Option Fields
  | [], fields => change fields
  | k :: path, fields =>
    match fields.lookup k with
    | none => (within change path []).map fun t => setField k (.table .implied t) fields
    | some (.table kind t) =>
      (within change path t).map fun t => setField k (.table kind t) fields
    | some (.tables items) => do
      let t ← within change path (← items.getLast?)
      return setField k (.tables (items.dropLast ++ [t])) fields
    | some (.value _) => none

/-- Opens the table of a header by its last name. -/
def openTable (k : String) (fields : Fields) : Option Fields :=
  match fields.lookup k with
  | none => some (setField k (.table .header []) fields)
  | some (.table .implied t) => some (setField k (.table .header t) fields)
  | _ => none

/-- Adds a table to the list of a doubled header by its last name. -/
def addTable (k : String) (fields : Fields) : Option Fields :=
  match fields.lookup k with
  | none => some (setField k (.tables [[]]) fields)
  | some (.tables items) => some (setField k (.tables (items ++ [[]])) fields)
  | _ => none

/-- Changes the table of a header path, its last name given to `change`. -/
def atHeader (change : String → Fields → Option Fields) (path : List String) (fields : Fields) :
    Option Fields :=
  match path.getLast? with
  | some k => within (change k) path.dropLast fields
  | none => none

/-- Sets a value under a dotted key.  Its last table must be one that dotted keys made, or the one
that the key stands in (`mayEnd`). -/
def insertAt (v : Json) : Bool → List String → Fields → Option Fields
  | _, [], _ => none
  | mayEnd, [k], fields =>
    if mayEnd = true ∧ (fields.lookup k).isNone = true then some (setField k (.value v) fields)
    else none
  | _, k :: path, fields =>
    match fields.lookup k with
    | none => (insertAt v true path []).map fun t => setField k (.table .dotted t) fields
    | some (.table .dotted t) =>
      (insertAt v true path t).map fun t => setField k (.table .dotted t) fields
    | some (.table .implied t) =>
      (insertAt v false path t).map fun t => setField k (.table .implied t) fields
    | some (.table .header _) => none
    | some (.tables items) => do
      let t ← insertAt v false path (← items.getLast?)
      return setField k (.tables (items.dropLast ++ [t])) fields
    | some (.value _) => none

end Waymark.Toml
