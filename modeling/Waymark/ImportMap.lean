import Waymark.Json.Fields
import Waymark.Json.Reader
import Waymark.Specifier
/-!
# Import maps

An import map gives bare specifiers their targets.  A table applies a key that is
the whole specifier, or else the longest key that ends in a slash and begins it.
Scopes are tables for the importers that begin with their key; the longest such
scope with a hit wins, and the general table comes last.

## Main results

* `resolve_of_scopes_eq_empty` — without scopes the importer does not matter.
* `resolveIn_of_get?` — an exact key wins.
-/

namespace Waymark

/-- Targets for specifiers, in general and below scopes. -/
structure ImportMap where
  imports : Dict String
  scopes : Dict (Dict String)

namespace ImportMap

/-- The map without entries. -/
def empty : ImportMap := ⟨Dict.empty, Dict.empty⟩

instance : Inhabited ImportMap := ⟨empty⟩

/-- The longer of two candidates; the later one if both are as long. -/
def longer {α : Type} (best : Option (String × α)) (next : String × α) : Option (String × α) :=
  match best with
  | none => some next
  | some (k, v) => if k.length ≤ next.1.length then some next else some (k, v)

/-- The longest entry of a list. -/
def longest {α : Type} (es : List (String × α)) : Option (String × α) :=
  es.foldl longer none

/-- What follows a key in a specifier that begins with it. -/
def afterKey? (key specifier : String) : Option String :=
  (List.isPrefixOf? key.toList specifier.toList).map String.ofList

/-- Whether a key applies to all specifiers that begin with it. -/
def isPrefixKey (key : String) : Bool := ['/'].isSuffixOf key.toList

/-- The target of a specifier in one table. -/
def resolveIn (table : Dict String) (specifier : String) : Option String :=
  match table.get? specifier with
  | some target => some target
  | none =>
    let candidates := table.entries.filterMap fun (key, target) =>
      if isPrefixKey key then (afterKey? key specifier).map fun rest => (key, target ++ rest)
      else none
    (longest candidates).map (·.2)

/-- An entry for the whole specifier comes before all prefixes. -/
theorem resolveIn_of_get? {table : Dict String} {specifier target : String}
    (h : table.get? specifier = some target) : resolveIn table specifier = some target := by
  simp [resolveIn, h]

/-- The scopes that hold an importer, longest first. -/
def scopesOf (m : ImportMap) (importer : String) : List (String × Dict String) :=
  (m.scopes.entries.filter fun (scope, _) => scope.toList.isPrefixOf importer.toList).mergeSort
    fun a b => b.1.length ≤ a.1.length

/-- The target of a specifier as imported from `importer`. -/
def resolve (m : ImportMap) (specifier : String) (importer : Option String) : Option String :=
  let tables := match importer with
    | some importer => (m.scopesOf importer).map (·.2)
    | none => []
  (tables ++ [m.imports]).findSome? (resolveIn · specifier)

/-- Without scopes it makes no difference which module imports. -/
theorem resolve_of_scopes_eq_empty {m : ImportMap} (h : m.scopes.entries = [])
    (specifier : String) (importer : Option String) :
    m.resolve specifier importer = resolveIn m.imports specifier := by
  have hnone (i : String) : m.scopesOf i = [] := by simp [scopesOf, h]
  have hlast : [m.imports].findSome? (resolveIn · specifier) = resolveIn m.imports specifier := by
    cases hr : resolveIn m.imports specifier <;> simp [hr]
  cases importer with
  | none => exact hlast
  | some i => rw [resolve, hnone]; exact hlast

/-- The map as JSON. -/
def toJson (m : ImportMap) : Json :=
  let table := Json.ofDict Json.string
  .object [("imports", table m.imports), ("scopes", Json.ofDict table m.scopes)]

/-- Reads a map.  Both tables may be left out. -/
def ofJson? (v : Json) : Option ImportMap := do
  let table := Json.dict? Json.string?
  match ← v.record? ["imports", "scopes"] with
  | [imports, scopes] =>
    let imports ← Json.orElse Dict.empty table imports
    let scopes ← Json.orElse Dict.empty (Json.dict? table) scopes
    return ⟨imports, scopes⟩
  | _ => none

/-- Reads the text of a map. -/
def parse (text : String) : Option ImportMap := (Json.parse text).bind ofJson?

end ImportMap
end Waymark
