import Waymark.Dict
import Waymark.Json
/-!
# Reading records out of JSON

A record is written as an object with named fields or as an array with the values
in order.  Fields that are not asked for are passed over; a field that is asked
for may occur only once.
-/

namespace Waymark.Json

/-- The field of that name: `some none` when there is none, `none` when it occurs twice. -/
def uniqueField? (fields : List (String × Json)) (name : String) : Option (Option Json) :=
  match fields.filter (·.1 = name) with
  | [] => some none
  | [(_, v)] => some (some v)
  | _ => none

/-- The values of the named fields of a record, each present or not. -/
def record? (v : Json) (names : List String) : Option (List (Option Json)) :=
  match v with
  | .object fields => names.mapM (uniqueField? fields)
  | .array items =>
    if items.length ≤ names.length then
      some (items.map some ++ List.replicate (names.length - items.length) none)
    else none
  | _ => none

/-- A field that may be left out. -/
def orElse {α : Type} (default : α) (f : Json → Option α) : Option Json → Option α
  | none => some default
  | some v => f v

/-- A list of texts. -/
def strings? (v : Json) : Option (List String) :=
  match v with
  | .array items => items.mapM string?
  | _ => none

/-- An optional text: `null` is none. -/
def optionalString? (v : Json) : Option (Option String) :=
  match v with
  | .null => some none
  | .string s => some (some s)
  | _ => none

/-- A dictionary.  Of fields with one name the last one counts. -/
def dict? {α : Type} (f : Json → Option α) (v : Json) : Option (Dict α) :=
  match v with
  | .object fields => (fields.mapM fun e => (f e.2).map fun x => (e.1, x)).map Dict.ofList
  | _ => none

/-- An object with the entries of a dictionary in order. -/
def ofDict {α : Type} (f : α → Json) (d : Dict α) : Json :=
  .object (d.entries.map fun (k, v) => (k, f v))

end Waymark.Json
