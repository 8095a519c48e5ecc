import Waymark.Json
/-!
# Looking into JSON

The fields of an object by name, for a reader that does not ask why one is missing: a
field that is not there, or not of the kind asked for, counts as empty.

## Main results

* `text?_string` — a text that is there is found.
* `items_of_not_array` — what is no array counts as an empty one.
-/

namespace Waymark.Json

instance : Coe String Json := ⟨.string⟩

instance : Coe Bool Json := ⟨.boolean⟩

instance : Coe Nat Json := ⟨.ofNat⟩

instance : Coe (Option String) Json := ⟨.ofOption⟩

instance : Coe (List String) Json := ⟨.ofStrings⟩

/-- The text in a field. -/
def text? (v : Json) (name : String) : Option String := (v.field? name).bind string?

/-- The text in a field, or another text. -/
def text (v : Json) (name : String) (default : String := "") : String :=
  (v.text? name).getD default

/-- Whether a field is true. -/
def flag (v : Json) (name : String) : Bool :=
  match v.field? name with
  | some (.boolean b) => b
  | _ => false

/-- The natural number in a field. -/
def nat? (v : Json) (name : String) : Option Nat :=
  match v.field? name with
  | some (.integer n) => some n.toNat
  | _ => none

/-- The value in a field. -/
def get (v : Json) (name : String) : Json := (v.field? name).getD .null

/-- The items of an array. -/
def items (v : Json) : List Json := v.array?.getD []

/-- The texts in an array. -/
def texts (v : Json) : List String := v.items.filterMap string?

/-- The fields of an object. -/
def fields : Json → List (String × Json)
  | .object fs => fs
  | _ => []

/-- What is no array has no items. -/
theorem items_of_not_array {v : Json} (h : ∀ xs, v ≠ .array xs) : v.items = [] := by
  cases v with
  | array xs => exact absurd rfl (h xs)
  | _ => rfl

theorem text?_string {v : Json} {name s : String} (h : v.field? name = some (.string s)) :
    v.text? name = some s := by
  simp [text?, h, string?]

end Waymark.Json
