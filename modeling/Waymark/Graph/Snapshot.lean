import Waymark.Graph
import Waymark.Json.Fields
import Waymark.Json.Reader
import Waymark.Text.Blank
/-!
# Graph snapshots

The records of a graph as a script module whose default export is a JSON object.
A production server reads them back instead of compiling anything.

## Main results

* `modules_ofGraph` — a snapshot holds the records in order.
-/

namespace Waymark

/-- The records of a graph. -/
structure Snapshot where
  modules : List ModuleRecord
  deriving DecidableEq, Repr

namespace ModuleRecord

/-- A record as JSON.  A missing style text is left out. -/
def toJson (r : ModuleRecord) : Json :=
  .object ([("specifier", .string r.specifier), ("version", .ofNat r.version.toNat),
    ("deps", Json.ofStrings r.deps)] ++
    match r.inlineCss with
    | some css => [("inlineCSS", .string css)]
    | none => [])

/-- A version: a natural number of at most 64 bits. -/
def version? (v : Json) : Option Version :=
  match v with
  | .integer (.ofNat n) => if n < UInt64.size then some (UInt64.ofNat n) else none
  | _ => none

/-- Reads a record.  Dependencies and style text may be left out. -/
def ofJson? (v : Json) : Option ModuleRecord := do
  match ← v.record? ["specifier", "version", "deps", "inlineCSS"] with
  | [some specifier, some version, deps, css] =>
    return { specifier := ← specifier.string?
             version := ← version? version
             deps := ← Json.orElse [] Json.strings? deps
             inlineCss := ← Json.orElse none Json.optionalString? css }
  | _ => none

end ModuleRecord

namespace Snapshot

/-- The name of the snapshot file in the output directory. -/
def fileName : String := "server_dependency_graph.js"

/-- What the module text begins with. -/
def exportMark : List Char := "export default ".toList

/-- The snapshot of a graph. -/
def ofGraph (g : Graph) : Snapshot := ⟨g.modules⟩

@[simp] theorem modules_ofGraph (g : Graph) : (ofGraph g).modules = g.modules := rfl

/-- The JSON object of a snapshot. -/
def toJson (s : Snapshot) : Json :=
  .object [("modules", .array (s.modules.map ModuleRecord.toJson))]

/-- The module text of a snapshot. -/
def render (s : Snapshot) : String :=
  String.ofList (exportMark ++ s.toJson.write ++ [';'])

/-- Reads the JSON object of a snapshot. -/
def ofJson? (v : Json) : Option Snapshot := do
  match ← v.record? ["modules"] with
  | [some (.array items)] => return ⟨← items.mapM ModuleRecord.ofJson?⟩
  | _ => none

/-- Reads a module text.  The export and the semicolon may be left out. -/
def parse (text : String) : Option Snapshot :=
  let body := Text.trim text.toList
  let body := (List.isPrefixOf? exportMark body).getD body
  let body := (Text.dropSuffix? [';'] body).getD body
  (Json.read body).bind ofJson?

/-- The graph of a snapshot at a reading of the wall clock. -/
def toGraph (s : Snapshot) (now : Version) : Graph := Graph.ofRecords now s.modules

end Snapshot
end Waymark
