import Waymark.Bundle.Policy
import Waymark.Disk
import Waymark.Script.Imports
import Waymark.Url.Query
/-!
# Bundling by copying

The default bundler.  Every remote module that belongs into the bundle is copied
next to the entry, and imports are rewritten to the copies.  Nothing is shaken off,
minified or compiled.

A module is fetched once, whatever version its URL asks for: the version is taken
out of the URL before it is compared, so that modules which import one another end
the walk.  The walk takes steps as long as new modules turn up and is given a bound.
-/

namespace Waymark.Bundle

/-! ## Names of copies -/

/-- The directory of the copies. -/
def vendorDirectory : String := "_vendor"

/-- Whether a character may stand in the name of a copy. -/
def inVendorPath (c : Char) : Bool := c.isAlphanum || c ∈ ['/', '.', '-', '_', '@']

/-- The file of a copy as text: the host with its port, the path, and the query after an
underscore. -/
def vendorName (url : String) : List Char :=
  match Url.parse url with
  | .ok u =>
    u.host.getD [] ++ (match u.port with | some port => '_' :: Url.decimal port | none => []) ++
      u.path.toText ++ (match u.query with | some query => '_' :: query | none => [])
  | .error _ => "unknown".toList ++ url.toList

/-- The file a remote module is copied to, relative to the output directory. -/
def vendorPath (url : String) : String :=
  let path := (vendorDirectory.toList ++ '/' :: vendorName url).map fun c =>
    if inVendorPath c then c else '_'
  let js := ".js".toList
  String.ofList (if js.isSuffixOf path then path else path ++ js)

/-- A URL without its version, by which copies are told apart. -/
def vendorKey (url : String) : String :=
  match Url.parse url with
  | .error _ => url
  | .ok u =>
    let pairs := (u.queryPairs).filter fun (k, _) => k ≠ ['v']
    toString { u with query := if pairs = [] then none else some (Url.formEncode pairs) }

/-- The import of one output file from another, both relative to the output directory. -/
def relativeImport (source target : String) : String :=
  match source.toList.count '/' with
  | 0 => "./" ++ target
  | n + 1 => String.join (List.replicate (n + 1) "../") ++ target

/-! ## Planning -/

/-- A module that is fetched and not yet written. -/
structure Pending where
  /-- Its output file. -/
  out : String
  contents : String
  importer : Option String
  origin : Origin

/-- What the imports of a module are replaced with, and what became of the walk. -/
structure Plan where
  replacements : List (String × String)
  /-- The keys of all modules fetched so far. -/
  seen : List String
  /-- Modules fetched for this plan, in order. -/
  fetched : List Pending

/-- The kind of an import. -/
def kindOf (m : Script.Mention) : ImportKind := if m.isDynamic then .dynamic else .static

/-- What is asked of an import of a module. -/
def Pending.request (module : Pending) (m : Script.Mention) : Request :=
  ⟨String.ofList m.specifier, module.importer, module.origin, kindOf m⟩

/-- The copy of a remote module, relative to the output directory. -/
def copyOf (path : String) : String := vendorPath (vendorKey path)

/-- The plan with one more replacement. -/
def Plan.replace (plan : Plan) (m : Script.Mention) (target : String) : Plan :=
  { plan with replacements := plan.replacements ++ [(String.ofList m.specifier, target)] }

/-- The plan with one more module, which has just been loaded. -/
def Plan.fetch (plan : Plan) (path : String) (loaded : Loaded) : Plan :=
  { plan with
    seen := plan.seen ++ [vendorKey path]
    fetched := plan.fetched ++ [⟨copyOf path, loaded.contents, some path, .http⟩] }

variable {σ : Type} {ε : Type}

/-- The plan with a module that is to be copied, which is loaded unless it has been before.  A
module that the plugin does not load fails as `unloaded` says. -/
def planCopy (plugin : Plugin (ExceptT ε (StateM σ))) (unloaded : String → ε) (plan : Plan)
    (path : String) : ExceptT ε (StateM σ) Plan := do
  if vendorKey path ∈ plan.seen then return plan
  match ← plugin.load path .http with
  | some loaded => return plan.fetch path loaded
  | none => throw (unloaded path)

/-- Plans one import.  A specifier that occurs again keeps its replacement. -/
def planMention (plugin : Plugin (ExceptT ε (StateM σ))) (unloaded : String → ε)
    (module : Pending) (plan : Plan) (m : Script.Mention) : ExceptT ε (StateM σ) Plan :=
  if (plan.replacements.lookup (String.ofList m.specifier)).isSome then return plan
  else match plugin.resolve (module.request m) with
    | .external path => return plan.replace m path
    | .resolved path .file => return plan.replace m path
    | .resolved path .http => do
      let plan ← planCopy plugin unloaded plan path
      return plan.replace m (relativeImport module.out (copyOf path))

/-- Plans the imports of a module in order. -/
def planAll (plugin : Plugin (ExceptT ε (StateM σ))) (unloaded : String → ε) (module : Pending)
    (plan : Plan) : List Script.Mention → ExceptT ε (StateM σ) Plan
  | [] => return plan
  | m :: ms => do
    let plan ← planMention plugin unloaded module plan m
    planAll plugin unloaded module plan ms

/-- The text an import is replaced with. -/
def replaceMention (replacements : List (String × String)) (m : Script.Mention) : List Char :=
  match replacements.lookup (String.ofList m.specifier) with
  | some target => m.withSpecifier target.toList
  | none => m.text

/-- The text of a module under a plan. -/
def rewriteModule (plan : Plan) (contents : String) : String :=
  String.ofList (Script.replaceMentions (replaceMention plan.replacements) contents.toList)

/-! ## The walk -/

/-- Copies the queued modules and those they import, at most `fuel` of them.  The result is
`false` when the bound was met first. -/
def copyAll (plugin : Plugin (ExceptT ε (StateM σ))) (unloaded : String → ε)
    (write : String → String → ExceptT ε (StateM σ) Unit) :
    Nat → List String → List Pending → ExceptT ε (StateM σ) Bool
  | _, _, [] => return true
  | 0, _, _ :: _ => return false
  | fuel + 1, seen, module :: queue => do
    let plan ← planAll plugin unloaded module ⟨[], seen, []⟩
      (Script.mentions module.contents.toList)
    write module.out (rewriteModule plan module.contents)
    copyAll plugin unloaded write fuel plan.seen (queue ++ plan.fetched)

/-- An injected file as it stands before the entry: without the lines that export. -/
def injectedText (text : String) : String :=
  let kept := (Text.lines text.toList).filter fun line =>
    !"export ".toList.isPrefixOf (Text.trimStart line)
  String.ofList (kept.flatMap fun line => line ++ ['\n'])

/-- Bundles an entry, with injected texts before it, into at most `fuel` files. -/
def bundle (plugin : Plugin (ExceptT ε (StateM σ))) (unloaded : String → ε)
    (write : String → String → ExceptT ε (StateM σ) Unit) (fuel : Nat) (entryName : String)
    (injected : List String) (contents : String) : ExceptT ε (StateM σ) Bool :=
  let contents := String.join (injected.map injectedText) ++ contents
  copyAll plugin unloaded write fuel [] [⟨entryName, contents, none, .file⟩]

end Waymark.Bundle
