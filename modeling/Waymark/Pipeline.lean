import Waymark.Config
import Waymark.Graph
import Waymark.MediaType
import Waymark.Pipeline.Loader
import Waymark.Request
import Waymark.Script.Rewrite
import Waymark.Stylesheet.Bundle
/-!
# Compiling modules

What becomes of a request for a module.  A module is a style sheet, a script, a
file that a loader takes, or a static file, which is not compiled at all.  Each kind
is compiled from its source text in steps that can all fail; only a module that
went through all of them is recorded, by one mark on the graph.

## Main results

* `transform_error`, `transform_static` — without an output the graph is as it was.
* `transform_ok` — an output comes with exactly one mark.
* `sourceOf?_static` — a static file has no source to read.
-/

namespace Waymark

/-- How a module is compiled. -/
inductive ModuleKind where
  | style
  | script
  | custom
  /-- Not compiled; served from disk as it is. -/
  | static
  deriving DecidableEq, Repr

/-- The word for a kind. -/
def ModuleKind.name : ModuleKind → String
  | .style => "style"
  | .script => "script"
  | .custom => "custom"
  | .static => "static"

/-- What the atomic style generator is told about a source. -/
structure AtomicRequest where
  specifier : Specifier
  minify : Bool
  deriving DecidableEq, Repr

/-- The compilers an app is served with. -/
structure Pipeline where
  isDev : Bool
  importMap : ImportMap
  scripts : Script.Options → Specifier → String → Except CompileError Script.Output
  sheets : Disk → Stylesheet.Options → Specifier → String →
    Except CompileError Stylesheet.Output
  /-- The atomic style generator with its settings, if the app has one. -/
  atomic : Option (AtomicSettings ×
    (AtomicSettings → AtomicRequest → String → Except CompileError String))
  loaders : List Loader

/-- What is served for a module. -/
structure ModuleOutput where
  content : String
  contentType : String
  deriving DecidableEq, Repr

/-- A compiled module: what is recorded of it, and what is served. -/
structure Compiled where
  /-- The key it is recorded under. -/
  key : Specifier
  deps : List Specifier
  inlineCss : Option String
  output : ModuleOutput
  deriving DecidableEq, Repr

namespace Pipeline

/-! ## The compilers at hand -/

/-- The text of the local sheet that a sheet imports. -/
def readSheet (d : Disk) (s : Specifier) : Except FileError String :=
  d.readText (d.pathOf (Specifier.relativePath s))

/-- The default compiler of sheets. -/
def bundleSheet (d : Disk) (options : Stylesheet.Options) (s : Specifier) (source : String) :
    Except CompileError Stylesheet.Output :=
  match Stylesheet.bundle (readSheet d) d.fileCount options s source with
  | .ok out => .ok out
  | .error e => .error (.unreadable e.specifier e.cause)

/-- The default compilers. -/
def standard (isDev : Bool) (importMap : ImportMap) : Pipeline :=
  { isDev, importMap
    scripts := fun options s source => .ok (Script.compile options s source)
    sheets := bundleSheet
    atomic := none
    loaders := [] }

/-! ## Kinds -/

/-- The kind of a module. -/
def classify (p : Pipeline) (s : Specifier) : ModuleKind :=
  let path := Specifier.stripQuery s
  if Specifier.isStyle path then .style
  else if Specifier.isScript path then .script
  else if (Loader.find? p.loaders (Loader.pathOf s)).isSome then .custom
  else if Specifier.isRemote s then .script
  else .static

/-- The specifier whose text a module is compiled from, if it is compiled from its text. -/
def sourceOf? (p : Pipeline) (s : Specifier) : Option Specifier :=
  match p.classify s with
  | .style => some (Specifier.graphKey s)
  | .script => some s
  | _ => none

/-- A static file is not compiled from its text. -/
theorem sourceOf?_static {p : Pipeline} {s : Specifier} (h : p.classify s = .static) :
    p.sourceOf? s = none := by
  unfold sourceOf?
  rw [h]

/-- Whether the file of a module has to be read before it can be served. -/
def readsFile (p : Pipeline) (s : Specifier) : Bool :=
  match p.classify s with
  | .static => true
  | .custom => false
  | .style | .script => !Specifier.isRemote s

/-! ## Steps -/

/-- The style text generated for a source.  Only JSX is looked through, and only where the
generator is active. -/
def atomicStyle (p : Pipeline) (s : Specifier) (lang : Option String) (source : String) :
    Except CompileError String :=
  match p.atomic with
  | none => .ok ""
  | some (settings, generate) =>
    if settings.isActive && (lang.or (Specifier.extension s)).any (· ∈ ["jsx", "tsx"]) then
      generate settings ⟨s, !p.isDev⟩ source
    else .ok ""

/-- Style text with generated style text below it. -/
def withAtomic (css : Option String) (generated : String) : Option String :=
  if generated = "" then css
  else match css with
    | some css => some (css ++ "\n" ++ generated)
    | none => some generated

/-- Compiles script, which a loader may have written. -/
def compileScript (p : Pipeline) (g : Graph) (s : Specifier) (loaded : LoaderOutput) :
    Except CompileError Compiled := do
  let key := Specifier.graphKey s
  let options : Script.Options :=
    { isDev := p.isDev, importMap := p.importMap, baseline := g.initial
      versions := g.versionsExcept key }
  let out ← p.scripts options key loaded.code
  let generated ← p.atomicStyle key loaded.lang loaded.code
  return { key, deps := out.deps, inlineCss := withAtomic loaded.inlineCss generated
           output := ⟨out.code, (loaded.lang.map MediaType.ofLanguage).getD MediaType.script⟩ }

/-- The script module that exports the classes of a sheet. -/
def classesModule (exports : Dict String) : String :=
  "export default " ++ (Json.ofDict Json.string exports).render ++ ";"

/-- Compiles a sheet. -/
def compileSheet (p : Pipeline) (d : Disk) (r : ModuleRequest) (source : String) :
    Except CompileError Compiled := do
  let key := Specifier.graphKey r.specifier
  let out ← p.sheets d ⟨!p.isDev, Stylesheet.isScoped key⟩ key source
  return { key, deps := out.deps, inlineCss := some out.code
           output :=
             if r.asModule then ⟨classesModule out.exports, MediaType.script⟩
             else ⟨out.code, MediaType.style⟩ }

/-- Loads a file and compiles what the loader wrote. -/
def compileLoaded (p : Pipeline) (g : Graph) (s : Specifier) : Except CompileError Compiled :=
  let path := Loader.pathOf s
  match Loader.find? p.loaders path with
  | none => .error (.loader path "no loader matches")
  | some l => do
    let out ← l.load ⟨p.isDev, p.importMap⟩ path
    p.compileScript g s out

/-- Compiles a module, `source` being its text or why that could not be had; `none` for a static
file. -/
def compile? (p : Pipeline) (d : Disk) (g : Graph) (r : ModuleRequest)
    (source : Except CompileError String) : Except CompileError (Option Compiled) :=
  match p.classify r.specifier with
  | .static => .ok none
  | .style => do
    let text ← source
    return some (← p.compileSheet d r text)
  | .script => do
    let text ← source
    return some (← p.compileScript g r.specifier ⟨text, none, none⟩)
  | .custom => do
    return some (← p.compileLoaded g r.specifier)

/-! ## Recording -/

/-- Compiles a module and records it. -/
def transform (p : Pipeline) (d : Disk) (g : Graph) (now : Version) (r : ModuleRequest)
    (source : Except CompileError String) :
    Except CompileError (Option ModuleOutput) × Graph :=
  match p.compile? d g r source with
  | .error e => (.error e, g)
  | .ok none => (.ok none, g)
  | .ok (some c) => (.ok (some c.output), g.mark now c.key c.deps c.inlineCss)

variable {p : Pipeline} {d : Disk} {g : Graph} {now : Version} {r : ModuleRequest}
  {source : Except CompileError String}

/-- A module that fails to compile leaves the graph as it was. -/
theorem transform_error {e : CompileError} (h : p.compile? d g r source = .error e) :
    p.transform d g now r source = (.error e, g) := by
  unfold transform
  rw [h]

/-- A static file leaves the graph as it was. -/
theorem transform_static (h : p.compile? d g r source = .ok none) :
    p.transform d g now r source = (.ok none, g) := by
  unfold transform
  rw [h]

/-- A module that is compiled is marked once, with what was found in it. -/
theorem transform_ok {c : Compiled} (h : p.compile? d g r source = .ok (some c)) :
    p.transform d g now r source =
      (.ok (some c.output), g.mark now c.key c.deps c.inlineCss) := by
  unfold transform
  rw [h]

end Pipeline
end Waymark
