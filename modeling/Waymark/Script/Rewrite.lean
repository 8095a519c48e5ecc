import Waymark.Script.Resolve
import Waymark.Script.TypeImports
/-!
# Compiling script

The default compiler of modules: type-only statements are taken out, static
imports are rewritten to the URLs their modules are served under, and all imports
that mean a module are reported as dependencies.

A local import carries the version of its module, so that the browser fetches it
again when it has changed.  A style sheet is imported as a module.  The text of a
dynamic import is kept.

## Main results

* `deps_compile_nodup` — no dependency is reported twice.
* `mem_deps_compile` — what is reported is what the imports mean.
-/

namespace Waymark.Script

/-- What a compiler is told besides the module itself. -/
structure Options where
  isDev : Bool
  importMap : ImportMap
  /-- The version of modules that have none yet. -/
  baseline : Version
  /-- The tokens of all other local modules. -/
  versions : Dict String

/-- What a compiler makes of a module. -/
structure Output where
  code : String
  /-- The modules imported, in the order of the text. -/
  deps : List Specifier
  deriving DecidableEq, Repr

/-- The URL under which the browser fetches a module that is imported. -/
def servedUrl (options : Options) (dep : Specifier) : String :=
  if Specifier.isRemote dep then Specifier.serverPath dep
  else
    let token := (options.versions.get? dep).getD options.baseline.token
    Specifier.encodePath (Specifier.urlPath dep) ++
      (if Specifier.isStyle dep then "?module&v=" else "?v=") ++ token

/-- The module that an import means. -/
def resolveMention (options : Options) (importer : Specifier) (m : Mention) : Option Specifier :=
  resolve options.importMap importer (String.ofList m.specifier)

/-- The text an import is replaced with. -/
def rewriteMention (options : Options) (importer : Specifier) (m : Mention) : List Char :=
  match resolveMention options importer m with
  | none => m.text
  | some dep =>
    if m.isDynamic then m.text else m.withSpecifier (servedUrl options dep).toList

/-- Compiles a module. -/
def compile (options : Options) (importer : Specifier) (source : String) : Output :=
  let source := dropTypeImports source.toList
  { code := String.ofList (replaceMentions (rewriteMention options importer) source)
    deps := distinct ((mentions source).filterMap (resolveMention options importer)) }

theorem deps_compile_nodup (options : Options) (importer : Specifier) (source : String) :
    (compile options importer source).deps.Nodup := by
  exact nodup_distinct _

/-- The dependencies of a script are what its mentions mean, types left out. -/
theorem mem_deps_compile {options : Options} {importer : Specifier} {source : String}
    {dep : Specifier} :
    dep ∈ (compile options importer source).deps ↔
      ∃ m ∈ mentions (dropTypeImports source.toList),
        resolveMention options importer m = some dep := by
  simp [compile, List.mem_filterMap]

end Waymark.Script
