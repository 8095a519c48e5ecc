import Waymark.Proofs.App.Recording
import Waymark.Proofs.Specifier.Mounted
import Waymark.Proofs.Url.Joined
/-!
# Remote modules carry no versions

The versions of local modules stand in the URLs of imports, so that a browser fetches again
what has changed.  A remote module imports no local one: a target of the import map that is a
URL is taken as it is, and any other path, even one that leads into the app when a local module
imports it, is joined to the URL of the importer.  Where it cannot be joined, the import means
nothing and is left as it stands.

So no version can get into what is served for a remote module, neither that of a record nor the
one for modules that have none.

## Main results

* `isRemote_of_resolve` — what a remote module imports is remote.
* `rewriteMention_remote` — versions have no part in how its imports are rewritten.
* `compile?_remote` — nor in what is served for it.
* `compile_remote` — all of it.
-/

namespace Waymark

namespace Script

variable {importer dep : Specifier}

/-! ## What is imported -/

theorem beginsPath_of_isPath {target : String} (h : (isRelative target || isRooted target) = true) :
    Url.BeginsPath target.toList := by
  rcases Bool.or_eq_true_iff.1 h with h | h
  · rcases Bool.or_eq_true_iff.1 h with h | h
    · obtain ⟨rest, hrest⟩ := List.isPrefixOf_iff_prefix.1 h
      exact ⟨'.', '/' :: rest, hrest.symm, Or.inl rfl⟩
    · obtain ⟨rest, hrest⟩ := List.isPrefixOf_iff_prefix.1 h
      exact ⟨'.', '.' :: '/' :: rest, hrest.symm, Or.inl rfl⟩
  · obtain ⟨rest, hrest⟩ := List.isPrefixOf_iff_prefix.1 h
    exact ⟨'/', rest, hrest.symm, Or.inr rfl⟩

/-- A path is joined to the URL of a remote importer. -/
theorem isRemote_of_remotePath (hi : Specifier.isRemote importer = true) {path : String}
    (hpath : Url.BeginsPath path.toList) (h : remotePath importer path = some dep) :
    Specifier.isRemote dep = true := by
  obtain ⟨scheme, rest, hweb, himporter⟩ := Specifier.exists_of_isRemote hi
  unfold remotePath at h
  split at h
  · nomatch h
  · rename_i base hbase
    have hscheme : base.scheme = scheme := by
      rw [← String.ofList_toList (s := importer), himporter] at hbase
      exact Url.scheme_of_parse_web hweb hbase
    have hwritten := Url.isWritten_of_parse hbase (hscheme.symm ▸ hweb)
    split at h
    · nomatch h
    · rename_i url hurl
      obtain rfl := Option.some.inj h
      exact Url.isRemote_toString (Url.isWritten_of_join hwritten hpath hurl)

/-- What a remote module imports is remote. -/
theorem isRemote_of_resolve (hi : Specifier.isRemote importer = true) {map : ImportMap}
    {specifier : String} (h : resolve map importer specifier = some dep) :
    Specifier.isRemote dep = true := by
  unfold resolve resolveTarget at h
  split at h
  · rename_i hremote
    exact Option.some.inj h ▸ hremote
  · split at h
    · rename_i hpath
      rw [resolvePath, if_pos hi] at h
      exact isRemote_of_remotePath hi (beginsPath_of_isPath hpath) h
    · cases h

/-! ## What is written -/

theorem servedUrl_of_isRemote (options : Options) (h : Specifier.isRemote dep = true) :
    servedUrl options dep = Specifier.serverPath dep := by
  rw [servedUrl, if_pos h]

/-- Versions have no part in how the imports of a remote module are rewritten. -/
theorem rewriteMention_remote (hi : Specifier.isRemote importer = true) {options options' : Options}
    (hmap : options'.importMap = options.importMap) (m : Mention) :
    rewriteMention options' importer m = rewriteMention options importer m := by
  have hmeans : resolveMention options' importer m = resolveMention options importer m := by
    rw [resolveMention, resolveMention, hmap]
  unfold rewriteMention
  rw [hmeans]
  cases hdep : resolveMention options importer m with
  | none => rfl
  | some dep =>
    have hremote := isRemote_of_resolve hi hdep
    dsimp only
    rw [servedUrl_of_isRemote options' hremote, servedUrl_of_isRemote options hremote]

theorem compile_unversioned (hi : Specifier.isRemote importer = true) {options options' : Options}
    (hmap : options'.importMap = options.importMap) (source : String) :
    compile options' importer source = compile options importer source := by
  have hrewrite : rewriteMention options' importer = rewriteMention options importer :=
    funext (rewriteMention_remote hi hmap)
  have hmeans : resolveMention options' importer = resolveMention options importer := by
    funext m
    rw [resolveMention, resolveMention, hmap]
  rw [compile, compile, hrewrite, hmeans]

theorem isRemote_of_mem_deps (hi : Specifier.isRemote importer = true) {options : Options}
    {source : String} (h : dep ∈ (compile options importer source).deps) :
    Specifier.isRemote dep = true := by
  obtain ⟨m, -, hm⟩ := mem_deps_compile.1 h
  exact isRemote_of_resolve hi hm

end Script

namespace Pipeline

variable {p : Pipeline} {s : Specifier}

/-- Whether scripts go through the default compiler, whatever else the pipeline has. -/
def HasDefaultScripts (p : Pipeline) : Prop :=
  p.scripts = fun options s source => .ok (Script.compile options s source)

theorem compileScript_remote (hp : p.HasDefaultScripts) (hs : Specifier.isRemote s = true)
    (g g' : Graph) (loaded : LoaderOutput) :
    p.compileScript g' s loaded = p.compileScript g s loaded := by
  have hkey : Specifier.isRemote (Specifier.graphKey s) = true := by
    rw [Specifier.graphKey_eq_self_of_isRemote hs, hs]
  have hmap : (p.scriptOptions g' (Specifier.graphKey s)).importMap =
      (p.scriptOptions g (Specifier.graphKey s)).importMap := rfl
  have hscripts : p.scripts (p.scriptOptions g' (Specifier.graphKey s)) (Specifier.graphKey s)
      loaded.code = p.scripts (p.scriptOptions g (Specifier.graphKey s)) (Specifier.graphKey s)
        loaded.code := by
    rw [HasDefaultScripts] at hp
    rw [hp]
    dsimp only
    rw [Script.compile_unversioned hkey hmap]
  unfold scriptOptions at hscripts
  unfold compileScript
  dsimp only
  rw [hscripts]

/-- The records of the graph have no part in what is compiled for a remote module. -/
theorem compile?_remote (hp : p.HasDefaultScripts) {r : ModuleRequest}
    (hr : Specifier.isRemote r.specifier = true) (d : Disk) (g g' : Graph)
    (source : Except CompileError String) : p.compile? d g' r source = p.compile? d g r source := by
  unfold compile?
  cases p.classify r.specifier with
  | static => rfl
  | style => rfl
  | script =>
    simp only [compileScript_remote hp hr g g']
  | custom =>
    have hloaded : p.compileLoaded g' r.specifier = p.compileLoaded g r.specifier := by
      unfold compileLoaded
      simp only [compileScript_remote hp hr g g']
    simp only [hloaded]

end Pipeline

namespace Script

/-- All that a remote module is found to import is remote, and versions and the baseline have no
part in its code and in what it imports, nor has the graph in what is compiled, recorded and served
for a request for it. -/
theorem compile_remote {importer : Specifier} (hi : Specifier.isRemote importer = true) :
    (∀ (options options' : Options) (source : String), options'.importMap = options.importMap →
      (∀ dep ∈ (compile options importer source).deps, Specifier.isRemote dep = true) ∧
        compile options' importer source = compile options importer source) ∧
    ∀ p : Pipeline, p.HasDefaultScripts → ∀ (d : Disk) (g g' : Graph) (asModule : Bool)
      (source : Except CompileError String),
      p.compile? d g' ⟨importer, asModule⟩ source = p.compile? d g ⟨importer, asModule⟩ source :=
  ⟨fun _ _ source hmap => ⟨fun _ => isRemote_of_mem_deps hi, compile_unversioned hi hmap source⟩,
    fun _ hp d g g' _ source => Pipeline.compile?_remote hp hi d g g' source⟩

/-- A map whose targets are paths in the app for local modules. -/
def pathsMap : ImportMap := ⟨Dict.ofList [("lib/", "/lib/"), ("near/", "./")], Dict.empty⟩

/-- Paths of the map lead to the host of the importer, and not to the files whose versions are at
hand. -/
theorem compile_remote_mapped :
    let options : Options := ⟨true, pathsMap, 10, Dict.empty⟩
    let options' : Options := ⟨true, pathsMap, 11, Dict.ofList [("./lib/x.ts", "c"), ("./a/y.ts", "d")]⟩
    let source := "import 'lib/x.ts'; export * from \"near/y.ts\";"
    (compile options "https://esm.sh/a/b.ts" source).deps =
        ["https://esm.sh/lib/x.ts", "https://esm.sh/a/y.ts"] ∧
      (∀ dep ∈ (compile options "https://esm.sh/a/b.ts" source).deps,
        Specifier.isRemote dep = true) ∧
      compile options' "https://esm.sh/a/b.ts" source =
        compile options "https://esm.sh/a/b.ts" source ∧
      (Pipeline.standard true pathsMap).compile? ⟨"/app", Dict.empty⟩
          ((Graph.new 10).mark 11 "./lib/x.ts" [] none) ⟨"https://esm.sh/a/b.ts", false⟩
          (.ok source) =
        (Pipeline.standard true pathsMap).compile? ⟨"/app", Dict.empty⟩ (Graph.new 12)
          ⟨"https://esm.sh/a/b.ts", false⟩ (.ok source) := by
  have hall := @compile_remote "https://esm.sh/a/b.ts" (by decide +kernel)
  intro options options' source
  obtain ⟨hremote, hsame⟩ := hall.1 options options' source rfl
  exact ⟨by decide +kernel, hremote, hsame, hall.2 (Pipeline.standard true pathsMap) rfl _ _ _ _ _⟩

end Script
end Waymark
