import Waymark.Proofs.App.Watched
import Waymark.Proofs.Graph.Affected
import Waymark.Proofs.Script.ServedUrl
import Waymark.Proofs.Specifier.Marked
/-!
# Edges between records

A module is recorded under its key, and what it imports is recorded with it.  That the
record of an imported module is found from the importer, and the importer from there, needs
that an import is put down as the key of the module it means.

It is, unless the import has a query or a fragment.  These stay in what is put down, while
no local module has them in its key.  Then the importer is not among the dependents of the
module that is served for the import, unless it imports it another time without them, and
the URL of the import has the initial version whichever version that module has.

## Main results

* `Specifier.graphKey_eq_self_iff` — which local specifiers are keys.
* `hasGraphKeys_performAll` — in a session nothing is recorded but under a key.
* `rewriteMention_static` — the version that an import is written with.
* `compile_meets_records` — which imports lead to the record of what they import.
-/

namespace Waymark

namespace Specifier

/-! ## Keys -/

theorem graphKey_graphKey (s : Specifier) : graphKey (graphKey s) = graphKey s := by
  cases hremote : isRemote s with
  | true => rw [graphKey_eq_self_of_isRemote hremote, graphKey_eq_self_of_isRemote hremote]
  | false =>
    have hkey : graphKey s = stripQuery s := by
      rw [graphKey, hremote]
      rfl
    rw [graphKey, isRemote_graphKey, hremote, hkey]
    exact stripQuery_stripQuery s

/-- A local specifier is a key exactly if it has neither query nor fragment. -/
theorem graphKey_eq_self_iff {s : Specifier} (h : isRemote s = false) :
    graphKey s = s ↔ '?' ∉ s.toList ∧ '#' ∉ s.toList := by
  have hmarks : (∀ c ∈ s.toList, (decide (c ≠ '?') && decide (c ≠ '#')) = true) ↔
      '?' ∉ s.toList ∧ '#' ∉ s.toList := by
    simp only [Bool.and_eq_true, decide_eq_true_eq]
    constructor
    · exact fun hall => ⟨fun hq => (hall _ hq).1 rfl, fun hf => (hall _ hf).2 rfl⟩
    · rintro ⟨hq, hf⟩ c hc
      exact ⟨fun heq => hq (heq ▸ hc), fun heq => hf (heq ▸ hc)⟩
  rw [graphKey, h, if_neg Bool.false_ne_true, ← String.toList_inj, stripQuery,
    String.toList_ofList, List.takeWhile_eq_self_iff, hmarks]

end Specifier

namespace Graph

/-! ## Records and dependents -/

/-- Every record stands under a key. -/
def HasGraphKeys (g : Graph) : Prop :=
  ∀ k, (g.get? k).isSome = true → Specifier.graphKey k = k

variable {g : Graph}

theorem hasGraphKeys_new (now : Version) : (new now).HasGraphKeys := fun _ h => nomatch h

theorem mem_dependents_mark_self (g : Graph) (now : Version) (s k : Specifier)
    (deps : List Specifier) (css : Option String) :
    s ∈ (g.mark now s deps css).dependents k ↔ k ∈ deps := by
  rw [mem_dependents_iff, get?_mark_self]
  simp

theorem mem_dependents_mark_ne (g : Graph) (now : Version) {s t : Specifier} (k : Specifier)
    (deps : List Specifier) (css : Option String) (h : t ≠ s) :
    t ∈ (g.mark now s deps css).dependents k ↔ t ∈ g.dependents k := by
  rw [mem_dependents_iff, mem_dependents_iff, get?_mark_ne g now deps css h]

/-- What is no key carries the initial version. -/
theorem HasGraphKeys.servedVersion (h : g.HasGraphKeys) {d : Specifier} (importer : Specifier)
    (hd : Specifier.graphKey d ≠ d) : g.servedVersion importer d = g.initial := by
  unfold Graph.servedVersion versionOf
  cases hget : g.get? d with
  | none => exact ite_self _
  | some r => exact absurd (h d (by rw [hget]; rfl)) hd

end Graph

namespace Script

/-! ## Versions in URLs -/

/-- A compiler as it is told of a graph. -/
def optionsOf (isDev : Bool) (importMap : ImportMap) (g : Graph) (importer : Specifier) : Options :=
  { isDev, importMap, baseline := g.initial, versions := g.versionsExcept importer }

/-- A static import of what is local is written as a URL with the version of what it means. -/
theorem rewriteMention_static {isDev : Bool} {importMap : ImportMap} (g : Graph)
    {importer d : Specifier} {m : Mention} (hi : Specifier.isRemote importer = false)
    (hd : Specifier.isRemote d = false) (hstatic : m.isDynamic = false)
    (hmeans : resolveMention (optionsOf isDev importMap g importer) importer m = some d) :
    ∃ url path query,
      rewriteMention (optionsOf isDev importMap g importer) importer m = m.withSpecifier url ∧
        Text.cut '?' url = some (path, query) ∧
        ModuleRequest.values "v".toList query = [(g.servedVersion importer d).token.toList] := by
  have htoken : ((optionsOf isDev importMap g importer).versions.get? d).getD
      (optionsOf isDev importMap g importer).baseline.token =
      (g.servedVersion importer d).token := Graph.getD_versionsExcept g hi hd
  refine ⟨(servedUrl (optionsOf isDev importMap g importer) d).toList,
    (Specifier.encodePath (Specifier.urlPath d)).toList,
    servedQuery d (g.servedVersion importer d), ?_, ?_, values_servedQuery d _⟩
  · simp only [rewriteMention, hmeans, hstatic, Bool.false_eq_true, if_false]
  · rw [toList_servedUrl hd htoken]
    exact Text.cut_append _ (Specifier.notMem_encodePath _)

end Script

namespace App

/-! ## Sessions -/

theorem Serves.graphKey {depth : Nat} {app : App} {uri : Uri} {k : Specifier}
    (h : Serves depth app uri k) : Specifier.graphKey k = k := by
  induction h with
  | own htakes hreads =>
    rw [CompilesTo.eq_graphKey hreads]
    exact Specifier.graphKey_graphKey _
  | inner htakes hs hremote hhome _ ih => exact ih

theorem ServedIn.graphKey {app : App} {events : List Event} {k : Specifier}
    (h : ServedIn app events k) : Specifier.graphKey k = k := by
  induction h with
  | now hserves => exact hserves.graphKey
  | later _ ih => exact ih

/-- What is recorded in a session is recorded under a key. -/
theorem hasGraphKeys_performAll {app : App} (h : app.graph.HasGraphKeys) (events : List Event) :
    (app.performAll events).graph.HasGraphKeys := by
  have hdeps (a : App) (k : Specifier) : (a.depsAt k).isSome = (a.graph.get? k).isSome :=
    Option.isSome_map ..
  intro k hk
  rw [← hdeps, isSome_depsAt_performAll, hdeps] at hk
  rcases hk with hbefore | hserved
  · exact h k hbefore
  · exact hserved.graphKey

/-- What a local module imports locally is put down as the key of a record exactly if it has
neither query nor fragment.  The importer is among the dependents of the module that is served for
the import, when that has been compiled as well, exactly if the key of the import is put down, and
the URL of the import has the version of that module exactly as far as the import is that key. -/
theorem compile_meets_records {app : App} (hstart : app.graph.HasGraphKeys) (events : List Event)
    {importer : Specifier} (hi : Specifier.isRemote importer = false) (isDev : Bool)
    (importMap : ImportMap) (source : String) (now : Version) (css : Option String) :
    let g := (app.performAll events).graph
    let options := Script.optionsOf isDev importMap g importer
    let out := Script.compile options importer source
    let recorded := g.mark now importer out.deps css
    ∀ d ∈ out.deps, Specifier.isRemote d = false →
      (Specifier.graphKey d = d ↔ '?' ∉ d.toList ∧ '#' ∉ d.toList) ∧
      (importer ∈ recorded.dependents (Specifier.graphKey d) ↔ Specifier.graphKey d ∈ out.deps) ∧
      (∀ (p : Pipeline) (disk : Disk) (r : ModuleRequest) (text : Except CompileError String)
        (c : Compiled) (later : Version), p.compile? disk recorded r text = .ok (some c) →
        Specifier.graphKey r.specifier = Specifier.graphKey d → Specifier.graphKey d ≠ importer →
        c.key = Specifier.graphKey d ∧
          (importer ∈ (recorded.mark later c.key c.deps c.inlineCss).dependents c.key ↔
            Specifier.graphKey d ∈ out.deps)) ∧
      ∀ m ∈ Script.mentions (Script.dropTypeImports source.toList), m.isDynamic = false →
        Script.resolveMention options importer m = some d →
        ∃ url path query, Script.rewriteMention options importer m = m.withSpecifier url ∧
          Text.cut '?' url = some (path, query) ∧
          ModuleRequest.values "v".toList query =
            [(if Specifier.graphKey d = d then g.servedVersion importer (Specifier.graphKey d)
              else g.initial).token.toList] := by
  intro g options out recorded d _ hd
  have hkeys : g.HasGraphKeys := hasGraphKeys_performAll hstart events
  have hrecorded : importer ∈ recorded.dependents (Specifier.graphKey d) ↔
      Specifier.graphKey d ∈ out.deps :=
    Graph.mem_dependents_mark_self g now importer _ out.deps css
  refine ⟨Specifier.graphKey_eq_self_iff hd, hrecorded, ?_, ?_⟩
  · intro p disk r text c later hcompile hsame hother
    have hkey : c.key = Specifier.graphKey d := (Pipeline.compile?_reported hcompile).1.trans hsame
    refine ⟨hkey, ?_⟩
    rw [← hrecorded, hkey]
    exact Graph.mem_dependents_mark_ne recorded later _ c.deps c.inlineCss hother.symm
  · intro m _ hstatic hmeans
    have hversion : (if Specifier.graphKey d = d then g.servedVersion importer (Specifier.graphKey d)
        else g.initial) = g.servedVersion importer d := by
      split
      · rename_i hkey
        rw [hkey]
      · rename_i hkey
        exact (hkeys.servedVersion importer hkey).symm
    rw [hversion]
    exact Script.rewriteMention_static g hi hd hstatic hmeans

/-- An app with two modules, of which one has a given text. -/
def importsApp (text : String) : App :=
  aloneOn ⟨"/app", Dict.ofList [("a.ts", .file text.toUTF8), ("x.ts", .file ByteArray.empty)]⟩ {}

/-- The request for a module by its path. -/
def requestFor (path : String) : Event := .request ⟨"", "", path, none⟩

/-- A module that imports another by its name alone is among its dependents. -/
theorem compile_meets_records_plain :
    let app := importsApp "import './x.ts';"
    let g := (app.performAll [requestFor "/x.ts"]).graph
    let out := Script.compile (Script.optionsOf true ImportMap.empty g "./a.ts") "./a.ts"
      "import './x.ts';"
    app.graph.HasGraphKeys ∧ Specifier.isRemote "./a.ts" = false ∧ "./x.ts" ∈ out.deps ∧
      "./a.ts" ∈ (g.mark 9 "./a.ts" out.deps none).dependents "./x.ts" := by
  intro app g out
  have hdep : "./x.ts" ∈ out.deps := by decide +kernel
  have hlocal : Specifier.isRemote "./a.ts" = false := by decide
  have hstart : app.graph.HasGraphKeys := Graph.hasGraphKeys_new 7
  obtain ⟨-, hrecorded, -⟩ := compile_meets_records hstart [requestFor "/x.ts"] hlocal true
    ImportMap.empty "import './x.ts';" 9 none "./x.ts" hdep (by decide)
  exact ⟨hstart, hlocal, hdep, hrecorded.2 hdep⟩

/-- A module that imports another with a query is not among the dependents of the record that is
made when the other one is served, be it for the URL of this very import, and the URL has the
initial version in place of the later one of that record. -/
theorem compile_misses_record :
    let before := (importsApp "import './x.ts?raw';").performAll [requestFor "/x.ts"]
    let here := before.perform (requestFor "/a.ts")
    Specifier.graphKey "./x.ts?raw" = "./x.ts" ∧
      (here.graph.get? "./a.ts").map (·.deps) = some ["./x.ts?raw"] ∧
      here.graph.dependents "./x.ts" = [] ∧
      ((answer ⟨"", "", "/a.ts", none⟩).run before).1.bodyText = "import '/x.ts%3Fraw?v=7';" ∧
      before.graph.versionOf "./x.ts" = 8 ∧
      (here.perform (.request ⟨"", "", "/x.ts%3Fraw", some "v=7"⟩)).graph.versionOf "./x.ts" = 10 := by
  decide +kernel

end App
end Waymark
