import Waymark.Proofs.Build.Rounds
import Waymark.Proofs.Specifier.SavePath
/-!
# The files that a walk leaves

When a walk ends, all modules that it has collected have a file in the output directory:
each was written before the walk went on from it, and nothing is taken away afterwards.
Two modules need not have two files, though.  The walk tells modules apart by their whole
specifiers, and files are called after less than that: remote modules that differ only in
their query are collected both and written to one file, and the one that is written last
is left there.

## Main results

* `advance_saves` — the turn that ends the emission of a module has written its file.
* `collectModules_saves` — all modules of a walk have a file when it ends.
* `modules_share_files` — which of them have one file, and which do not.
* `modules_overwritten` — two modules that differ in their query have one file.
-/

namespace Waymark.Build

open App Emission
open Specifier (Site IsSite remoteSite)

section
variable {outDir : String} {a a' : App} {s : Specifier}

/-! ## Emissions -/

/-- The path of a module leads to a file. -/
def IsSaved (outDir : String) (a : App) (s : Specifier) : Prop :=
  ∃ names content, a.disk.lookup (Disk.join outDir (Specifier.savePath s)) =
    .ok (some names, .file content)

theorem IsSaved.grows (h : IsSaved outDir a s) (hgrows : Disk.Grows a.disk a'.disk) :
    IsSaved outDir a' s := by
  obtain ⟨names, content, hlookup⟩ := h
  obtain ⟨content', hlookup'⟩ := hgrows.lookup hlookup
  exact ⟨names, content', hlookup'⟩

theorem eq_ok_of_mapError {ε ε' α : Type} {f : ε → ε'} {x : Except ε α} {y : α}
    (h : x.mapError f = .ok y) : x = .ok y := by
  cases x with
  | error e => nomatch h
  | ok y' =>
    obtain rfl := Except.ok.inj h
    rfl

theorem makeWay_grows {d d' : Disk} {path : String} (h : makeWay d path = .ok d') :
    d.Grows d' := by
  unfold makeWay at h
  dsimp only at h
  exact Disk.ensureDirectory_grows (eq_ok_of_mapError h)

/-- A file that is written is found. -/
theorem writeFile_grows {d d' : Disk} {path : String} {content : ByteArray}
    (h : writeFile d path content = .ok d') :
    d.Grows d' ∧ ∃ names, d'.lookup path = .ok (some names, .file content) := by
  unfold writeFile at h
  have hwrite := eq_ok_of_mapError h
  exact ⟨Disk.write_grows hwrite, Disk.lookup_of_write hwrite⟩

/-- If the emission has come to its end, then the file of its module is there. -/
def Keeps (outDir : String) (a : App) (s : Specifier) (e : Emission) : Prop :=
  ∀ next, e = .emitted next → IsSaved outDir a s

theorem disk_of_ask {result : Except BuildError Emission} (hrun : (ask s).run.run a = (result, a')) :
    a'.disk = a.disk := by
  cases huri : Uri.parse (Specifier.requestPath s) with
  | error e =>
    rw [run_ask_error huri] at hrun
    obtain ⟨-, rfl⟩ := Prod.mk.inj hrun
    rfl
  | ok uri =>
    rcases hreceive : (receive uri).run a with ⟨answering, a₁⟩
    rw [run_ask huri hreceive] at hrun
    obtain ⟨-, rfl⟩ := Prod.mk.inj hrun
    have htouches := (touches_receive huri a).1
    rw [hreceive] at htouches
    exact htouches.keeps.disk

/-- No turn takes a file away, and the turn that ends the emission of a module has written its
file. -/
theorem advance_saves {e : Emission} (hconcerns : Concerns s e)
    {result : Except BuildError Emission} (hrun : (e.advance outDir).run.run a = (result, a')) :
    Disk.Grows a.disk a'.disk ∧ (Keeps outDir a s e → Keeps outDir a' s (settle result)) := by
  cases hconcerns with
  | @asked before hfor hwaits =>
    rcases hgo : (goOn before).run a with ⟨answering, a₁⟩
    rw [run_advance_asked hgo] at hrun
    obtain ⟨rfl, rfl⟩ := Prod.mk.inj hrun
    obtain ⟨htouches, hfor'⟩ := touches_goOn hfor a
    rw [hgo] at htouches hfor'
    have hpending := (settle_ofAnswering hfor').2.1
    refine ⟨?_, fun _ next he => absurd he (hpending next)⟩
    rw [htouches.keeps.disk]
    exact .refl a.disk
  | served content =>
    rw [run_advance_served] at hrun
    cases hway : makeWay a.disk (Disk.join outDir (Specifier.savePath s)) with
    | error cause =>
      rw [hway] at hrun
      obtain ⟨rfl, rfl⟩ := Prod.mk.inj hrun
      exact ⟨.refl a.disk, fun _ next he => nomatch he⟩
    | ok d =>
      rw [hway] at hrun
      obtain ⟨rfl, rfl⟩ := Prod.mk.inj hrun
      exact ⟨makeWay_grows hway, fun _ next he => nomatch he⟩
  | placed content =>
    rw [run_advance_placed] at hrun
    cases hfile : writeFile a.disk (Disk.join outDir (Specifier.savePath s)) content with
    | error cause =>
      rw [hfile] at hrun
      obtain ⟨rfl, rfl⟩ := Prod.mk.inj hrun
      exact ⟨.refl a.disk, fun _ next he => nomatch he⟩
    | ok d =>
      rw [hfile] at hrun
      obtain ⟨rfl, rfl⟩ := Prod.mk.inj hrun
      obtain ⟨hgrows, names, hlookup⟩ := writeFile_grows hfile
      exact ⟨hgrows, fun _ _ _ => ⟨names, content, hlookup⟩⟩
  | emitted next =>
    obtain ⟨rfl, rfl⟩ := Prod.mk.inj hrun
    exact ⟨.refl a.disk, id⟩
  | failed cause =>
    obtain ⟨rfl, rfl⟩ := Prod.mk.inj hrun
    exact ⟨.refl a.disk, id⟩

/-! ## Walks -/

/-- A walk takes no file away, and an emission that has come to its end keeps its file. -/
theorem turnLaw_saves (outDir : String) :
    TurnLaw outDir (fun _ => True) (fun a a' => Disk.Grows a.disk a'.disk) (Keeps outDir) where
  refl a := .refl a.disk
  trans h h' := Disk.Grows.trans h h'
  keep h hgrows next he := (h next he).grows hgrows
  ask {a a' s result} _ hrun := by
    have halike : Alike a a := ⟨rfl, rfl⟩
    obtain ⟨-, hpending, -⟩ := ask_works (K := "") halike hrun
    refine ⟨?_, fun next he => absurd he (hpending next)⟩
    rw [disk_of_ask hrun]
    exact .refl a.disk
  advance _ hconcerns hkeeps hrun :=
    have hsaves := advance_saves hconcerns hrun
    ⟨hsaves.1, hsaves.2 hkeeps⟩

end

/-- All modules of a walk have a file when it ends. -/
theorem collectModules_saves {app app' : App} {bound : Nat} {outDir : String}
    {seeds modules : List Specifier}
    (hrun : (collectModulesWithin bound outDir seeds).run.run app = (.ok modules, app')) :
    Disk.Grows app.disk app'.disk ∧ ∀ s ∈ modules, IsSaved outDir app' s := by
  obtain ⟨hgrows, hkeeps⟩ := (turnLaw_saves outDir).collectModules (fun _ _ => trivial) hrun
  refine ⟨hgrows, fun s hs => ?_⟩
  obtain ⟨next, hkeep⟩ := hkeeps s hs
  exact hkeep next rfl

/-- The file of a module that is saved below a directory of plain names. -/
theorem IsSaved.exists_file {d : Disk} {out : List String} {a : App} {s : Specifier}
    {p : Site} (h : IsSaved (d.pathOf (Disk.keyOf out)) a s) (hroot : a.disk.root = d.root)
    (hout : ∀ name ∈ out, Disk.IsPlain name) (hp : IsSite s p) :
    ∃ content, a.disk.find? (out ++ p.file) = some (.file content) := by
  obtain ⟨names, content, hlookup⟩ := h
  obtain ⟨names', hplace, hleads, hfind⟩ := Disk.lookup_iff.1 hlookup
  obtain rfl := Option.some.inj hplace
  have hpath : d.pathOf (Disk.keyOf out) = a.disk.pathOf (Disk.keyOf out) := by
    rw [Disk.pathOf, Disk.pathOf, hroot]
  have hplain : ∀ name ∈ Disk.namesOf (Specifier.savePath s), Disk.IsPlain name := by
    rw [hp.namesOf_savePath]
    exact hp.isPlain
  rw [hpath] at hleads
  have hnames := hleads.eq_append hout hp.isPrefixOf_savePath hplain
  rw [hp.namesOf_savePath] at hnames
  exact ⟨content, hnames ▸ hfind⟩

/-- All modules of a walk have a file when it ends, and its names are those of the site of the
module.  Two modules have one file exactly if they have one site, or if the one is called like the
other by the ending that it gets.  Local modules without a query have different files. -/
theorem modules_share_files {app app' : App} {bound : Nat} {out : List String}
    {seeds modules : List Specifier} (hout : ∀ name ∈ out, Disk.IsPlain name)
    (hrun : (collectModulesWithin bound (app.disk.pathOf (Disk.keyOf out)) seeds).run.run app =
      (.ok modules, app'))
    {s t : Specifier} (hs : s ∈ modules) (ht : t ∈ modules) {p q : Site} (hp : IsSite s p)
    (hq : IsSite t q) :
    (Disk.namesOf (Specifier.savePath s) = p.file ∧ Disk.namesOf (Specifier.savePath t) = q.file) ∧
      (∃ content, app'.disk.find? (out ++ p.file) = some (.file content)) ∧
      (∃ content, app'.disk.find? (out ++ q.file) = some (.file content)) ∧
      (Disk.keyOf (out ++ p.file) = Disk.keyOf (out ++ q.file) ↔
        p = q ∨ p.Becomes q ∨ q.Becomes p) ∧
      (Specifier.isRemote s = false → Specifier.isRemote t = false → '?' ∉ s.toList →
        '?' ∉ t.toList → Disk.keyOf (out ++ p.file) = Disk.keyOf (out ++ q.file) → s = t) := by
  obtain ⟨hgrows, hsaved⟩ := collectModules_saves hrun
  have hname {s : Specifier} {p : Site} (hp : IsSite s p) :
      ∀ name ∈ out ++ p.file, Disk.IsName name := by
    intro name hname
    rcases List.mem_append.1 hname with hname | hname
    · exact (hout name hname).toIsName
    · exact (hp.isPlain name hname).toIsName
  have hkey : Disk.keyOf (out ++ p.file) = Disk.keyOf (out ++ q.file) ↔ p.file = q.file := by
    rw [Disk.keyOf_inj (hname hp) (hname hq), List.append_cancel_left_eq]
  refine ⟨⟨hp.namesOf_savePath, hq.namesOf_savePath⟩,
    (hsaved s hs).exists_file hgrows.root hout hp, (hsaved t ht).exists_file hgrows.root hout hq,
    hkey.trans Site.file_eq_iff, ?_⟩
  intro hslocal htlocal hsmark htmark hsame
  exact Specifier.eq_of_file_eq hslocal htlocal hsmark htmark hp hq (hkey.1 hsame)

/-- Two scripts of one directory have two files. -/
theorem modules_share_files_apart :
    ∃ app', (collectModules "/app/out" ["https://h/a.js"]).run.run scriptsApp =
        (.ok ["https://h/a.js", "https://h/b.js"], app') ∧
      (∃ content, app'.disk.find? ["out", "-", "h", "a.js"] = some (.file content)) ∧
      ∃ content, app'.disk.find? ["out", "-", "h", "b.js"] = some (.file content) := by
  obtain ⟨app', hrun, -⟩ := run_scriptsApp
  have hout : ∀ name ∈ ["out"], Disk.IsPlain name := by
    intro name hname
    obtain rfl := List.mem_singleton.1 hname
    exact ⟨⟨by decide, by decide⟩, by decide, by decide⟩
  have ha : IsSite "https://h/a.js" ⟨[['-'], ['h'], "a.js".toList], false⟩ := by
    have hsite : remoteSite ⟨"https".toList, [], [], some ['h'], none, .rooted ["a.js".toList],
        none, none⟩ = ⟨[['-'], ['h'], "a.js".toList], false⟩ := by decide +kernel
    rw [← hsite]
    exact .remote (by decide) (by decide +kernel) (by decide) (by decide)
  have hb : IsSite "https://h/b.js" ⟨[['-'], ['h'], "b.js".toList], false⟩ := by
    have hsite : remoteSite ⟨"https".toList, [], [], some ['h'], none, .rooted ["b.js".toList],
        none, none⟩ = ⟨[['-'], ['h'], "b.js".toList], false⟩ := by decide +kernel
    rw [← hsite]
    exact .remote (by decide) (by decide +kernel) (by decide) (by decide)
  have hdir : scriptsApp.disk.pathOf (Disk.keyOf ["out"]) = "/app/out" := by decide +kernel
  have hrun' := hrun
  rw [← hdir] at hrun'
  obtain ⟨-, hfile_a, hfile_b, -⟩ := modules_share_files hout hrun' (List.mem_cons_self ..)
    (List.mem_cons_of_mem _ (List.mem_cons_self ..)) ha hb
  have hnames_a : ["out"] ++ Site.file ⟨[['-'], ['h'], "a.js".toList], false⟩ =
      ["out", "-", "h", "a.js"] := by decide +kernel
  have hnames_b : ["out"] ++ Site.file ⟨[['-'], ['h'], "b.js".toList], false⟩ =
      ["out", "-", "h", "b.js"] := by decide +kernel
  exact ⟨app', hrun, hnames_a ▸ hfile_a, hnames_b ▸ hfile_b⟩

/-- An app that fetches a script under two names, which differ in their query. -/
def queriedApp : App :=
  { scriptsApp with surroundings := ⟨fun url =>
      if url = "https://h/x?dev" then .ok ⟨"import './x';", none⟩
      else if url = "https://h/x" then .ok ⟨"export const x = 1;", none⟩
      else .error (.request url), fun _ => none, fun _ s _ => .error (.request s)⟩ }

/-- Two modules that differ in their query have one file, and what was written first is lost. -/
theorem modules_overwritten :
    ∃ app', (collectModules "/app/out" ["https://h/x?dev"]).run.run queriedApp =
        (.ok ["https://h/x", "https://h/x?dev"], app') ∧
      Specifier.savePath "https://h/x" = "-/h/x.js" ∧
      Specifier.savePath "https://h/x?dev" = "-/h/x.js" ∧ app'.disk.fileCount = 1 ∧
      (app'.disk.readText "/app/out/-/h/x.js").toOption = some "export const x = 1;" := by
  rcases hrun : (collectModules "/app/out" ["https://h/x?dev"]).run.run queriedApp with
    ⟨result, app'⟩
  have hends : result.toOption = some ["https://h/x", "https://h/x?dev"] ∧
      app'.disk.fileCount = 1 ∧
      (app'.disk.readText "/app/out/-/h/x.js").toOption = some "export const x = 1;" := by
    rw [← show _ = result from congrArg Prod.fst hrun, ← show _ = app' from congrArg Prod.snd hrun]
    decide +kernel
  obtain ⟨hresult, hcount, hread⟩ := hends
  obtain rfl := eq_ok_of_toOption hresult
  exact ⟨app', rfl, by decide +kernel, by decide +kernel, hcount, hread⟩

end Waymark.Build
