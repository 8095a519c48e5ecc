import Waymark.Proofs.Build.Saved
import Waymark.Proofs.Build.Tidied
import Waymark.Proofs.Bundle.Kept
/-!
# What the snapshot of a build holds

A build saves the graph when the server program is bundled and before the modules of the
client are written.  So the snapshot holds the records that bundling has left, as they
were then: a module that is compiled for the first time when it is written, such as a
style sheet of the page, is not in it, and a record that is made anew by the walk is in
it as it was before.

What is left to be shown is that nothing is done to the file afterwards.  The walk writes
files over it only if one of its modules has this very file, and the file that is taken
away in the end has another name.

## Main results

* `exists_of_run` — the stages of a build that succeeds.
* `collectModules_records` — a walk has recorded the modules that it has compiled.
* `run_snapshots` — what the snapshot of a build holds.
* `keyed_copyingBundler` — the default bundler keeps records under their own specifiers.
-/

namespace Waymark.Build

open App Emission
open Waymark.Bundle (KeepsState)

/-! ## Stages -/

/-- An app whose graph is saved: it is in being, and on the disk. -/
def savedOn (app : App) (d : Disk) : App := { app.ensureGraph with disk := d }

theorem exists_of_saveAndEmit {bound : Nat} {outDir : String} {files : List Bundle.RouteExports}
    {modules : List Specifier} {bundled walked : App}
    (hrun : (saveAndEmit bound outDir files).run.run bundled = (.ok modules, walked)) :
    ∃ d links, Snapshot.save bundled.graph bundled.disk outDir = .ok d ∧
      pageModules bundled.disk = .ok links ∧
      (collectModulesWithin bound outDir (files.map (·.filename) ++ links ++
        [styleModule bundled.config])).run.run (savedOn bundled d) = (.ok modules, walked) := by
  unfold saveAndEmit at hrun
  rw [run_action_get_bind] at hrun
  dsimp only at hrun
  split at hrun
  · rename_i d hsave
    split at hrun
    · nomatch hrun
    · rename_i links hlinks
      exact ⟨d, links, hsave, hlinks, hrun⟩
  · nomatch hrun

/-- A bundle and what is done after it. -/
theorem exists_of_bundleAndEmit {bound : Nat} {b : Bundler} {entry : Bundle.ServerEntry}
    {files : List Bundle.RouteExports} {outDir : String} {inject : List Bundle.Injected}
    {start left : Run} {modules : List Specifier}
    (hrun : (bundleAndEmit bound b entry files outDir inject).run.run start = (.ok modules, left)) :
    ∃ bundled,
      (b.bundle (policyOf start.app) (jobOf start.app entry files outDir inject)).run.run start.app =
        (.ok (), bundled) ∧
      (saveAndEmit bound outDir files).run.run bundled = (.ok modules, left.app) := by
  rw [run_bundleAndEmit] at hrun
  dsimp only at hrun
  split at hrun
  · nomatch (Prod.mk.inj hrun).1
  · rename_i bundled hbundle
    obtain ⟨hresult, rfl⟩ := Prod.mk.inj hrun
    exact ⟨bundled, hbundle, Prod.ext hresult rfl⟩

theorem exists_of_afterPrepare {bound : Nat} {b : Bundler} {entry : Bundle.ServerEntry}
    {outDir : String} {files : List Bundle.RouteExports} {inject : List Bundle.Injected}
    {start left : Run} {out : Output}
    (hrun : (afterPrepare bound b entry outDir files inject).run.run start = (.ok out, left)) :
    ∃ done, (bundleAndEmit bound b entry files outDir inject).run.run start =
        (.ok out.clientModules, done) ∧ out.routeFiles = files ∧ left = finish inject done := by
  rw [run_afterPrepare] at hrun
  obtain ⟨hout, rfl⟩ := Prod.mk.inj hrun
  rcases hemit : (bundleAndEmit bound b entry files outDir inject).run.run start with
    ⟨e | modules, done⟩
  · rw [hemit] at hout
    nomatch hout
  · rw [hemit] at hout
    obtain rfl := Except.ok.inj hout
    exact ⟨done, rfl, rfl, rfl⟩

/-- The stages of a build that succeeds. -/
theorem exists_of_run {bound : Nat} {b : Bundler} {entry : Bundle.ServerEntry} {app : App}
    {out : Output} {left : Run} (hrun : runWithin bound b entry app = (.ok out, left)) :
    ∃ inject prepared bundled d links walked,
      (prepare entry (outDirOf app)).run.run app = (.ok (out.routeFiles, inject), prepared) ∧
      (b.bundle (policyOf prepared)
        (jobOf prepared entry out.routeFiles (outDirOf app) inject)).run.run prepared =
          (.ok (), bundled) ∧
      Snapshot.save bundled.graph bundled.disk (outDirOf app) = .ok d ∧
      pageModules bundled.disk = .ok links ∧
      (collectModulesWithin bound (outDirOf app) (out.routeFiles.map (·.filename) ++ links ++
        [styleModule bundled.config])).run.run (savedOn bundled d) =
          (.ok out.clientModules, walked) ∧
      left.app = { walked with disk := removeInjected walked.disk inject } := by
  cases hsupported : app.config.build.platform.isSupported with
  | false =>
    rw [build_unsupported hsupported] at hrun
    nomatch hrun
  | true =>
    rw [run_eq_prepared bound b entry hsupported] at hrun
    rcases hprepare : (prepare entry (outDirOf app)).run.run app with
      ⟨e | ⟨files, inject⟩, prepared⟩
    · rw [hprepare] at hrun
      nomatch hrun
    · rw [hprepare] at hrun
      obtain ⟨done, hemit, rfl, rfl⟩ := exists_of_afterPrepare hrun
      obtain ⟨bundled, hbundle, hrest⟩ := exists_of_bundleAndEmit hemit
      obtain ⟨d, links, hsave, hlinks, hwalk⟩ := exists_of_saveAndEmit hrest
      exact ⟨inject, prepared, bundled, d, links, done.app, rfl, hbundle, hsave, hlinks, hwalk, rfl⟩

/-! ## What a walk keeps and records -/

/-- The module is compiled if it is served: its request is not answered otherwise, and it is no
file that is served as it is. -/
structure IsCompiled (a : App) (s : Specifier) (r : ModuleRequest) : Prop where
  request : requestOf? s = some r
  hook (uri : Uri) (huri : Uri.parse (Specifier.requestPath s) = .ok uri) :
    a.surroundings.hook uri = none
  kind : a.pipeline.classify r.specifier ≠ .static

/-- What a walk keeps that writes modules in `S` only: what is recorded stays recorded, and a file
stays as it is, or a module in `S` has been written to it. -/
structure Later (outDir : String) (S : Specifier → Prop) (a a' : App) : Prop where
  surroundings : a'.surroundings = a.surroundings
  pipeline : a'.pipeline = a.pipeline
  recorded (k : Specifier) (h : a.graph.Recorded k) : a'.graph.Recorded k
  grows : Disk.Grows a.disk a'.disk
  kept {path : String} {names : List String} {content : ByteArray}
    (h : a.disk.lookup path = .ok (some names, .file content)) :
    a'.disk.lookup path = .ok (some names, .file content) ∨ ∃ s, S s ∧ ∃ written,
      a'.disk.lookup (Disk.join outDir (Specifier.savePath s)) = .ok (some names, .file written)

section
variable {outDir : String} {S : Specifier → Prop} {a a' : App} {s : Specifier}

theorem Later.refl (a : App) : Later outDir S a a :=
  ⟨rfl, rfl, fun _ => id, .refl a.disk, Or.inl⟩

theorem Later.trans {b c : App} (h : Later outDir S a b) (h' : Later outDir S b c) :
    Later outDir S a c where
  surroundings := h'.surroundings.trans h.surroundings
  pipeline := h'.pipeline.trans h.pipeline
  recorded k hk := h'.recorded k (h.recorded k hk)
  grows := h.grows.trans h'.grows
  kept hfile := by
    rcases h.kept hfile with hfile | ⟨s, hs, written, hover⟩
    · exact h'.kept hfile
    · obtain ⟨written', hover'⟩ := h'.grows.lookup hover
      exact Or.inr ⟨s, hs, written', hover'⟩

/-- An answer leaves all files as they are. -/
theorem later_of_keeps (hkeeps : App.Keeps a a')
    (hrecorded : ∀ k, a.graph.Recorded k → a'.graph.Recorded k) : Later outDir S a a' where
  surroundings := hkeeps.surroundings
  pipeline := hkeeps.pipeline
  recorded := hrecorded
  grows := by
    rw [hkeeps.disk]
    exact .refl a.disk
  kept hfile := by
    rw [hkeeps.disk]
    exact Or.inl hfile

theorem IsCompiled.later {r : ModuleRequest} (h : IsCompiled a' s r) (hlater : Later outDir S a a') :
    IsCompiled a s r where
  request := h.request
  hook := hlater.surroundings ▸ h.hook
  kind := hlater.pipeline ▸ h.kind

/-- The emission has got the code of its module. -/
def IsServed : Emission → Prop
  | .served _ _ => True
  | .placed _ _ => True
  | .emitted _ => True
  | _ => False

/-- If the emission has got the code of a module that is compiled, the module is recorded. -/
def Records (a : App) (s : Specifier) (e : Emission) : Prop :=
  IsServed e → ∀ r, IsCompiled a s r → a.graph.Recorded (Specifier.graphKey r.specifier)

theorem Records.later {e : Emission} (h : Records a s e) (hlater : Later outDir S a a') :
    Records a' s e :=
  fun he r hr => hlater.recorded _ (h he r (hr.later hlater))

theorem exists_of_isServed {answering : Answering}
    (h : IsServed (settle (ofAnswering s answering))) :
    ∃ response, answering = .answered response ∧ response.isSuccess = true := by
  cases answering with
  | reading r => exact h.elim
  | bundling r text => exact h.elim
  | answered response =>
    unfold ofAnswering at h
    dsimp only at h
    split at h
    · rename_i hsuccess
      exact ⟨response, rfl, hsuccess⟩
    · exact h.elim

theorem ask_records {result : Except BuildError Emission}
    (hrun : (ask s).run.run a = (result, a')) :
    Later outDir S a a' ∧ Records a' s (settle result) := by
  cases huri : Uri.parse (Specifier.requestPath s) with
  | error e =>
    rw [run_ask_error huri] at hrun
    obtain ⟨rfl, rfl⟩ := Prod.mk.inj hrun
    exact ⟨.refl a, fun he => he.elim⟩
  | ok uri =>
    rcases hreceive : (receive uri).run a with ⟨answering, a₁⟩
    rw [run_ask huri hreceive] at hrun
    obtain ⟨rfl, rfl⟩ := Prod.mk.inj hrun
    have hkeeps := (touches_receive huri a).1.keeps
    have hkept (k : Specifier) := keeps_receive (keptByAnswers_graph (Graph.keptByMarks_recorded k)) uri a
    have hanswer {r : ModuleRequest} (hr : IsCompiled a s r) :
        RecordedOnSuccess ((receive uri).run a).2 r ((receive uri).run a).1 := by
      refine recorded_of_receive (hr.hook uri huri) ?_ hr.kind
      have hrequest := hr.request
      unfold requestOf? at hrequest
      rw [huri] at hrequest
      dsimp only at hrequest
      split at hrequest
      · nomatch hrequest
      · exact Option.some.inj hrequest
    rw [hreceive] at hkeeps hkept hanswer
    have hlater : Later outDir S a a₁ := later_of_keeps hkeeps hkept
    refine ⟨hlater, fun he r hr => ?_⟩
    obtain ⟨response, rfl, hsuccess⟩ := exists_of_isServed he
    exact hanswer (hr.later hlater) response rfl hsuccess

/-- A file is as it was, or a module was written to it. -/
theorem later_of_writeFile {d : Disk} {content : ByteArray} (hs : S s)
    (hfile : writeFile a.disk (Disk.join outDir (Specifier.savePath s)) content = .ok d) :
    Later outDir S a { a with disk := d } where
  surroundings := rfl
  pipeline := rfl
  recorded _ := id
  grows := (writeFile_grows hfile).1
  kept h := by
    unfold writeFile at hfile
    exact (Disk.write_keeps (eq_ok_of_mapError hfile) h).imp_right fun hover => ⟨s, hs, content, hover⟩

theorem later_of_makeWay {d : Disk} {path : String} (hway : makeWay a.disk path = .ok d) :
    Later outDir S a { a with disk := d } where
  surroundings := rfl
  pipeline := rfl
  recorded _ := id
  grows := makeWay_grows hway
  kept h := by
    unfold makeWay at hway
    dsimp only at hway
    exact Or.inl (Disk.ensureDirectory_keeps_file (eq_ok_of_mapError hway) h)

theorem advance_records {e : Emission} (hs : S s) (hconcerns : Concerns s e) (h : Records a s e)
    {result : Except BuildError Emission} (hrun : (e.advance outDir).run.run a = (result, a')) :
    Later outDir S a a' ∧ Records a' s (settle result) := by
  cases hconcerns with
  | @asked before hfor hwaits =>
    rcases hgo : (goOn before).run a with ⟨answering, a₁⟩
    rw [run_advance_asked hgo] at hrun
    obtain ⟨rfl, rfl⟩ := Prod.mk.inj hrun
    have hkeeps := (touches_goOn hfor a).1.keeps
    have hkept (k : Specifier) := keeps_goOn (keptByAnswers_graph (Graph.keptByMarks_recorded k)) before a
    have hanswer {r : ModuleRequest} (hr : IsCompiled a s r) :
        RecordedOnSuccess ((goOn before).run a).2 r ((goOn before).run a).1 :=
      recorded_of_goOn hfor hwaits hr.request hr.kind
    rw [hgo] at hkeeps hkept hanswer
    have hlater : Later outDir S a a₁ := later_of_keeps hkeeps hkept
    refine ⟨hlater, fun he r hr => ?_⟩
    obtain ⟨response, rfl, hsuccess⟩ := exists_of_isServed he
    exact hanswer (hr.later hlater) response rfl hsuccess
  | served content =>
    rw [run_advance_served] at hrun
    cases hway : makeWay a.disk (Disk.join outDir (Specifier.savePath s)) with
    | error cause =>
      rw [hway] at hrun
      obtain ⟨rfl, rfl⟩ := Prod.mk.inj hrun
      exact ⟨.refl a, fun he => he.elim⟩
    | ok d =>
      rw [hway] at hrun
      obtain ⟨rfl, rfl⟩ := Prod.mk.inj hrun
      have hlater : Later outDir S a { a with disk := d } := later_of_makeWay hway
      exact ⟨hlater, fun _ => h.later hlater trivial⟩
  | placed content =>
    rw [run_advance_placed] at hrun
    cases hfile : writeFile a.disk (Disk.join outDir (Specifier.savePath s)) content with
    | error cause =>
      rw [hfile] at hrun
      obtain ⟨rfl, rfl⟩ := Prod.mk.inj hrun
      exact ⟨.refl a, fun he => he.elim⟩
    | ok d =>
      rw [hfile] at hrun
      obtain ⟨rfl, rfl⟩ := Prod.mk.inj hrun
      have hlater : Later outDir S a { a with disk := d } := later_of_writeFile hs hfile
      exact ⟨hlater, fun _ => h.later hlater trivial⟩
  | emitted next =>
    obtain ⟨rfl, rfl⟩ := Prod.mk.inj hrun
    exact ⟨.refl a, h⟩
  | failed cause =>
    obtain ⟨rfl, rfl⟩ := Prod.mk.inj hrun
    exact ⟨.refl a, h⟩

theorem turnLaw_records (outDir : String) (S : Specifier → Prop) :
    TurnLaw outDir S (Later outDir S) Records where
  refl := Later.refl
  trans := Later.trans
  keep := Records.later
  ask _ hrun := ask_records hrun
  advance hs hconcerns h hrun := advance_records hs hconcerns h hrun

/-- A walk has recorded the modules that it has compiled, and has left all files alone but those of
its modules. -/
theorem collectModules_records {bound : Nat} {seeds modules : List Specifier}
    (hrun : (collectModulesWithin bound outDir seeds).run.run a = (.ok modules, a')) :
    Later outDir (· ∈ modules) a a' ∧ ∀ s ∈ modules, ∀ r, IsCompiled a' s r →
      a'.graph.Recorded (Specifier.graphKey r.specifier) := by
  obtain ⟨hlater, hrecords⟩ :=
    (turnLaw_records outDir (· ∈ modules)).collectModules (fun _ hs => hs) hrun
  refine ⟨hlater, fun s hs => ?_⟩
  obtain ⟨next, hrecord⟩ := hrecords s hs
  exact hrecord trivial

end

/-! ## What is done before and after -/

/-- Of an app, only the disk and the routes have changed. -/
def Prepared (app a : App) : Prop := ∃ disk routes, a = { app with disk, routes }

theorem keeps_resetOutput (app : App) (outDir : String) :
    KeepsState (Prepared app) (resetOutput outDir) := by
  rintro _ ⟨disk, routes, rfl⟩
  unfold resetOutput
  rw [run_action_get_bind]
  dsimp only
  cases disk.resetDirectory outDir with
  | ok d => exact ⟨d, routes, rfl⟩
  | error cause => exact ⟨disk, routes, rfl⟩

theorem keeps_readRoutes (app : App) : KeepsState (Prepared app) readRoutes := by
  rintro _ ⟨disk, routes, rfl⟩
  unfold readRoutes
  rw [run_action_get_bind]
  dsimp only
  split
  · exact ⟨disk, routes, rfl⟩
  · unfold App.refreshRoutes
    cases RouteTable.load app.config.routes disk with
    | error e => exact ⟨disk, routes, rfl⟩
    | ok routes' =>
      have hset (act : App.Action BuildError (List Bundle.RouteExports)) (a : App) :
          (do set a; act).run.run { app with disk, routes } = act.run.run a := rfl
      unfold Except.map
      dsimp only
      rw [hset]
      split
      · exact ⟨disk, routes', rfl⟩
      · exact ⟨disk, routes', rfl⟩

theorem keeps_injectLibrary (app : App) (entry : Bundle.ServerEntry) (outDir : String) :
    KeepsState (Prepared app) (injectLibrary entry outDir) := by
  rintro _ ⟨disk, routes, rfl⟩
  unfold injectLibrary
  rw [run_action_get_bind]
  split
  · dsimp only
    split
    · rename_i d _
      exact ⟨d, routes, rfl⟩
    · exact ⟨disk, routes, rfl⟩
  · exact ⟨disk, routes, rfl⟩

/-- What a preparation does to an app is to change its disk and to find its routes. -/
theorem prepare_prepared {entry : Bundle.ServerEntry} {outDir : String} {app prepared : App}
    {result : Except BuildError (List Bundle.RouteExports × List Bundle.Injected)}
    (h : (prepare entry outDir).run.run app = (result, prepared)) : Prepared app prepared := by
  have hkeeps : KeepsState (Prepared app) (prepare entry outDir) :=
    (keeps_resetOutput app outDir).bind fun _ => (keeps_readRoutes app).bind fun _ =>
      (keeps_injectLibrary app entry outDir).bind fun _ => Bundle.keepsState_pure _
  have hprepared := hkeeps app ⟨app.disk, app.routes, rfl⟩
  rwa [h] at hprepared

/-- The file that is taken away in the end is not one with the name of the snapshot. -/
theorem removeInjected_keeps {d : Disk} {outDir path : String} {inject : List Bundle.Injected}
    (hinject : ∀ file ∈ inject, file.path = Disk.join outDir Bundle.shimFile) {names : List String}
    (hlast : names.getLast? = some Snapshot.fileName) {content : ByteArray}
    (h : d.lookup path = .ok (some names, .file content)) :
    (removeInjected d inject).lookup path = .ok (some names, .file content) := by
  induction inject generalizing d with
  | nil => exact h
  | cons file inject ih =>
    obtain ⟨hfile, hinject⟩ := List.forall_mem_cons.1 hinject
    refine ih hinject ?_
    show ((d.removeFile file.path).toOption.getD d).lookup path = _
    cases hremove : d.removeFile file.path with
    | error cause => exact h
    | ok d' =>
      obtain ⟨gone, old, hgone⟩ : ∃ gone old, d.lookup file.path = .ok (some gone, .file old) := by
        unfold Disk.removeFile at hremove
        obtain ⟨⟨place, entry⟩, hfound, hremove⟩ := exists_of_bind_eq_ok hremove
        cases entry with
        | directory => cases place <;> nomatch hremove
        | file old =>
          cases place with
          | none => nomatch hremove
          | some gone => exact ⟨gone, old, hfound⟩
      have hname : gone.getLast? = some Bundle.shimFile := by
        rw [hfile] at hgone
        exact Disk.getLast?_of_lookup_join (by decide) hgone
      have hne : names ≠ gone := by
        rintro rfl
        have hsame := Option.some.inj (hlast.symm.trans hname)
        revert hsame
        decide
      have hkept := Disk.removeFile_keeps hgone hne h
      rwa [hremove] at hkept

/-- Two paths lead to one file. -/
def LeadAlike (d : Disk) (path other : String) : Prop :=
  ∃ names content, d.lookup path = .ok (some names, .file content) ∧
    d.lookup other = .ok (some names, .file content)

/-- Files below a directory that have plain names are one file only under the same names. -/
theorem LeadAlike.namesOf_eq {d : Disk} {out : List String} {file other : String}
    (hout : ∀ name ∈ out, Disk.IsPlain name) (hfile : ['/'].isPrefixOf file.toList = false)
    (hother : ['/'].isPrefixOf other.toList = false)
    (hplain : ∀ name ∈ Disk.namesOf file ++ Disk.namesOf other, Disk.IsPlain name)
    (h : LeadAlike d (Disk.join (d.pathOf (Disk.keyOf out)) file)
      (Disk.join (d.pathOf (Disk.keyOf out)) other)) : Disk.namesOf file = Disk.namesOf other := by
  obtain ⟨names, content, hpath, hover⟩ := h
  obtain ⟨found, hfound, hleads, -⟩ := Disk.lookup_iff.1 hpath
  obtain ⟨met, hmet, hleads', -⟩ := Disk.lookup_iff.1 hover
  obtain rfl := Option.some.inj hfound
  obtain rfl := Option.some.inj hmet
  have hnames := hleads.eq_append hout hfile fun name hname =>
    hplain name (List.mem_append_left _ hname)
  have hnames' := hleads'.eq_append hout hother fun name hname =>
    hplain name (List.mem_append_right _ hname)
  exact List.append_cancel_left (hnames.symm.trans hnames')

theorem restore_of_lookup {d : Disk} {path : String} {names : List String} {s : Snapshot}
    (h : d.lookup path = .ok (some names, .file s.render.toUTF8)) :
    Snapshot.restore d path = .ok s := by
  have hread : d.readText path = .ok s.render := by
    have htext : String.fromUTF8? s.render.toUTF8 = some s.render := dif_pos s.render.isValidUTF8
    have hbind (f : ByteArray → Except FileError String) :
        (Except.ok s.render.toUTF8 >>= f) = f s.render.toUTF8 := rfl
    unfold Disk.readText Disk.read
    rw [h]
    dsimp only
    rw [hbind, htext]
    rfl
  unfold Snapshot.restore
  rw [hread]
  dsimp only
  rw [Snapshot.parse_render]

theorem path_of_mem_libraryFile {entry : Bundle.ServerEntry} {c : AppConfig} {outDir : String}
    {inject : List Bundle.Injected} (h : inject = libraryFile entry c outDir) :
    ∀ file ∈ inject, file.path = Disk.join outDir Bundle.shimFile := by
  subst h
  intro file hfile
  unfold libraryFile at hfile
  split at hfile
  · rw [List.mem_singleton.1 hfile]
  · nomatch hfile

/-- A snapshot that is saved is there after a walk, and after what is taken away then, unless a
module was written over it. -/
theorem snapshot_of_later {bundled walked : App} {d : Disk} {outDir : String}
    {S : Specifier → Prop} {inject : List Bundle.Injected}
    (hsave : Snapshot.save bundled.graph bundled.disk outDir = .ok d)
    (hlater : Later outDir S (savedOn bundled d) walked)
    (hinject : ∀ file ∈ inject, file.path = Disk.join outDir Bundle.shimFile) :
    Snapshot.restore (removeInjected walked.disk inject) (Snapshot.pathIn outDir) =
        .ok (Snapshot.ofGraph bundled.graph) ∨
      ∃ s, S s ∧ LeadAlike (removeInjected walked.disk inject) (Snapshot.pathIn outDir)
        (Disk.join outDir (Specifier.savePath s)) := by
  obtain ⟨names, hsaved⟩ := Disk.lookup_of_write hsave
  have hlast : names.getLast? = some Snapshot.fileName :=
    Disk.getLast?_of_lookup_join (by decide) hsaved
  rcases hlater.kept hsaved with hkept | ⟨s, hs, written, hover⟩
  · exact Or.inl (restore_of_lookup (removeInjected_keeps hinject hlast hkept))
  · right
    obtain ⟨content, hfile⟩ := hlater.grows.lookup hsaved
    have hsame : content = written := by
      obtain ⟨found, hfound, -, hfind⟩ := Disk.lookup_iff.1 hfile
      obtain ⟨found', hfound', -, hfind'⟩ := Disk.lookup_iff.1 hover
      obtain rfl := Option.some.inj hfound
      obtain rfl := Option.some.inj hfound'
      exact DiskEntry.file.inj (Option.some.inj (hfind.symm.trans hfind'))
    subst hsame
    exact ⟨s, hs, names, content, removeInjected_keeps hinject hlast hfile,
      removeInjected_keeps hinject hlast hover⟩

/-- A build that succeeds has saved the graph as bundling has left it: unless a module of the client
has this very file, the records that are restored from the snapshot are those of this graph, which
has each record under its own specifier.  The modules of the client that were compiled have a record
in the graph in the end; so they are in the snapshot if they were compiled for the bundle already,
with the dependencies and the style text that they had then. -/
theorem run_snapshots {bound : Nat} {b : Bundler}
    (hb : ∀ policy job, KeepsState (fun a : App => a.graph.Keyed) (b.bundle policy job))
    {entry : Bundle.ServerEntry} {app : App} (hkeyed : app.graph.Keyed) {out : Output} {left : Run}
    (hrun : runWithin bound b entry app = (.ok out, left)) :
    ∃ inject prepared bundled,
      (prepare entry (outDirOf app)).run.run app = (.ok (out.routeFiles, inject), prepared) ∧
      (b.bundle (policyOf prepared)
        (jobOf prepared entry out.routeFiles (outDirOf app) inject)).run.run prepared =
          (.ok (), bundled) ∧
      (Snapshot.restore left.app.disk (Snapshot.pathIn (outDirOf app)) =
          .ok (Snapshot.ofGraph bundled.graph) ∨
        ∃ s ∈ out.clientModules, LeadAlike left.app.disk (Snapshot.pathIn (outDirOf app))
          (Disk.join (outDirOf app) (Specifier.savePath s))) ∧
      (∀ record, record ∈ (Snapshot.ofGraph bundled.graph).modules ↔
        bundled.graph.get? record.specifier = some record) ∧
      ∀ s ∈ out.clientModules, ∀ r, IsCompiled left.app s r →
        left.app.graph.Recorded (Specifier.graphKey r.specifier) := by
  obtain ⟨inject, prepared, bundled, d, links, walked, hprepare, hbundle, hsave, -, hwalk, hleft⟩ :=
    exists_of_run hrun
  obtain ⟨hlater, hrecords⟩ := collectModules_records hwalk
  refine ⟨inject, prepared, bundled, hprepare, hbundle, ?_, ?_, ?_⟩
  · rw [hleft]
    exact snapshot_of_later hsave hlater (path_of_mem_libraryFile (prepare_ok hprepare))
  · have hprepared : prepared.graph.Keyed := by
      obtain ⟨disk, routes, rfl⟩ := prepare_prepared hprepare
      exact hkeyed
    have hbundled : bundled.graph.Keyed := by
      have hkept := hb (policyOf prepared)
        (jobOf prepared entry out.routeFiles (outDirOf app) inject) prepared hprepared
      rwa [hbundle] at hkept
    exact fun record => hbundled.mem_modules_iff
  · intro s hs r hr
    rw [hleft] at hr ⊢
    exact hrecords s hs r ⟨hr.request, hr.hook, hr.kind⟩

/-- The default bundler keeps records under their own specifiers. -/
theorem keyed_copyingBundler (bound : Nat) (policy : Bundle.Policy) (job : Bundle.Job) :
    KeepsState (fun a : App => a.graph.Keyed) ((copyingBundlerWithin bound).bundle policy job) :=
  keeps_copyingBundler (keptByAnswers_graph Graph.keptByMarks_keyed) (fun _ _ h => h) bound policy job

/-- What it takes for a module to be compiled is not changed by a build, if its bundler does not
change it. -/
theorem IsCompiled.of_run {bound : Nat} {b : Bundler} {entry : Bundle.ServerEntry} {app : App}
    (hb : ∀ policy job, KeepsState
      (fun a : App => a.surroundings = app.surroundings ∧ a.pipeline = app.pipeline)
      (b.bundle policy job))
    {s : Specifier} {r : ModuleRequest} (h : IsCompiled app s r) {out : Output} {left : Run}
    (hrun : runWithin bound b entry app = (.ok out, left)) : IsCompiled left.app s r := by
  obtain ⟨inject, prepared, bundled, d, links, walked, hprepare, hbundle, -, -, hwalk, hleft⟩ :=
    exists_of_run hrun
  obtain ⟨disk, routes, rfl⟩ := prepare_prepared hprepare
  have hbundled := hb (policyOf { app with disk, routes })
    (jobOf { app with disk, routes } entry out.routeFiles (outDirOf app) inject)
    { app with disk, routes } ⟨rfl, rfl⟩
  rw [hbundle] at hbundled
  have hlater := (collectModules_records hwalk).1
  have hsurroundings : walked.surroundings = app.surroundings :=
    hlater.surroundings.trans hbundled.1
  have hpipeline : walked.pipeline = app.pipeline := hlater.pipeline.trans hbundled.2
  rw [hleft]
  exact ⟨h.request, hsurroundings ▸ h.hook, hpipeline ▸ h.kind⟩

/-! ## A module that is recorded by the bundler -/

/-- An app without files.  All that it fetches is empty. -/
def bareApp : App :=
  { surroundings := ⟨fun _ => .ok ⟨"", none⟩, fun _ => none, fun _ s _ => .error (.request s)⟩
    pipeline := Pipeline.standard false ImportMap.empty
    disk := ⟨"/a", Dict.empty⟩
    config := { frameworkUrl := "https://h" }
    graph? := none, routes := RouteTable.empty, homePort := 3000, port := 3000
    registered := Dict.empty, now := 7, requests := [], fetched := [] }

/-- A bundler that has one module recorded, with what it leads to and its style text. -/
def markingBundler : Bundler :=
  ⟨fun _ _ => modify fun app =>
    app.withGraph (app.graph.mark app.now "./a.tsx" ["./a.css"] (some "p\x7b\x7d"))⟩

theorem keeps_markingBundler {I : App → Prop} (hI : KeptByAnswers I) (policy : Bundle.Policy)
    (job : Bundle.Job) : KeepsState I (markingBundler.bundle policy job) :=
  fun _ h => hI.marked h _ _ _

/-- What the bundler has recorded. -/
def markedSnapshot : Snapshot := ⟨[⟨"./a.tsx", 8, ["./a.css"], some "p\x7b\x7d"⟩]⟩

/-- The framework's module for styles, which is all that the walk writes, has a file of its own beside
the snapshot. -/
theorem savePath_styleModule :
    ['/'].isPrefixOf (Specifier.savePath (styleModule bareApp.config)).toList = false ∧
      (∀ name ∈ Disk.namesOf Snapshot.fileName ++
        Disk.namesOf (Specifier.savePath (styleModule bareApp.config)), Disk.IsPlain name) ∧
      Disk.namesOf Snapshot.fileName ≠
        Disk.namesOf (Specifier.savePath (styleModule bareApp.config)) := by
  decide +kernel

/-- The build of the app.  The walk does not write over the snapshot. -/
theorem run_bareApp :
    ∃ out left, run markingBundler .standard bareApp = (.ok out, left) ∧
      out.clientModules = [styleModule bareApp.config] ∧
      Snapshot.restore left.app.disk (Snapshot.pathIn (outDirOf bareApp)) = .ok markedSnapshot ∧
      ¬LeadAlike left.app.disk (Snapshot.pathIn (outDirOf bareApp))
        (Disk.join (outDirOf bareApp) (Specifier.savePath (styleModule bareApp.config))) := by
  rcases hrun : run markingBundler .standard bareApp with ⟨result, left⟩
  have hends : result.toOption.map (·.clientModules) = some [styleModule bareApp.config] ∧
      (Snapshot.restore left.app.disk (Snapshot.pathIn (outDirOf bareApp))).toOption =
        some markedSnapshot ∧ left.app.disk.root = bareApp.disk.root := by
    rw [← show _ = result from congrArg Prod.fst hrun, ← show _ = left from congrArg Prod.snd hrun]
    decide +kernel
  obtain ⟨hmodules, hrestored, hroot⟩ := hends
  obtain ⟨out, hout, hclient⟩ := Option.map_eq_some_iff.1 hmodules
  obtain rfl := eq_ok_of_toOption hout
  refine ⟨out, left, rfl, hclient, eq_ok_of_toOption hrestored, fun halike => ?_⟩
  obtain ⟨hrooted, hplain, hne⟩ := savePath_styleModule
  have hdir : outDirOf bareApp = left.app.disk.pathOf (Disk.keyOf ["dist"]) := by
    rw [Disk.pathOf, hroot]
    decide +kernel
  rw [hdir] at halike
  exact hne (halike.namesOf_eq (by decide) (by decide) hrooted hplain)

theorem keyed_bareApp : bareApp.graph.Keyed := by
  intro k r hr
  have hnone : bareApp.graph.get? k = none := rfl
  nomatch hnone.symm.trans hr

/-- The framework's module for styles is compiled in the build. -/
theorem isCompiled_styleModule {out : Output} {left : Run}
    (hrun : run markingBundler .standard bareApp = (.ok out, left)) :
    IsCompiled left.app (styleModule bareApp.config) ⟨styleModule bareApp.config, false⟩ := by
  have hstart : IsCompiled bareApp (styleModule bareApp.config)
      ⟨styleModule bareApp.config, false⟩ :=
    ⟨by decide +kernel, fun _ _ => rfl, by decide +kernel⟩
  have hkept : KeptByAnswers fun a =>
      a.surroundings = bareApp.surroundings ∧ a.pipeline = bareApp.pipeline :=
    ⟨fun h _ => h, fun h _ => h, fun h => h, fun h _ _ _ => h⟩
  exact IsCompiled.of_run (keeps_markingBundler hkept) hstart hrun

/-- The snapshot of the build holds what the bundler has recorded.  The framework's module for styles,
which the walk compiles, is recorded in the end. -/
theorem run_snapshots_marked :
    ∃ out left inject prepared bundled,
      run markingBundler .standard bareApp = (.ok out, left) ∧
      (markingBundler.bundle (policyOf prepared) (jobOf prepared .standard
        out.routeFiles (outDirOf bareApp) inject)).run.run prepared = (.ok (), bundled) ∧
      Snapshot.restore left.app.disk (Snapshot.pathIn (outDirOf bareApp)) = .ok markedSnapshot ∧
      (∀ record ∈ markedSnapshot.modules, bundled.graph.get? record.specifier = some record) ∧
      left.app.graph.Recorded (Specifier.graphKey (styleModule bareApp.config)) := by
  obtain ⟨out, left, hrun, hmodules, hrestored, halone⟩ := run_bareApp
  have hkeyed := keeps_markingBundler (keptByAnswers_graph Graph.keptByMarks_keyed)
  obtain ⟨inject, prepared, bundled, -, hbundle, hsaved, hrecords, hrecorded⟩ :=
    run_snapshots hkeyed keyed_bareApp hrun
  have hsnapshot : Snapshot.ofGraph bundled.graph = markedSnapshot := by
    rcases hsaved with hsaved | ⟨s, hs, halike⟩
    · exact Except.ok.inj (hsaved.symm.trans hrestored)
    · rw [hmodules, List.mem_singleton] at hs
      exact absurd (hs ▸ halike) halone
  rw [hsnapshot] at hrecords
  have hstyle : styleModule bareApp.config ∈ out.clientModules :=
    hmodules ▸ List.mem_singleton_self _
  have hmodule := hrecorded _ hstyle _ (isCompiled_styleModule hrun)
  exact ⟨out, left, inject, prepared, bundled, hrun, hbundle, hrestored,
    fun record => (hrecords record).1, hmodule⟩

/-- The framework's module for styles is compiled when it is written, and it is not in the
snapshot. -/
theorem run_unsnapshotted :
    ¬∀ (b : Bundler) (entry : Bundle.ServerEntry) (app : App) (out : Output) (left : Run),
      run b entry app = (.ok out, left) → ∀ s ∈ out.clientModules, ∀ r, IsCompiled left.app s r →
        ∃ snapshot, Snapshot.restore left.app.disk (Snapshot.pathIn (outDirOf app)) = .ok snapshot ∧
          ∃ record ∈ snapshot.modules, record.specifier = Specifier.graphKey r.specifier ∧
            (left.app.graph.get? record.specifier).map (fun found => (found.deps, found.inlineCss)) =
              some (record.deps, record.inlineCss) := by
  intro h
  obtain ⟨out, left, hrun, hmodules, hrestored, -⟩ := run_bareApp
  have hstyle : styleModule bareApp.config ∈ out.clientModules :=
    hmodules ▸ List.mem_singleton_self _
  obtain ⟨snapshot, hsnapshot, record, hrecord, hkey, -⟩ :=
    h _ _ _ _ _ hrun _ hstyle _ (isCompiled_styleModule hrun)
  obtain rfl := Except.ok.inj (hrestored.symm.trans hsnapshot)
  have hmissing : ∀ record ∈ markedSnapshot.modules,
      record.specifier ≠ Specifier.graphKey (styleModule bareApp.config) := by decide +kernel
  exact hmissing record hrecord hkey

end Waymark.Build
