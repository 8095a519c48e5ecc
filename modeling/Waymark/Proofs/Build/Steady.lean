import Waymark.Proofs.App.Verdict
import Waymark.Proofs.Build.Levels
/-!
# Apps that stay as they are

Where a module leads is read off the graph once the module has been asked for.  This
says nothing of the order in which modules are asked for as long as nothing changes
that they are compiled from: not the compilers, not what is fetched, and not the files
on the disk, although the walk writes to that disk itself.

`Steady` holds these conditions together.  The last of them has to be asked for: two
names of one module lead to the same record, so a module could lead to more once it has
been asked for under its other name.

`Since` is what one state of a walk has in common with a later one.

## Main results

* `served_iff` — whether a module is served is a matter of its verdict.
* `Since.verdictOf` — the verdict stays the same all through a walk.
* `leadsTo_of_recorded` — so does what a module leads to, once it is recorded.
-/

namespace Waymark.Build

open App

/-! ## Asking for one module -/

/-- The URI under which a module is asked for. -/
def uriOf? (s : Specifier) : Option Uri := (Uri.parse (Specifier.requestPath s)).toOption

theorem uriOf?_of_parse {s : Specifier} {uri : Uri}
    (huri : Uri.parse (Specifier.requestPath s) = .ok uri) : uriOf? s = some uri := by
  rw [uriOf?, huri]
  rfl

theorem uriOf?_of_parse_error {s : Specifier} {e : UriError}
    (he : Uri.parse (Specifier.requestPath s) = .error e) : uriOf? s = none := by
  rw [uriOf?, he]
  rfl

/-- The app after it was asked for a module. -/
def askOne (app : App) (s : Specifier) : App :=
  match Uri.parse (Specifier.requestPath s) with
  | .ok uri => ((answer uri).run app).2
  | .error _ => app

/-- The app answers the request for a module with a success. -/
def Served (app : App) (s : Specifier) : Prop :=
  ∃ uri, Uri.parse (Specifier.requestPath s) = .ok uri ∧
    ((answer uri).run app).1.isSuccess = true

/-- The modules that a module leads to, as they are found when it is asked for first. -/
def leadsTo (app : App) (s : Specifier) : List Specifier := nextSpecifiers (askOne app s).graph s

/-! ## What stays the same -/

/-- The disks that can come of one when files of these modules are written to the output
directory, in any order and with any content. -/
inductive Written (outDir : String) (members : Set Specifier) (d : Disk) : Disk → Prop where
  | refl : Written outDir members d d
  | way {d₁ d₂ : Disk} {s : Specifier} (h : Written outDir members d d₁) (hs : s ∈ members)
      (hd : makeWay d₁ (Disk.join outDir (Specifier.savePath s)) = .ok d₂) :
      Written outDir members d d₂
  | file {d₁ d₂ : Disk} {s : Specifier} {content : ByteArray} (h : Written outDir members d d₁)
      (hs : s ∈ members)
      (hd : writeFile d₁ (Disk.join outDir (Specifier.savePath s)) content = .ok d₂) :
      Written outDir members d d₂

theorem Written.trans {outDir : String} {members : Set Specifier} {d d₁ d₂ : Disk}
    (h₁ : Written outDir members d d₁) (h₂ : Written outDir members d₁ d₂) :
    Written outDir members d d₂ := by
  induction h₂ with
  | refl => exact h₁
  | way _ hs hd ih => exact ih.way hs hd
  | file _ hs hd ih => exact ih.file hs hd

/-- The modules that can be reached. -/
def members (app : App) (seeds : List Specifier) : Set Specifier := reached (leadsTo app) seeds

/-- An app with the default compilers and without a hook, in which nothing changes that the modules
in reach of the seeds are compiled from while they are written to the output directory. -/
structure Steady (app : App) (outDir : String) (seeds : List Specifier) : Prop where
  standard : app.pipeline.IsStandard
  hook : ∀ uri, app.surroundings.hook uri = none
  /-- Content that is fetched is no answer of the app itself, which would change. -/
  away : ∀ s ∈ members app seeds, ∀ r, requestOf? s = some r → FetchesAway app r
  /-- The files that are read are not among those that are written. -/
  files : ∀ d, Written outDir (members app seeds) app.disk d → ∀ s ∈ members app seeds, ∀ r,
    requestOf? s = some r → app.pipeline.SameFiles app.disk d r
  /-- A module leads to the same modules when another one has been asked for since. -/
  next : ∀ s ∈ members app seeds, ∀ t ∈ members app seeds,
    nextSpecifiers (askOne (askOne app s) t).graph s = leadsTo app s

section
variable {app : App} {outDir : String} {seeds : List Specifier}

/-- Where only script from elsewhere is in reach no file matters. -/
theorem steady_of_remote (hstandard : app.pipeline.IsStandard)
    (hhook : ∀ uri, app.surroundings.hook uri = none)
    (hremote : ∀ s ∈ members app seeds, ∀ r, requestOf? s = some r →
      app.pipeline.classify r.specifier = .script ∧ Specifier.isRemote r.specifier = true ∧
        app.homeUri? r.specifier = none)
    (hnext : ∀ s ∈ members app seeds, ∀ t ∈ members app seeds,
      nextSpecifiers (askOne (askOne app s) t).graph s = leadsTo app s) :
    Steady app outDir seeds := by
  have hsource : ∀ s ∈ members app seeds, ∀ r, requestOf? s = some r →
      app.pipeline.sourceOf? r.specifier = some r.specifier := by
    intro s hs r hr
    unfold Pipeline.sourceOf?
    rw [(hremote s hs r hr).1]
  refine ⟨hstandard, hhook, ?_, ?_, hnext⟩
  · intro s hs r hr source hsome _
    rw [hsource s hs r hr] at hsome
    obtain rfl := Option.some.inj hsome
    exact (hremote s hs r hr).2.2
  · intro d _ s hs r hr
    obtain ⟨hkind, hr_remote, -⟩ := hremote s hs r hr
    refine ⟨?_, ?_, ?_⟩
    · intro source hsome hlocal
      rw [hsource s hs r hr] at hsome
      obtain rfl := Option.some.inj hsome
      rw [hr_remote] at hlocal
      nomatch hlocal
    · intro hstyle
      rw [hkind] at hstyle
      nomatch hstyle
    · intro hstatic
      rw [hkind] at hstatic
      nomatch hstatic

/-! ## A walk under way -/

/-- What is recorded under a key was recorded with one of the modules in reach. -/
def FromMember (app : App) (seeds : List Specifier) (a : App) (k : Specifier) : Prop :=
  ∃ t ∈ members app seeds, ∃ deps, app.verdictOf t = .recorded k deps ∧ a.depsAt k = some deps

/-- The state `a'` of a walk comes after `a`, the modules `asked` having been asked for in
between. -/
structure Since (app : App) (outDir : String) (seeds asked : List Specifier) (a a' : App) :
    Prop where
  pipeline : a'.pipeline = a.pipeline
  surroundings : a'.surroundings = a.surroundings
  homePort : a'.homePort = a.homePort
  disk : Written outDir (members app seeds) a.disk a'.disk
  requests : a'.requests = a.requests ++ asked.filterMap uriOf?
  depsAt : ∀ k, a'.depsAt k = a.depsAt k ∨ FromMember app seeds a' k

theorem Since.refl (a : App) : Since app outDir seeds [] a a :=
  ⟨rfl, rfl, rfl, .refl, by simp, fun _ => Or.inl rfl⟩

theorem FromMember.congr {a a' : App} {k : Specifier} (h : FromMember app seeds a k)
    (hk : a'.depsAt k = a.depsAt k) : FromMember app seeds a' k := by
  obtain ⟨t, ht, deps, hverdict, hdeps⟩ := h
  exact ⟨t, ht, deps, hverdict, hk.trans hdeps⟩

theorem Since.trans {asked asked' : List Specifier} {a b c : App}
    (h : Since app outDir seeds asked a b) (h' : Since app outDir seeds asked' b c) :
    Since app outDir seeds (asked ++ asked') a c where
  pipeline := h'.pipeline.trans h.pipeline
  surroundings := h'.surroundings.trans h.surroundings
  homePort := h'.homePort.trans h.homePort
  disk := h.disk.trans h'.disk
  requests := by rw [h'.requests, h.requests, List.filterMap_append, List.append_assoc]
  depsAt k := by
    rcases h'.depsAt k with hk | hk
    · rcases h.depsAt k with hb | hb
      · exact Or.inl (hk.trans hb)
      · exact Or.inr (hb.congr hk)
    · exact Or.inr hk

/-- A module has been recorded, or there is nothing to record of it.  Another module may have been
recorded under its key since. -/
def Recorded (app : App) (seeds : List Specifier) (s : Specifier) (a : App) : Prop :=
  ∀ k deps, app.verdictOf s = .recorded k deps → FromMember app seeds a k

theorem Recorded.since {s : Specifier} {asked : List Specifier} {a a' : App}
    (h : Recorded app seeds s a) (hsince : Since app outDir seeds asked a a') :
    Recorded app seeds s a' := by
  intro k deps hverdict
  rcases hsince.depsAt k with hk | hk
  · exact (h k deps hverdict).congr hk
  · exact hk

/-! ## Verdicts -/

theorem Since.verdictOf (hsteady : Steady app outDir seeds) {asked : List Specifier} {a : App}
    (h : Since app outDir seeds asked app a) {s : Specifier} (hs : s ∈ members app seeds) :
    a.verdictOf s = app.verdictOf s :=
  verdictOf_steady hsteady.standard h.pipeline h.surroundings (hsteady.files a.disk h.disk s hs)

theorem Since.textOf (hsteady : Steady app outDir seeds) {asked : List Specifier} {a : App}
    (h : Since app outDir seeds asked app a) {s : Specifier} (hs : s ∈ members app seeds)
    {r : ModuleRequest} (hr : requestOf? s = some r) : a.textOf r = app.textOf r :=
  textOf_steady h.pipeline h.surroundings (hsteady.files a.disk h.disk s hs r hr)

theorem Since.fetchesAway (hsteady : Steady app outDir seeds) {asked : List Specifier} {a : App}
    (h : Since app outDir seeds asked app a) {s : Specifier} (hs : s ∈ members app seeds)
    {r : ModuleRequest} (hr : requestOf? s = some r) : FetchesAway a r :=
  (hsteady.away s hs r hr).congr h.pipeline h.homePort

theorem Since.hook (hsteady : Steady app outDir seeds) {asked : List Specifier} {a : App}
    (h : Since app outDir seeds asked app a) (uri : Uri) : a.surroundings.hook uri = none := by
  rw [h.surroundings]
  exact hsteady.hook uri

/-! ## Answers -/

theorem since_of_waits {a a' : App} (h : Waits a a') : Since app outDir seeds [] a a' where
  pipeline := h.keeps.pipeline
  surroundings := h.keeps.surroundings
  homePort := h.keeps.homePort
  disk := h.keeps.disk ▸ .refl
  requests := by rw [h.requests, List.filterMap_nil, List.append_nil]
  depsAt k := Or.inl (congrFun h.depsAt k)

/-- A module that cannot be asked for is no request. -/
theorem since_of_parse_error {a : App} {s : Specifier} {e : UriError}
    (he : Uri.parse (Specifier.requestPath s) = .error e) : Since app outDir seeds [s] a a where
  pipeline := rfl
  surroundings := rfl
  homePort := rfl
  disk := .refl
  requests := by
    rw [List.filterMap_cons, uriOf?_of_parse_error he, List.filterMap_nil, List.append_nil]
  depsAt _ := Or.inl rfl

theorem since_of_receives {a a' : App} {s : Specifier} {uri : Uri}
    (huri : Uri.parse (Specifier.requestPath s) = .ok uri) (h : Receives a uri a') :
    Since app outDir seeds [s] a a' where
  pipeline := h.keeps.pipeline
  surroundings := h.keeps.surroundings
  homePort := h.keeps.homePort
  disk := h.keeps.disk ▸ .refl
  requests := by
    rw [h.requests, List.filterMap_cons, uriOf?_of_parse huri, List.filterMap_nil]
  depsAt k := Or.inl (congrFun h.depsAt k)

/-- An answer leaves the module recorded, if there is anything to record. -/
theorem since_of_settles {a a' : App} {s : Specifier} {answer : Response}
    (hs : s ∈ members app seeds) (h : Settles a (app.verdictOf s) answer a') :
    Since app outDir seeds [] a a' ∧ Recorded app seeds s a' := by
  have hdeps : ∀ k, a'.depsAt k = (app.verdictOf s).depsAfter a.depsAt k := congrFun h.depsAt
  have hrecorded : Recorded app seeds s a' := by
    intro k deps hverdict
    refine ⟨s, hs, deps, hverdict, ?_⟩
    rw [hdeps, hverdict]
    exact if_pos rfl
  refine ⟨⟨h.keeps.pipeline, h.keeps.surroundings, h.keeps.homePort, h.keeps.disk ▸ .refl, ?_, ?_⟩,
    hrecorded⟩
  · rw [h.requests, List.filterMap_nil, List.append_nil]
  · intro k
    cases hverdict : app.verdictOf s with
    | refused =>
      rw [hdeps, hverdict]
      exact Or.inl rfl
    | file =>
      rw [hdeps, hverdict]
      exact Or.inl rfl
    | recorded key deps =>
      by_cases hk : k = key
      · exact Or.inr (hk ▸ hrecorded key deps hverdict)
      · rw [hdeps, hverdict]
        exact Or.inl (if_neg hk)

/-! ## Asking on its own -/

theorem askOne_of_parse {a : App} {s : Specifier} {uri : Uri}
    (huri : Uri.parse (Specifier.requestPath s) = .ok uri) :
    askOne a s = ((answer uri).run a).2 := by
  unfold askOne
  rw [huri]

theorem verdictOf_of_parse_error {a : App} {s : Specifier} {e : UriError}
    (he : Uri.parse (Specifier.requestPath s) = .error e) : a.verdictOf s = .refused := by
  unfold App.verdictOf requestOf?
  rw [he]
  rfl

/-- The answer to the request for a module, in any state of a walk. -/
theorem Since.settles_answer (hsteady : Steady app outDir seeds) {asked : List Specifier}
    {a a' : App} (h : Since app outDir seeds asked app a) {s : Specifier}
    (hs : s ∈ members app seeds) {uri : Uri}
    (huri : Uri.parse (Specifier.requestPath s) = .ok uri) {response : Response}
    (hrun : (answer uri).run a = (response, a')) :
    ∃ seen, Receives a uri seen ∧ Settles seen (app.verdictOf s) response a' := by
  obtain ⟨seen, hseen, hsettles⟩ := App.settles_answer huri (h.hook hsteady uri)
    (fun r hr => h.fetchesAway hsteady hs hr) hrun
  refine ⟨seen, hseen, ?_⟩
  rwa [(h.trans (since_of_receives huri hseen)).verdictOf hsteady hs] at hsettles

theorem served_iff (hsteady : Steady app outDir seeds) {s : Specifier}
    (hs : s ∈ members app seeds) : Served app s ↔ app.verdictOf s ≠ .refused := by
  constructor
  · rintro ⟨uri, huri, hsuccess⟩
    rcases hrun : (answer uri).run app with ⟨response, a'⟩
    rw [hrun] at hsuccess
    obtain ⟨seen, -, hsettles⟩ := (Since.refl app).settles_answer hsteady hs huri hrun
    exact hsettles.success.1 hsuccess
  · intro hverdict
    cases huri : Uri.parse (Specifier.requestPath s) with
    | error e => exact absurd (verdictOf_of_parse_error huri) hverdict
    | ok uri =>
      rcases hrun : (answer uri).run app with ⟨response, a'⟩
      obtain ⟨seen, -, hsettles⟩ := (Since.refl app).settles_answer hsteady hs huri hrun
      refine ⟨uri, huri, ?_⟩
      rw [hrun]
      exact hsettles.success.2 hverdict

/-- Asking for a module records what its verdict says. -/
theorem Since.askOne (hsteady : Steady app outDir seeds) {asked : List Specifier} {a : App}
    (h : Since app outDir seeds asked app a) {s : Specifier} (hs : s ∈ members app seeds) :
    Since app outDir seeds (asked ++ [s]) app (askOne a s) ∧
      (Build.askOne a s).depsAt = (app.verdictOf s).depsAfter a.depsAt := by
  cases huri : Uri.parse (Specifier.requestPath s) with
  | error e =>
    have hask : Build.askOne a s = a := by
      unfold Build.askOne
      rw [huri]
    rw [hask, verdictOf_of_parse_error huri]
    exact ⟨h.trans (since_of_parse_error huri), rfl⟩
  | ok uri =>
    rcases hrun : (answer uri).run a with ⟨response, a'⟩
    obtain ⟨seen, hseen, hsettles⟩ := h.settles_answer hsteady hs huri hrun
    rw [askOne_of_parse huri, hrun]
    dsimp only
    refine ⟨?_, ?_⟩
    · have hsince := (h.trans (since_of_receives huri hseen)).trans
        (since_of_settles hs hsettles).1
      rwa [List.append_nil] at hsince
    · rw [hsettles.depsAt, hseen.depsAt]

/-! ## Where modules lead -/

theorem nextSpecifiers_congr {a a' : App} {s : Specifier}
    (h : a'.depsAt (Specifier.graphKey s) = a.depsAt (Specifier.graphKey s)) :
    nextSpecifiers a'.graph s = nextSpecifiers a.graph s := by
  have hdeps : (a'.graph.get? (Specifier.graphKey s)).map (·.deps) =
      (a.graph.get? (Specifier.graphKey s)).map (·.deps) := h
  unfold nextSpecifiers
  split
  · rfl
  · cases hr : a.graph.get? (Specifier.graphKey s) with
    | none =>
      cases hr' : a'.graph.get? (Specifier.graphKey s) with
      | none => rfl
      | some r' => simp [hr, hr'] at hdeps
    | some r =>
      cases hr' : a'.graph.get? (Specifier.graphKey s) with
      | none => simp [hr, hr'] at hdeps
      | some r' =>
        have heq : r'.deps = r.deps := by simpa [hr, hr'] using hdeps
        dsimp only
        rw [heq]

/-- Once a module is recorded it leads where it leads when it is asked for first. -/
theorem leadsTo_of_recorded (hsteady : Steady app outDir seeds) {asked : List Specifier} {a : App}
    (h : Since app outDir seeds asked app a) {s : Specifier} (hs : s ∈ members app seeds)
    (hrecorded : Recorded app seeds s a) : nextSpecifiers a.graph s = leadsTo app s := by
  obtain ⟨hsince, hasked⟩ := (Since.refl app).askOne hsteady hs
  by_cases hmember : FromMember app seeds a (Specifier.graphKey s)
  · -- Then it is as if that member had been asked for after the module, and nothing else.
    obtain ⟨t, ht, deps, hverdict, hdeps⟩ := hmember
    obtain ⟨-, htwo⟩ := hsince.askOne hsteady ht
    rw [← hsteady.next s hs t ht]
    refine nextSpecifiers_congr ?_
    rw [hdeps, htwo, hverdict]
    exact (if_pos rfl).symm
  · have hkept : a.depsAt (Specifier.graphKey s) = app.depsAt (Specifier.graphKey s) :=
      (h.depsAt _).resolve_right hmember
    refine nextSpecifiers_congr ?_
    rw [hkept, hasked]
    cases hverdict : app.verdictOf s with
    | refused => rfl
    | file => rfl
    | recorded key deps =>
      have hne : Specifier.graphKey s ≠ key := by
        rintro rfl
        exact hmember (hrecorded _ deps hverdict)
      exact (if_neg hne).symm

end

end Waymark.Build
