import Waymark.Proofs.App.Verdict
import Waymark.Proofs.Disk.Writing
import Waymark.Proofs.Specifier.Marked
import Waymark.Proofs.Specifier.Mounted
/-!
# The file that is opened for a request

A request path is refused if two dots stand between its slashes.  Only then it is decoded
and cleaned, and the query and the fragment are cut off the specifier that comes of it,
so what an escape stands for may lead up all the same.

Cleaning leaves no dots that lead up, whatever was escaped, and backslashes separate
segments there as slashes do.  The cut comes last and may leave some: a segment that
begins with two dots and an escaped mark is one that cleaning keeps, and is cut to the
dots.  They end the path, so what is looked up is a directory, and nothing is served from
there; but it may be a directory that the root lies in.

## Main results

* `Disk.read_pathOf_dots` — no file is read where a path below the root ends in two dots.
* `App.run_respondWith_source`, `App.run_respondWith_static` — the file that is opened.
* `App.respondWith_opens` — where it is, and when its path leads up.
-/

namespace Waymark

namespace ModuleRequest

/-- What is not asked for as a remote module is asked for by its path, decoded and clean. -/
theorem specifier_parse {path : String} {query : Option String}
    (h : Specifier.isRemote (parse path query).specifier = false) :
    (parse path query).specifier = "." ++ Specifier.clean (Specifier.decodePath path) := by
  have hlocal : Specifier.isRemote (Specifier.ofRequestPath path) = false := by
    cases hremote : Specifier.isRemote (Specifier.ofRequestPath path) with
    | false => rfl
    | true =>
      unfold parse at h
      dsimp only at h
      split at h
      · rw [Specifier.isRemote_append, hremote] at h
        exact h
      · exact hremote.symm.trans h
  have hparse : (parse path query).specifier = Specifier.ofRequestPath path := by
    unfold parse
    dsimp only
    rw [hlocal, Bool.false_and, if_neg Bool.false_ne_true]
  rw [hparse, Specifier.ofRequestPath_of_local hlocal]

end ModuleRequest

namespace Disk

/-- No file is read where a path below the root ends in two dots. -/
theorem read_pathOf_dots {d : Disk} {before : List (List Char)} {path : String}
    (hbefore : ∀ b ∈ before, b ≠ [] ∧ '/' ∉ b)
    (hpath : path.toList = Text.joinPieces '/' (before ++ [['.', '.']]))
    (hrooted : ['/'].isPrefixOf path.toList = false) (content : ByteArray) :
    d.read (d.pathOf path) ≠ .ok content := by
  have hpieces : ∀ b ∈ before ++ [['.', '.']], b ≠ [] ∧ '/' ∉ b := by
    intro b hb
    rcases List.mem_append.1 hb with hb | hb
    · exact hbefore b hb
    · rw [List.mem_singleton.1 hb]
      decide
  have hnames : namesOf path = before.map String.ofList ++ [".."] := by
    rw [namesOf, hpath, Text.segments_joinPieces (fun b hb => (hpieces b hb).2)
      fun b hb => (hpieces b hb).1, List.map_append]
    rfl
  have hentrance : d.entrance? (d.pathOf path) =
      some (.below [], before.map String.ofList ++ [".."]) := by
    rw [entrance?, namesBelow_pathOf hrooted, hnames]
  exact read_dots hentrance content

end Disk

namespace Pipeline

variable {p : Pipeline} {s t : Specifier}

/-- What is read from the disk is local. -/
theorem isRemote_of_readsFile (h : p.readsFile s = true) : Specifier.isRemote s = false := by
  unfold readsFile at h
  split at h
  · rename_i hkind
    unfold classify at hkind
    cases hremote : Specifier.isRemote s with
    | false => rfl
    | true =>
      rw [hremote, if_pos rfl] at hkind
      dsimp only at hkind
      split at hkind
      · cases hkind
      · split at hkind
        · cases hkind
        · split at hkind
          · cases hkind
          · cases hkind
  · cases h
  · exact Bool.not_eq_true' _ ▸ h
  · exact Bool.not_eq_true' _ ▸ h

/-- What is read from the disk and is not compiled is a static file. -/
theorem classify_of_readsFile (h : p.readsFile s = true) (hsource : p.sourceOf? s = none) :
    p.classify s = .static := by
  unfold sourceOf? at hsource
  unfold readsFile at h
  cases hkind : p.classify s with
  | static => rfl
  | style =>
    rw [hkind] at hsource
    cases hsource
  | script =>
    rw [hkind] at hsource
    cases hsource
  | custom =>
    rw [hkind] at h
    cases h

theorem compile?_of_static {d : Disk} {g : Graph} {r : ModuleRequest}
    (h : p.classify r.specifier = .static) (source : Except CompileError String) :
    p.compile? d g r source = .ok none := by
  unfold compile?
  rw [h]

/-- A file whose name ends in a dot is not compiled from its text. -/
theorem sourceOf?_of_extension (hlocal : Specifier.isRemote s = false)
    (h : Specifier.extension s = some "") : p.sourceOf? s = none := by
  have hextension : Specifier.extension (Specifier.stripQuery s) = some "" := by
    rw [Specifier.extension, Specifier.stripQuery_stripQuery]
    exact h
  have hstyle : Specifier.isStyle (Specifier.stripQuery s) = false := by
    rw [Specifier.isStyle, hextension]
    decide
  have hscript : Specifier.isScript (Specifier.stripQuery s) = false := by
    rw [Specifier.isScript, hextension]
    decide
  unfold sourceOf? classify
  dsimp only
  rw [hstyle, hscript, hlocal, if_neg Bool.false_ne_true, if_neg Bool.false_ne_true,
    if_neg Bool.false_ne_true]
  cases (Loader.find? p.loaders (Loader.pathOf s)).isSome with
  | true => rfl
  | false => rfl

/-- The specifier that the text of a local module is read under names its file. -/
theorem stripQuery_of_sourceOf? (hlocal : Specifier.isRemote s = false)
    (h : p.sourceOf? s = some t) :
    Specifier.isRemote t = false ∧ Specifier.stripQuery t = Specifier.stripQuery s := by
  unfold sourceOf? at h
  split at h
  · obtain rfl := Option.some.inj h
    refine ⟨(Specifier.isRemote_graphKey s).trans hlocal, ?_⟩
    rw [Specifier.graphKey, hlocal, if_neg Bool.false_ne_true, Specifier.stripQuery_stripQuery]
  · obtain rfl := Option.some.inj h
    exact ⟨hlocal, rfl⟩
  · cases h

end Pipeline

namespace App

theorem climbs_joinPieces {as : List (List Char)} (h : ∀ a ∈ as, '/' ∉ a) {path : String}
    (hpath : path.toList = Text.joinPieces '/' as) : climbs path = true ↔ ['.', '.'] ∈ as := by
  rw [climbs, hpath]
  by_cases hnil : as = []
  · rw [hnil]
    exact iff_of_false Bool.false_ne_true List.not_mem_nil
  · rw [Text.pieces_joinPieces h hnil, List.any_eq_true]
    constructor
    · rintro ⟨a, ha, heq⟩
      exact of_decide_eq_true heq ▸ ha
    · exact fun hmem => ⟨_, hmem, rfl⟩

/-! ## What is opened -/

/-- The path below the root of the file that is opened for a request. -/
def openedPath (uri : Uri) : String :=
  Specifier.relativePath
    (Specifier.stripQuery (ModuleRequest.parse uri.path uri.query).specifier)

/-- The answer with the file under a path. -/
def fileAt (d : Disk) (path : String) : Response :=
  match d.read path with
  | .ok content => .file (MediaType.ofFileName (Specifier.basename path.toList)) content
  | .error cause =>
    if cause = .notFound ∨ cause = .isDirectory then .notFound else .message 500 cause.message

theorem localText_eq (d : Disk) (s : Specifier) :
    localText d s =
      (d.readText (d.pathOf (Specifier.relativePath (Specifier.stripQuery s)))).mapError
        (.unreadable s) := by
  unfold localText
  cases d.readText (d.pathOf (Specifier.relativePath (Specifier.stripQuery s))) with
  | ok text => rfl
  | error cause => rfl

theorem staticFile_local {d : Disk} {s : Specifier} (h : Specifier.isRemote s = false) :
    staticFile d s = fileAt d (d.pathOf (Specifier.relativePath (Specifier.stripQuery s))) := by
  unfold staticFile
  rw [if_neg (ne_true_of_eq_false h)]
  rfl

/-- Where no file is read, none is served. -/
theorem isSuccess_fileAt {d : Disk} {path : String} (h : ∀ content, d.read path ≠ .ok content) :
    (fileAt d path).isSuccess = false := by
  unfold fileAt
  split
  · rename_i content hread
    exact absurd hread (h content)
  · split
    · exact isSuccess_message (by omega) _
    · exact isSuccess_message (by omega) _

section
variable {fetch : String → Action FetchError RemoteText} {app : App} {uri : Uri}

/-- A module is compiled from the text of the file that is opened for its request. -/
theorem run_respondWith_source (hhook : app.surroundings.hook uri = none)
    (hclimbs : climbs uri.path = false) {s : Specifier}
    (hlocal : Specifier.isRemote (ModuleRequest.parse uri.path uri.query).specifier = false)
    (hsource : app.pipeline.sourceOf? (ModuleRequest.parse uri.path uri.query).specifier = some s) :
    (respondWith fetch uri).run app =
      (respondFrom (ModuleRequest.parse uri.path uri.query)
        ((app.disk.readText (app.disk.pathOf (openedPath uri))).mapError (.unreadable s))).run
        (app.received uri) := by
  obtain ⟨hremote, hstripped⟩ := Pipeline.stripQuery_of_sourceOf? hlocal hsource
  have hreceived : (app.received uri).pipeline.sourceOf?
      (ModuleRequest.parse uri.path uri.query).specifier = some s := hsource
  have hdisk : (app.received uri).disk = app.disk := rfl
  rw [run_respondWith hhook hclimbs rfl, run_state_bind, run_sourceFor, hreceived]
  dsimp only
  rw [run_readSource_local hremote, localText_eq, hstripped, hdisk, openedPath]

/-- What is neither compiled nor loaded is answered with the file that is opened for the
request. -/
theorem run_respondWith_static (hhook : app.surroundings.hook uri = none)
    (hclimbs : climbs uri.path = false)
    (hlocal : Specifier.isRemote (ModuleRequest.parse uri.path uri.query).specifier = false)
    (hkind : app.pipeline.classify (ModuleRequest.parse uri.path uri.query).specifier = .static) :
    (respondWith fetch uri).run app =
      (fileAt app.disk (app.disk.pathOf (openedPath uri)), app.received uri) := by
  have hreceived : (app.received uri).pipeline.sourceOf?
      (ModuleRequest.parse uri.path uri.query).specifier = none := Pipeline.sourceOf?_static hkind
  have hcompiled : (app.received uri).pipeline.compile? (app.received uri).disk
      (app.received uri).graph (ModuleRequest.parse uri.path uri.query) (.ok "") = .ok none :=
    Pipeline.compile?_of_static hkind _
  rw [run_respondWith hhook hclimbs rfl, run_state_bind, run_sourceFor, hreceived]
  dsimp only
  rw [run_respondFrom_static hcompiled, staticFile_local hlocal]
  rfl

/-! ## Where it is -/

section
variable (hlocal : Specifier.isRemote (ModuleRequest.parse uri.path uri.query).specifier = false)

include hlocal

/-- The path that is opened is a clean path up to its first mark. -/
theorem toList_openedPath : (openedPath uri).toList = Text.joinPieces '/'
    (Specifier.beforeMark
      (Specifier.cleanSegments (Specifier.decodePath uri.path).toList)) := by
  rw [openedPath, ModuleRequest.specifier_parse hlocal]
  exact Specifier.toList_relativePath_clean _

theorem isPrefixOf_openedPath : ['/'].isPrefixOf (openedPath uri).toList = false := by
  rw [openedPath, ModuleRequest.specifier_parse hlocal]
  exact Specifier.isPrefixOf_relativePath_clean _

/-- The path that is opened leads up exactly if the first mark of the clean path stands behind two
dots at the beginning of a segment. -/
theorem climbs_openedPath_iff :
    climbs (openedPath uri) = true ↔
      ∃ before a after,
        Specifier.cleanSegments (Specifier.decodePath uri.path).toList = before ++ a :: after ∧
        (∀ b ∈ before, b.all Specifier.isUnmarked = true) ∧
        (['.', '.', '?'] <+: a ∨ ['.', '.', '#'] <+: a) := by
  have hclean : ∀ a ∈ Specifier.cleanSegments (Specifier.decodePath uri.path).toList,
      Specifier.IsCleanSegment a := fun a ha => Specifier.isCleanSegment_of_mem ha
  rw [climbs_joinPieces (Specifier.slash_notMem_beforeMark hclean) (toList_openedPath hlocal),
    Specifier.dots_mem_beforeMark_iff hclean]

/-- If it leads up, then at its end. -/
theorem exists_of_climbs_openedPath (h : climbs (openedPath uri) = true) :
    ∃ before, (∀ b ∈ before, b ≠ [] ∧ '/' ∉ b) ∧
      (openedPath uri).toList = Text.joinPieces '/' (before ++ [['.', '.']]) := by
  obtain ⟨before, a, after, hsegments, hbefore, ha⟩ := (climbs_openedPath_iff hlocal).1 h
  have hclean (b : List Char) (hb : b ∈ before) : Specifier.IsCleanSegment b :=
    Specifier.isCleanSegment_of_mem (hsegments ▸ List.mem_append_left _ hb)
  obtain ⟨hmark, hdots⟩ := Specifier.takeWhile_eq_dots_iff.2 ha
  refine ⟨before, fun b hb => ⟨(hclean b hb).ne_nil, (hclean b hb).slash_notMem⟩, ?_⟩
  rw [toList_openedPath hlocal, hsegments, Specifier.beforeMark_append hbefore hmark, hdots]

/-- Two dots at the end are read as a name with an empty extension. -/
theorem extension_of_climbs_openedPath (h : climbs (openedPath uri) = true) :
    Specifier.extension (ModuleRequest.parse uri.path uri.query).specifier = some "" := by
  obtain ⟨before, -, hopened⟩ := exists_of_climbs_openedPath hlocal h
  have hpath : (Specifier.stripQuery (ModuleRequest.parse uri.path uri.query).specifier).toList =
      Text.joinPieces '/' ((['.'] :: before) ++ [['.', '.']]) := by
    rw [toList_openedPath hlocal] at hopened
    rw [ModuleRequest.specifier_parse hlocal, Specifier.toList_stripQuery_clean, hopened]
    exact (Text.joinPieces_append '/' [['.']] (List.append_ne_nil_of_right_ne_nil _
      (List.cons_ne_nil _ _))).symm
  have hlast := Text.cutLast_joinPieces (List.cons_ne_nil ['.'] before)
    (show '/' ∉ ['.', '.'] by decide)
  rw [Specifier.extension, Specifier.basename, hpath, hlast]
  rfl

/-- Where the path that is opened leads up, no file is served. -/
theorem isSuccess_of_climbs_openedPath (h : climbs (openedPath uri) = true) :
    (fileAt app.disk (app.disk.pathOf (openedPath uri))).isSuccess = false := by
  obtain ⟨before, hbefore, hopened⟩ := exists_of_climbs_openedPath hlocal h
  exact isSuccess_fileAt
    (Disk.read_pathOf_dots hbefore hopened (isPrefixOf_openedPath hlocal))

end

/-- The file that is opened for a request that is not refused: what its module is compiled from, or
what is answered.  It is named by a path that is written below the root, the clean path of the
request up to its first mark.  The path leads up exactly if this mark stands behind two dots at the
beginning of a segment; nothing is compiled or served then. -/
theorem respondWith_opens (hhook : app.surroundings.hook uri = none)
    (hclimbs : climbs uri.path = false)
    (hreads : app.pipeline.readsFile (ModuleRequest.parse uri.path uri.query).specifier = true) :
    let r := ModuleRequest.parse uri.path uri.query
    let path := app.disk.pathOf (openedPath uri)
    let segments := Specifier.cleanSegments (Specifier.decodePath uri.path).toList
    (∀ s, app.pipeline.sourceOf? r.specifier = some s →
        (respondWith fetch uri).run app =
          (respondFrom r ((app.disk.readText path).mapError (.unreadable s))).run
            (app.received uri)) ∧
      (app.pipeline.sourceOf? r.specifier = none →
        (respondWith fetch uri).run app = (fileAt app.disk path, app.received uri)) ∧
      (['/'].isPrefixOf (openedPath uri).toList = false ∧
        (openedPath uri).toList = Text.joinPieces '/' (Specifier.beforeMark segments)) ∧
      (climbs (openedPath uri) = true ↔
        ∃ before a after, segments = before ++ a :: after ∧
          (∀ b ∈ before, b.all Specifier.isUnmarked = true) ∧
          (['.', '.', '?'] <+: a ∨ ['.', '.', '#'] <+: a)) ∧
      (climbs (openedPath uri) = true → app.pipeline.sourceOf? r.specifier = none ∧
        ((respondWith fetch uri).run app).1.isSuccess = false) := by
  intro r path segments
  have hlocal : Specifier.isRemote r.specifier = false := Pipeline.isRemote_of_readsFile hreads
  have hstatic (hsource : app.pipeline.sourceOf? r.specifier = none) :
      (respondWith fetch uri).run app = (fileAt app.disk path, app.received uri) :=
    run_respondWith_static hhook hclimbs hlocal (Pipeline.classify_of_readsFile hreads hsource)
  refine ⟨fun s hsource => run_respondWith_source hhook hclimbs hlocal hsource, hstatic,
    ⟨isPrefixOf_openedPath hlocal, toList_openedPath hlocal⟩, climbs_openedPath_iff hlocal, ?_⟩
  intro hup
  have hsource : app.pipeline.sourceOf? r.specifier = none :=
    Pipeline.sourceOf?_of_extension hlocal (extension_of_climbs_openedPath hlocal hup)
  refine ⟨hsource, ?_⟩
  rw [hstatic hsource]
  dsimp only
  exact isSuccess_of_climbs_openedPath hlocal hup

end

/-- An app with one file. -/
def fileApp : App :=
  { surroundings := ⟨fun url => .error (.request url), fun _ => none,
      fun _ s _ => .error (.request s)⟩
    pipeline := Pipeline.standard false ImportMap.empty
    disk := ⟨"/app", Dict.ofList [("f.txt", .file "x".toUTF8)]⟩
    config := {}
    graph? := none, routes := RouteTable.empty, homePort := 3000, port := 3000
    registered := Dict.empty, now := 7, requests := [], fetched := [] }

/-- Escaped dots are resolved, and what stands behind an escaped mark is left out. -/
theorem respondWith_opens_escaped :
    let uri : Uri := ⟨"", "", "/a/%2e%2e/f.txt%3F%2F..%23", none⟩
    (fileApp.surroundings.hook uri = none ∧ climbs uri.path = false ∧
        fileApp.pipeline.readsFile (ModuleRequest.parse uri.path uri.query).specifier = true) ∧
      openedPath uri = "f.txt" ∧ climbs (openedPath uri) = false ∧
      ∃ contentType, (respondWith fetch uri).run fileApp =
        (.file contentType "x".toUTF8, fileApp.received uri) := by
  intro uri
  have hclimbs : climbs uri.path = false := by decide +kernel
  have hreads : fileApp.pipeline.readsFile
      (ModuleRequest.parse uri.path uri.query).specifier = true := by decide +kernel
  have hsource : fileApp.pipeline.sourceOf?
      (ModuleRequest.parse uri.path uri.query).specifier = none := by decide +kernel
  obtain ⟨-, hstatic, ⟨-, hpath⟩, -, -⟩ := @respondWith_opens fetch fileApp uri rfl hclimbs hreads
  have hopened : openedPath uri = "f.txt" := by
    apply String.toList_inj.1
    rw [hpath]
    decide +kernel
  have hread : fileApp.disk.read (fileApp.disk.pathOf "f.txt") = .ok "x".toUTF8 := rfl
  refine ⟨⟨rfl, hclimbs, hreads⟩, hopened, by rw [hopened]; decide +kernel,
    MediaType.ofFileName (Specifier.basename (fileApp.disk.pathOf "f.txt").toList), ?_⟩
  rw [hstatic hsource, hopened, fileAt, hread]

/-- Dots behind which an escaped mark stands are not resolved: the path that is opened leads above
the root, or behind a file. -/
theorem opens_above_root :
    let above : Uri := ⟨"", "", "/..%3Fx", none⟩
    let behind : Uri := ⟨"", "", "/f.txt/..%3Fx", none⟩
    (climbs above.path = false ∧
        fileApp.pipeline.readsFile (ModuleRequest.parse above.path above.query).specifier = true ∧
        fileApp.disk.pathOf (openedPath above) = "/app/..") ∧
      (climbs behind.path = false ∧
        fileApp.pipeline.readsFile (ModuleRequest.parse behind.path behind.query).specifier = true ∧
        fileApp.disk.pathOf (openedPath behind) = "/app/f.txt/.." ∧
        ((respondWith fetch behind).run fileApp).1 =
          .message 500 "Not a directory (os error 20)") := by
  intro above behind
  have haboveReads : fileApp.pipeline.readsFile
      (ModuleRequest.parse above.path above.query).specifier = true := by decide +kernel
  have hbehindReads : fileApp.pipeline.readsFile
      (ModuleRequest.parse behind.path behind.query).specifier = true := by decide +kernel
  have habove : openedPath above = ".." := by
    apply String.toList_inj.1
    rw [toList_openedPath (Pipeline.isRemote_of_readsFile haboveReads)]
    decide +kernel
  have hbehind : openedPath behind = "f.txt/.." := by
    apply String.toList_inj.1
    rw [toList_openedPath (Pipeline.isRemote_of_readsFile hbehindReads)]
    decide +kernel
  have hclimbs : climbs behind.path = false := by decide +kernel
  have hstatic : fileApp.pipeline.classify
      (ModuleRequest.parse behind.path behind.query).specifier = .static := by decide +kernel
  have hread : fileApp.disk.read (fileApp.disk.pathOf "f.txt/..") = .error .notDirectory := rfl
  refine ⟨⟨by decide +kernel, haboveReads, by rw [habove]; decide +kernel⟩, hclimbs, hbehindReads,
    by rw [hbehind]; decide +kernel, ?_⟩
  rw [run_respondWith_static rfl hclimbs (Pipeline.isRemote_of_readsFile hbehindReads) hstatic,
    hbehind, fileAt, hread]
  rfl

end App
end Waymark
