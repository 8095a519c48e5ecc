import Mathlib.Data.List.Infix
import Waymark.Proofs.Route.Base
import Waymark.Proofs.Route.Filled
/-!
# The order of the routes

A request is answered by the first route of the table that fits, and the routes stand in
order of their ranks: first by the depth of the file, counted in segments of its name, then
by the number of parameters in the path.

The depth is that of the file, not of the path.  As the two go together for most files, a
static page is found before a page with parameters that answers the same path.  The files
that stand for their directory are the exception: `blog/index.tsx` answers `/blog` but is a
segment deeper than `[slug].tsx`, which answers it first.

## Main results

* `Route.paramCount_eq_zero_iff` — what is counted as parameters in a path.
* `RouteFiles.depth_eq` — the depth of a file and the length of its path.
* `RouteTable.find?_eq_some_iff`, `RouteTable.rank_le_of_find?` — which route is found.
* `RouteTable.find?_hasPath` — what is found for the path of a static page.
* `RouteTable.find?_shadows_index` — a static page that is not found.
-/

namespace Waymark

namespace Text

theorem countText_pos_iff {t : List Char} (ht : t ≠ []) (s : List Char) :
    0 < countText t s ↔ t <:+: s := by
  induction s with
  | nil =>
    rw [countText]
    exact ⟨fun h => absurd h (Nat.lt_irrefl 0), fun h => absurd (List.infix_nil.1 h) ht⟩
  | cons c s ih =>
    rw [List.infix_cons_iff, countText]
    cases hfound : List.isPrefixOf? t (c :: s) with
    | some rest =>
      have hsplit := eq_append_of_isPrefixOf? hfound
      have hlength := congrArg List.length hsplit
      have hpos := List.length_pos_iff.2 ht
      rw [List.length_append] at hlength
      have hshorter : rest.length < (c :: s).length := by omega
      dsimp only
      rw [if_pos hshorter]
      exact ⟨fun _ => Or.inl ⟨rest, hsplit.symm⟩, fun _ => Nat.succ_pos _⟩
    | none =>
      dsimp only
      rw [ih]
      constructor
      · exact Or.inr
      · rintro (⟨rest, hrest⟩ | hmore)
        · rw [← hrest, isPrefixOf?_append] at hfound
          cases hfound
        · exact hmore

/-- A segment stands behind a separator, if the text does. -/
theorem cons_infix_of_mem_segments {c : Char} {a s : List Char} (h : a ∈ segments c s) :
    c :: a <:+: c :: s := by
  have hpiece : a ∈ pieces c s := (List.mem_filter.1 h).1
  obtain ⟨before, after, hsplit⟩ := List.append_of_mem hpiece
  cases hpieces : pieces c s with
  | nil => exact absurd hpieces (piecesWhere_ne_nil _ s)
  | cons b bs =>
    have hjoined := cons_joinPieces c b bs
    rw [← hpieces, joinPieces_pieces, hsplit, List.flatMap_append, List.flatMap_cons] at hjoined
    rw [hjoined]
    exact ⟨_, _, List.append_assoc ..⟩

/-- What a text begins with, its first segment begins with. -/
theorem exists_cons_segments {c d : Char} (hd : d ≠ c) (s : List Char) :
    ∃ a as, segments c (d :: s) = (d :: a) :: as := by
  have hnot : ¬decide (d = c) = true := fun h => hd (of_decide_eq_true h)
  cases hpieces : pieces c s with
  | nil => exact absurd hpieces (piecesWhere_ne_nil _ s)
  | cons b bs =>
    have hfirst : pieces c (d :: s) = (d :: b) :: bs := by
      rw [pieces] at hpieces
      rw [pieces, piecesWhere, if_neg hnot, hpieces]
    refine ⟨b, bs.filter (· ≠ []), ?_⟩
    rw [segments, hfirst]
    exact List.filter_cons_of_pos (decide_eq_true (List.cons_ne_nil d b))

/-- A text with a separator in front has one in front of a character exactly if a segment begins
with that character. -/
theorem infix_cons_iff_segments {c d : Char} (hd : d ≠ c) (s : List Char) :
    [c, d] <:+: c :: s ↔ ∃ a, d :: a ∈ segments c s := by
  constructor
  · rintro ⟨before, after, hsplit⟩
    have hsegments : segments c (c :: s) = segments c before ++ segments c (d :: after) := by
      rw [← hsplit, List.append_assoc]
      exact segments_append_cons c before (d :: after)
    obtain ⟨a, as, hfirst⟩ := exists_cons_segments hd after
    refine ⟨a, ?_⟩
    rw [← segments_cons, hsegments, hfirst]
    exact List.mem_append_right _ (List.mem_cons_self ..)
  · rintro ⟨a, ha⟩
    have hprefix : [c, d] <+: c :: d :: a := ⟨a, rfl⟩
    exact hprefix.isInfix.trans (cons_infix_of_mem_segments ha)

end Text

namespace RoutePattern

/-- What a piece of a path binds by its name begins with a colon. -/
theorem name?_ofPiece_eq_none_iff {piece : List Char} :
    (Segment.ofPiece piece).name? = none ↔ ∀ name, piece ≠ ':' :: name := by
  unfold Segment.ofPiece
  split
  · rename_i name
    have hsome : ¬∀ name', ':' :: name ≠ ':' :: name' := fun h => h name rfl
    split
    · exact iff_of_false (Option.some_ne_none _) hsome
    · exact iff_of_false (Option.some_ne_none _) hsome
  · rename_i hnot
    exact iff_of_true rfl fun name hpiece => hnot name hpiece

/-- A piece that binds nothing stands for itself. -/
theorem ofPiece_of_name? {piece : List Char} (h : (Segment.ofPiece piece).name? = none) :
    Segment.ofPiece piece = .literal (String.ofList piece) := by
  have hnot := name?_ofPiece_eq_none_iff.1 h
  unfold Segment.ofPiece
  split
  · rename_i name
    exact absurd rfl (hnot name)
  · rfl

end RoutePattern

namespace Route

/-! ## Ranks -/

/-- Whether no segment of the route's pattern is a parameter. -/
def IsStatic (r : Route) : Prop := ∀ seg ∈ r.pattern.segments, seg.name? = none

instance (r : Route) : Decidable r.IsStatic :=
  inferInstanceAs (Decidable (∀ seg ∈ r.pattern.segments, seg.name? = none))

/-- How many segments the name of the route's file has. -/
def depth (r : Route) : Nat := (Text.pieces '/' r.filename.toList).length

/-- How many parameters are counted in the route's path. -/
def paramCount (r : Route) : Nat := Text.countText ['/', ':'] r.pattern.pathname.toList

theorem rank_eq {r : Route} (h : r.isMagic = false) : r.rank = 100 * r.depth + r.paramCount := by
  rw [rank, h]
  rfl

/-- In a rooted path parameters are counted exactly if there are any. -/
theorem paramCount_eq_zero_iff {r : Route} {path : List Char}
    (hpath : r.pattern.pathname.toList = '/' :: path) : r.paramCount = 0 ↔ r.IsStatic := by
  have hcount : 0 < r.paramCount ↔ ∃ name, ':' :: name ∈ Text.segments '/' path := by
    rw [paramCount, Text.countText_pos_iff (List.cons_ne_nil _ _), hpath,
      Text.infix_cons_iff_segments (by decide)]
  rw [← Nat.le_zero, ← Nat.not_lt, hcount, IsStatic, RoutePattern.segments, hpath,
    Text.segments_cons, List.forall_mem_map]
  constructor
  · intro h piece hpiece
    rw [RoutePattern.name?_ofPiece_eq_none_iff]
    rintro name rfl
    exact h ⟨name, hpiece⟩
  · rintro h ⟨name, hname⟩
    exact RoutePattern.name?_ofPiece_eq_none_iff.1 (h _ hname) name rfl

end Route

/-! ## Requests for a static path -/

namespace RoutePattern

/-- Segments that bind nothing are filled by their own texts. -/
theorem fills_of_static {pieces : List (List Char)}
    (h : ∀ piece ∈ pieces, (Segment.ofPiece piece).name? = none) :
    Fills (pieces.map Segment.ofPiece) (pieces.map String.ofList) [] := by
  induction pieces with
  | nil => exact .nil
  | cons piece pieces ih =>
    obtain ⟨hpiece, hpieces⟩ := List.forall_mem_cons.1 h
    rw [List.map_cons, List.map_cons, ofPiece_of_name? hpiece]
    exact .literal _ (ih hpieces)

/-- A filling of segments that bind nothing is empty, and only of those. -/
theorem Fills.eq_nil_iff {segs : List Segment} {parts : List String}
    {bound : List (String × String)} (h : Fills segs parts bound) :
    bound = [] ↔ ∀ seg ∈ segs, seg.name? = none := by
  rw [← List.filterMap_eq_nil_iff, ← h.names, List.map_eq_nil_iff]

end RoutePattern

namespace Route

/-- Whether the route is one that answers a request. -/
def Answers (r : Route) (host : Option String) (pathname : String) : Prop :=
  r.isMagic = false ∧ (r.pattern.bind host pathname).isSome = true

/-- Whether a path is that of a route, up to slashes at the end. -/
def HasPath (r : Route) (pathname : String) : Prop :=
  Text.dropEndWhile (· = '/') pathname.toList =
    Text.dropEndWhile (· = '/') r.pattern.pathname.toList

instance (r : Route) (pathname : String) : Decidable (r.HasPath pathname) :=
  inferInstanceAs (Decidable (_ = _))

theorem HasPath.pathSegments {r : Route} {pathname : String} (h : r.HasPath pathname) :
    RoutePattern.pathSegments pathname =
      (Text.segments '/' r.pattern.pathname.toList).map String.ofList := by
  rw [RoutePattern.pathSegments, ← Text.segments_dropEndWhile, h, Text.segments_dropEndWhile]

/-- A static path is answered by its route, for whatever host. -/
theorem answers_of_isStatic {r : Route} (hmagic : r.isMagic = false) (hhost : r.pattern.host = none)
    (hstatic : r.IsStatic) (host : Option String) {pathname : String} (hpath : r.HasPath pathname) :
    r.Answers host pathname := by
  have hfits : r.pattern.fitsHost host = true := by
    rw [RoutePattern.fitsHost, hhost]
  have hnone : r.pattern.segments.countP RoutePattern.Segment.isCatchAll = 0 := by
    rw [List.countP_eq_zero]
    intro seg hseg hcatch
    have hname := hstatic seg hseg
    cases seg with
    | literal => cases hcatch
    | param => cases hcatch
    | catchAll => cases hname
  have hfills : RoutePattern.Fills r.pattern.segments (RoutePattern.pathSegments pathname) [] := by
    rw [hpath.pathSegments]
    exact RoutePattern.fills_of_static (List.forall_mem_map.1 hstatic)
  refine ⟨hmagic, ?_⟩
  rw [RoutePattern.bind, if_pos hfits, RoutePattern.matchSegments_of_fills hfills (by omega)]
  rfl

section
variable {r : Route} {host : Option String} {pathname : String}

/-- What answers a request is filled by its path. -/
theorem exists_fills_of_bind {params : Dict String}
    (h : r.pattern.bind host pathname = some params) :
    ∃ bound, RoutePattern.Fills r.pattern.segments (RoutePattern.pathSegments pathname) bound ∧
      params = Dict.ofList bound := by
  rw [RoutePattern.bind] at h
  split at h
  · obtain ⟨bound, hmatch, rfl⟩ := Option.map_eq_some_iff.1 h
    obtain ⟨filled, hfills, rfl⟩ := RoutePattern.exists_fills_of_matchSegments hmatch
    exact ⟨_, hfills, rfl⟩
  · cases h

/-- A route binds nothing exactly if it is static. -/
theorem isStatic_iff_of_bind {params : Dict String}
    (h : r.pattern.bind host pathname = some params) : r.IsStatic ↔ params.entries = [] := by
  obtain ⟨bound, hfills, rfl⟩ := exists_fills_of_bind h
  rw [IsStatic, ← hfills.eq_nil_iff]
  constructor
  · rintro rfl
    rfl
  · intro hempty
    cases bound with
    | nil => rfl
    | cons e bound =>
      have hkey : e.1 ∈ (Dict.ofList (e :: bound)).keys :=
        Dict.mem_keys_ofList.2 (List.mem_cons_self ..)
      rw [Dict.keys, hempty] at hkey
      exact absurd hkey List.not_mem_nil

/-- Without a catch-all, a route that answers a request has a segment for each of its path. -/
theorem Answers.length_segments (h : r.Answers host pathname)
    (hrest : ∀ seg ∈ r.pattern.segments, seg.isCatchAll = false) :
    r.pattern.segments.length = (RoutePattern.pathSegments pathname).length := by
  obtain ⟨params, hparams⟩ := Option.isSome_iff_exists.1 h.2
  obtain ⟨bound, hfills, -⟩ := exists_fills_of_bind hparams
  refine (hfills.length_eq (List.countP_eq_zero.2 fun seg hseg => ?_)).symm
  exact Bool.eq_false_iff.1 (hrest seg hseg)

end

end Route

namespace RouteFiles

/-! ## The depth of a file -/

/-- How a pattern is made of the segments of a file's name. -/
theorem exists_of_pattern? {files : RouteFiles} {file : String} {p : RoutePattern}
    (h : files.pattern? file = some p) :
    ∃ segments closed, closeSegments segments = some closed ∧
      p.pathname.toList = '/' :: Text.joinPieces '/' closed ∧
      (p.host = none → segments = ((Text.segments '/'
        ((files.afterBase? file).getD file.toList)).filter (· ≠ ['.'])).map segmentPattern) := by
  unfold pattern? at h
  split at h
  · dsimp only at h
    obtain ⟨closed, hclosed, rfl⟩ := Option.map_eq_some_iff.1 h
    refine ⟨_, closed, hclosed, String.toList_ofList, ?_⟩
    dsimp only
    split
    · split
      · exact fun hhost => nomatch hhost
      · exact fun _ => rfl
    · exact fun _ => rfl
  · cases h

/-- What is closed is a last segment, which is left out if it stands for its directory. -/
theorem exists_of_closeSegments {segments closed : List (List Char)}
    (h : closeSegments segments = some closed) :
    ∃ init last, segments = init ++ [last] ∧
      closed = if Specifier.trimExtension (String.ofList last) = "index" then init
        else init ++ [(Specifier.trimExtension (String.ofList last)).toList] := by
  unfold closeSegments at h
  split at h
  · cases h
  · rename_i last hlast
    obtain ⟨init, rfl⟩ := List.getLast?_eq_some_iff.1 hlast
    refine ⟨init, last, rfl, ?_⟩
    have hindex : (Specifier.trimExtension (String.ofList last)).toList = "index".toList ↔
        Specifier.trimExtension (String.ofList last) = "index" := String.toList_inj
    rw [List.dropLast_concat] at h
    dsimp only at h
    simp only [hindex] at h
    exact (Option.some.inj h).symm

/-- Only an extension is taken off a name, which keeps its first character. -/
theorem exists_trimExtension (c : Char) (s : List Char) :
    ∃ s', (Specifier.trimExtension (String.ofList (c :: s))).toList = c :: s' ∧ s' <+: s := by
  unfold Specifier.trimExtension
  split
  · rename_i stem ext hcut
    rw [String.toList_ofList, Specifier.cutExtension] at hcut
    split at hcut
    · rename_i stem' ext' hlast
      have hsplit := Text.eq_of_cutLast hlast
      split at hcut
      · cases hcut
      · rename_i hne
        obtain ⟨rfl, rfl⟩ := Prod.mk.inj (Option.some.inj hcut)
        cases stem' with
        | nil => exact absurd rfl hne
        | cons d stem =>
          obtain ⟨rfl, hs⟩ := List.cons.inj hsplit
          exact ⟨stem, String.toList_ofList, ⟨_, hs.symm⟩⟩
    · cases hcut
  · exact ⟨s, String.toList_ofList, List.prefix_rfl⟩

theorem mem_replaceFirst {c d : Char} {u s : List Char} (h : d ∈ Text.replaceFirst c u s) :
    d ∈ u ∨ d ∈ s := by
  unfold Text.replaceFirst at h
  split at h
  · rename_i before after hcut
    rw [Text.eq_of_cut hcut]
    rw [List.mem_append, List.mem_append] at h
    rcases h with (h | h) | h
    · exact Or.inr (List.mem_append_left _ h)
    · exact Or.inl h
    · exact Or.inr (List.mem_append_right _ (List.mem_cons_of_mem _ h))
  · exact Or.inr h

/-- A segment stays as it is, or it begins with a bracket or a dollar sign and turns into the text
of a parameter. -/
theorem segmentPattern_cases (a : List Char) :
    segmentPattern a = a ∨ ∃ c s name, a = c :: s ∧ (c = '[' ∨ c = '$') ∧
      segmentPattern a = ':' :: name ∧ ∀ d ∈ name, d = '+' ∨ d ∈ s := by
  unfold segmentPattern
  split
  · rename_i h
    obtain ⟨t, rfl⟩ := List.isPrefixOf_iff_prefix.1 h.1
    refine Or.inr ⟨'[', "...".toList ++ t, _, rfl, Or.inl rfl, rfl, fun d hd => ?_⟩
    exact (mem_replaceFirst hd).imp List.mem_singleton.1 fun hd => List.mem_append_right _ hd
  split
  · rename_i h
    obtain ⟨t, rfl⟩ := List.isPrefixOf_iff_prefix.1 h.1
    refine Or.inr ⟨'[', t, _, rfl, Or.inl rfl, rfl, fun d hd => Or.inr ?_⟩
    exact (mem_replaceFirst hd).resolve_left List.not_mem_nil
  split
  · rename_i h
    obtain ⟨t, rfl⟩ := List.isPrefixOf_iff_prefix.1 h.1
    exact Or.inr ⟨'$', t, _, rfl, Or.inr rfl, rfl, fun d hd => Or.inr hd⟩
  · exact Or.inl rfl

/-- A segment that can stand between slashes still can as a part of a pattern. -/
theorem segmentPattern_name {a : List Char} (hne : a ≠ []) (hslash : '/' ∉ a) :
    segmentPattern a ≠ [] ∧ '/' ∉ segmentPattern a := by
  rcases segmentPattern_cases a with hsame | ⟨c, s, name, rfl, -, hpattern, hname⟩
  · rw [hsame]
    exact ⟨hne, hslash⟩
  · rw [hpattern]
    refine ⟨List.cons_ne_nil _ _, fun hmem => ?_⟩
    rcases List.mem_cons.1 hmem with hcolon | hmem
    · exact absurd hcolon (by decide)
    · rcases hname '/' hmem with hplus | hmem
      · exact absurd hplus (by decide)
      · exact hslash (List.mem_cons_of_mem _ hmem)

theorem trimExtension_name {a : List Char} (hne : a ≠ []) (hslash : '/' ∉ a) :
    (Specifier.trimExtension (String.ofList a)).toList ≠ [] ∧
      '/' ∉ (Specifier.trimExtension (String.ofList a)).toList := by
  cases a with
  | nil => exact absurd rfl hne
  | cons c s =>
    obtain ⟨s', hstem, hprefix⟩ := exists_trimExtension c s
    rw [hstem]
    refine ⟨List.cons_ne_nil _ _, fun hmem => hslash ?_⟩
    exact (List.cons_prefix_cons.2 ⟨rfl, hprefix⟩).subset hmem

/-- A name stands for its directory as part of a pattern exactly if it does by itself. -/
theorem trimExtension_segmentPattern_eq_index_iff (a : List Char) :
    Specifier.trimExtension (String.ofList (segmentPattern a)) = "index" ↔
      Specifier.trimExtension (String.ofList a) = "index" := by
  have hnot {c : Char} (hc : c ≠ 'i') (s : List Char) :
      Specifier.trimExtension (String.ofList (c :: s)) ≠ "index" := by
    intro hindex
    obtain ⟨s', hstem, -⟩ := exists_trimExtension c s
    rw [hindex] at hstem
    exact hc (List.cons.inj hstem).1.symm
  rcases segmentPattern_cases a with hsame | ⟨c, s, name, rfl, hc, hpattern, -⟩
  · rw [hsame]
  · rw [hpattern]
    refine iff_of_false (hnot (by decide) name) (hnot ?_ s)
    rcases hc with rfl | rfl
    · decide
    · decide

end RouteFiles

namespace Route

/-- Whether the route's file is named `index`, so that it stands for its directory. -/
def IsIndex (r : Route) : Prop :=
  Specifier.trimExtension (String.ofList (Specifier.basename r.filename.toList)) = "index"

instance (r : Route) : Decidable r.IsIndex := inferInstanceAs (Decidable (_ = "index"))

end Route

namespace RouteFiles

/-- Whether a file lies below the base and is written as files are that are found on a disk. -/
def HasFile (files : RouteFiles) (file : String) : Prop :=
  files.isBelow file = true ∧
    ∃ names, names ≠ [] ∧ (∀ name ∈ names, Disk.IsPlain name) ∧
      file = RouteTable.fileSpecifier names

/-- The name of a file is its names joined behind a dot. -/
theorem toList_fileSpecifier_joined {names : List String} (hne : names ≠ []) :
    (RouteTable.fileSpecifier names).toList =
      Text.joinPieces '/' (['.'] :: names.map String.toList) := by
  rw [toList_fileSpecifier]
  cases names with
  | nil => exact absurd rfl hne
  | cons name names => rfl

/-- A path of segments that can stand between slashes has these segments. -/
theorem length_segments_of_joined {p : RoutePattern} {closed : List (List Char)}
    (hpath : p.pathname.toList = '/' :: Text.joinPieces '/' closed)
    (hclosed : ∀ a ∈ closed, a ≠ [] ∧ '/' ∉ a) : p.segments.length = closed.length := by
  rw [RoutePattern.segments, hpath, Text.segments_cons,
    Text.segments_joinPieces (fun a ha => (hclosed a ha).2) (fun a ha => (hclosed a ha).1),
    List.length_map]

section
variable {files : RouteFiles} {r : Route}

/-- The names of a file that is a route: they are those of the base and those that its pattern is
made of. -/
theorem exists_names_of_pattern? (hbase : files.HasBase) (hfile : files.HasFile r.filename)
    (hpattern : files.pattern? r.filename = some r.pattern) (hhost : r.pattern.host = none) :
    ∃ init last,
      (∀ a ∈ files.baseNames.map String.toList ++ init ++ [last], a ≠ [] ∧ '/' ∉ a) ∧
      r.filename.toList = Text.joinPieces '/'
        ((['.'] :: (files.baseNames.map String.toList ++ init)) ++ [last]) ∧
      ∃ closed, r.pattern.pathname.toList = '/' :: Text.joinPieces '/' closed ∧
        closed = if Specifier.trimExtension (String.ofList (segmentPattern last)) = "index"
          then init.map segmentPattern
          else init.map segmentPattern ++
            [(Specifier.trimExtension (String.ofList (segmentPattern last))).toList] := by
  obtain ⟨hbelow, names, hne, hplain, hname⟩ := hfile
  rw [hname] at hbelow
  obtain ⟨rest, hrest, -, hnames⟩ := exists_afterBase?_of_isBelow hbase hplain hne hbelow
  have hwell : ∀ a ∈ names.map String.toList, (a ≠ [] ∧ '/' ∉ a) ∧ a ≠ ['.'] := by
    intro a ha
    obtain ⟨name, hmem, rfl⟩ := List.mem_map.1 ha
    have hname := hplain name hmem
    exact ⟨⟨fun hnil => hname.ne_empty (String.toList_eq_nil_iff.1 hnil), hname.noSlash⟩,
      fun hdot => hname.ne_dot (String.toList_inj.1 hdot)⟩
  rw [hnames] at hwell
  have hkept : (Text.segments '/' rest).filter (· ≠ ['.']) = Text.segments '/' rest :=
    List.filter_eq_self.2 fun a ha => decide_eq_true (hwell a (List.mem_append_right _ ha)).2
  obtain ⟨segments, closed, hclosed, hpath, hsegments⟩ := exists_of_pattern? hpattern
  obtain ⟨init', last', hsplit, hclosed⟩ := exists_of_closeSegments hclosed
  rw [hsegments hhost, hname, hrest, Option.getD_some, hkept] at hsplit
  obtain ⟨init, lasts, hbelow, rfl, hlast⟩ := List.map_eq_append_iff.1 hsplit
  obtain ⟨last, rfl, rfl⟩ := List.map_eq_singleton_iff.1 hlast
  rw [hbelow, ← List.append_assoc] at hnames hwell
  refine ⟨init, last, fun a ha => (hwell a ha).1, ?_, closed, hpath, hclosed⟩
  rw [hname, toList_fileSpecifier_joined hne, hnames]
  rfl

/-- A file of a route is as deep as its path below the base, and an index one deeper. -/
theorem depth_eq (hbase : files.HasBase) (hfile : files.HasFile r.filename)
    (hpattern : files.pattern? r.filename = some r.pattern) (hhost : r.pattern.host = none) :
    (r.IsIndex ∧ r.depth = files.baseNames.length + r.pattern.segments.length + 2) ∨
      (¬r.IsIndex ∧ r.depth = files.baseNames.length + r.pattern.segments.length + 1) := by
  obtain ⟨init, last, hwell, hname, closed, hpath, hclosed⟩ :=
    exists_names_of_pattern? hbase hfile hpattern hhost
  have hlast := hwell last (by simp)
  have hinit (a : List Char) (ha : a ∈ init.map segmentPattern) : a ≠ [] ∧ '/' ∉ a := by
    obtain ⟨b, hb, rfl⟩ := List.mem_map.1 ha
    have hb := hwell b (by simp [hb])
    exact segmentPattern_name hb.1 hb.2
  have hindex : r.IsIndex ↔
      Specifier.trimExtension (String.ofList (segmentPattern last)) = "index" := by
    rw [Route.IsIndex, Specifier.basename, hname,
      Text.cutLast_joinPieces (List.cons_ne_nil _ _) hlast.2,
      trimExtension_segmentPattern_eq_index_iff]
  have hdepth : r.depth = files.baseNames.length + init.length + 2 := by
    have hslash : ∀ a ∈ (['.'] :: (files.baseNames.map String.toList ++ init)) ++ [last],
        '/' ∉ a := by
      intro a ha
      rw [List.cons_append, List.mem_cons] at ha
      rcases ha with rfl | ha
      · decide
      · exact (hwell a ha).2
    rw [Route.depth, hname, Text.pieces_joinPieces hslash
      (List.append_ne_nil_of_left_ne_nil (List.cons_ne_nil _ _) _), List.length_append,
      List.length_cons, List.length_append, List.length_map, List.length_singleton]
  by_cases h : r.IsIndex
  · rw [if_pos (hindex.1 h)] at hclosed
    have hlength := length_segments_of_joined hpath (hclosed ▸ hinit)
    rw [hclosed, List.length_map] at hlength
    exact Or.inl ⟨h, by omega⟩
  · rw [if_neg fun hstem => h (hindex.2 hstem)] at hclosed
    have hparts : ∀ a ∈ closed, a ≠ [] ∧ '/' ∉ a := by
      have hpattern := segmentPattern_name hlast.1 hlast.2
      rw [hclosed]
      intro a ha
      rcases List.mem_append.1 ha with ha | ha
      · exact hinit a ha
      · rw [List.mem_singleton.1 ha]
        exact trimExtension_name hpattern.1 hpattern.2
    have hlength := length_segments_of_joined hpath hparts
    rw [hclosed, List.length_append, List.length_map, List.length_singleton] at hlength
    exact Or.inr ⟨h, by omega⟩

end

end RouteFiles

namespace RouteTable

/-! ## Tables in order -/

/-- A file is compiled to a route with its pattern. -/
theorem pattern?_of_mem_compileAll {files : RouteFiles} {names : List String} {r : Route}
    (h : r ∈ compileAll files names) :
    r.filename ∈ names ∧ files.pattern? r.filename = some r.pattern := by
  obtain ⟨name, hname, hpattern⟩ := List.mem_filterMap.1 h
  obtain ⟨pattern, hcompiled, rfl⟩ := Option.map_eq_some_iff.1 hpattern
  exact ⟨hname, hcompiled⟩

/-- A route of a table is a file with the pattern that the file compiles to. -/
theorem pattern?_of_mem_routes {files : RouteFiles} {names : List String} {r : Route}
    (h : r ∈ (ofFiles files names).routes) :
    r.filename ∈ names ∧ files.pattern? r.filename = some r.pattern := by
  obtain ⟨s, hs, rfl⟩ := List.mem_map.1 h
  have hs : s ∈ compileAll files names := List.mem_mergeSort.1 hs
  have hcompiled := pattern?_of_mem_compileAll hs
  exact hcompiled

theorem ranks_trans (a b c : Route) (hab : decide (a.rank ≤ b.rank) = true)
    (hbc : decide (b.rank ≤ c.rank) = true) : decide (a.rank ≤ c.rank) = true :=
  decide_eq_true (Nat.le_trans (of_decide_eq_true hab) (of_decide_eq_true hbc))

theorem ranks_total (a b : Route) :
    (decide (a.rank ≤ b.rank) || decide (b.rank ≤ a.rank)) = true := by
  rw [Bool.or_eq_true, decide_eq_true_eq, decide_eq_true_eq]
  exact Nat.le_total a.rank b.rank

/-- The routes of a table are in order of their ranks. -/
theorem routes_ascend (files : RouteFiles) (names : List String) :
    (ofFiles files names).routes.Pairwise fun a b => a.rank ≤ b.rank := by
  have hsorted : (inOrder (compileAll files names)).Pairwise
      fun a b => decide (a.rank ≤ b.rank) = true :=
    List.pairwise_mergeSort ranks_trans ranks_total _
  refine List.pairwise_map.2 (hsorted.imp fun hab => ?_)
  exact of_decide_eq_true hab

section
variable {t : RouteTable} {host : Option String} {pathname : String} {r s : Route}
  {params : Dict String}

/-- What comes of trying a route. -/
theorem tried_eq_some_iff :
    (if s.isMagic then none else (s.pattern.bind host pathname).map (s, ·)) = some (r, params) ↔
      s = r ∧ s.isMagic = false ∧ s.pattern.bind host pathname = some params := by
  cases hmagic : s.isMagic with
  | true => simp
  | false =>
    rw [if_neg Bool.false_ne_true, Option.map_eq_some_iff]
    constructor
    · rintro ⟨params', hparams, heq⟩
      obtain ⟨rfl, rfl⟩ := Prod.mk.inj heq
      exact ⟨rfl, rfl, hparams⟩
    · rintro ⟨rfl, -, hparams⟩
      exact ⟨params, hparams, rfl⟩

theorem isSome_tried_iff :
    (if s.isMagic then none else (s.pattern.bind host pathname).map (s, ·)).isSome = true ↔
      s.Answers host pathname := by
  rw [Route.Answers]
  cases s.isMagic with
  | true => simp
  | false => simp

/-- Of the routes that answer a request, the first one is found. -/
theorem find?_eq_some_iff :
    t.find? host pathname = some (r, params) ↔
      ∃ before after, t.routes = before ++ r :: after ∧ r.isMagic = false ∧
        r.pattern.bind host pathname = some params ∧
        ∀ x ∈ before, ¬x.Answers host pathname := by
  rw [find?, List.findSome?_eq_some_iff]
  have hnone (x : Route) :
      (if x.isMagic then none else (x.pattern.bind host pathname).map (x, ·)) = none ↔
        ¬x.Answers host pathname := by
    rw [← isSome_tried_iff, Bool.not_eq_true, Option.isSome_eq_false_iff, Option.isNone_iff_eq_none]
  constructor
  · rintro ⟨before, r', after, hroutes, htried, hbefore⟩
    obtain ⟨rfl, hmagic, hparams⟩ := tried_eq_some_iff.1 htried
    exact ⟨before, after, hroutes, hmagic, hparams, fun x hx => (hnone x).1 (hbefore x hx)⟩
  · rintro ⟨before, after, hroutes, hmagic, hparams, hbefore⟩
    exact ⟨before, r, after, hroutes, tried_eq_some_iff.2 ⟨rfl, hmagic, hparams⟩,
      fun x hx => (hnone x).2 (hbefore x hx)⟩

theorem exists_find? (hs : s ∈ t.routes) (hanswers : s.Answers host pathname) :
    ∃ r params, t.find? host pathname = some (r, params) := by
  have hsome : (t.find? host pathname).isSome = true :=
    List.findSome?_isSome_iff.2 ⟨s, hs, isSome_tried_iff.2 hanswers⟩
  obtain ⟨⟨r, params⟩, hfound⟩ := Option.isSome_iff_exists.1 hsome
  exact ⟨r, params, hfound⟩

/-- What is found in a table in order is of least rank among the routes that answer. -/
theorem rank_le_of_find? (hascend : t.routes.Pairwise fun a b => a.rank ≤ b.rank)
    (h : t.find? host pathname = some (r, params)) (hs : s ∈ t.routes)
    (hanswers : s.Answers host pathname) : r.rank ≤ s.rank := by
  obtain ⟨before, after, hroutes, -, -, hbefore⟩ := find?_eq_some_iff.1 h
  rw [hroutes] at hascend hs
  rcases List.mem_append.1 hs with hs | hs
  · exact absurd hanswers (hbefore s hs)
  · rcases List.mem_cons.1 hs with rfl | hs
    · exact Nat.le_refl _
    · have hafter := (List.pairwise_append.1 hascend).2.1
      exact (List.pairwise_cons.1 hafter).1 s hs

end

/-! ## Static pages -/

theorem paramCount_eq_zero_iff_of_mem {files : RouteFiles} {names : List String} {r : Route}
    (hr : r ∈ (ofFiles files names).routes) : r.paramCount = 0 ↔ r.IsStatic := by
  obtain ⟨-, hpattern⟩ := pattern?_of_mem_routes hr
  obtain ⟨segments, closed, -, hpath, -⟩ := RouteFiles.exists_of_pattern? hpattern
  exact Route.paramCount_eq_zero_iff hpath

/-- In a table without hosts and catch-alls, a request for the path of a static page, up to slashes
at the end, is answered.  The answer is the first route in the table that fits, which is one of
least rank.  It binds nothing if it is static, and only then.  If it is not, its file is less deep
than that of the page; and where files are written as they are found on a disk, the page is the
index of a directory and the answer is none. -/
theorem find?_hasPath {files : RouteFiles} {names : List String}
    (hplain : ∀ r ∈ (ofFiles files names).routes,
      r.pattern.host = none ∧ ∀ seg ∈ r.pattern.segments, seg.isCatchAll = false)
    {s : Route} (hs : s ∈ (ofFiles files names).routes) (hmagic : s.isMagic = false)
    (hstatic : s.IsStatic) (host : Option String) {pathname : String}
    (hpath : s.HasPath pathname) :
    ∃ r params, (ofFiles files names).find? host pathname = some (r, params) ∧
      (∃ before after, (ofFiles files names).routes = before ++ r :: after ∧
        ∀ x ∈ before, ¬x.Answers host pathname) ∧
      (∀ x ∈ (ofFiles files names).routes, x.Answers host pathname → r.rank ≤ x.rank) ∧
      (r.IsStatic ↔ params.entries = []) ∧
      (¬r.IsStatic → r.depth < s.depth) ∧
      (files.HasBase → (∀ x ∈ (ofFiles files names).routes, files.HasFile x.filename) →
        ¬r.IsStatic → s.IsIndex ∧ ¬r.IsIndex) := by
  have hanswers := Route.answers_of_isStatic hmagic (hplain s hs).1 hstatic host hpath
  obtain ⟨r, params, hfound⟩ := exists_find? hs hanswers
  obtain ⟨before, after, hroutes, hrmagic, hparams, hbefore⟩ := find?_eq_some_iff.1 hfound
  have hr : r ∈ (ofFiles files names).routes := by
    rw [hroutes]
    exact List.mem_append_right _ (List.mem_cons_self ..)
  have hleast (x : Route) (hx : x ∈ (ofFiles files names).routes)
      (hxanswers : x.Answers host pathname) : r.rank ≤ x.rank :=
    rank_le_of_find? (routes_ascend files names) hfound hx hxanswers
  have hdepth : ¬r.IsStatic → r.depth < s.depth := by
    intro hparam
    have hrank := hleast s hs hanswers
    have hzero := (paramCount_eq_zero_iff_of_mem hs).2 hstatic
    have hsome : r.paramCount ≠ 0 := fun h => hparam ((paramCount_eq_zero_iff_of_mem hr).1 h)
    rw [Route.rank_eq hrmagic, Route.rank_eq hmagic] at hrank
    omega
  refine ⟨r, params, hfound, ⟨before, after, hroutes, hbefore⟩, hleast,
    Route.isStatic_iff_of_bind hparams, hdepth, ?_⟩
  intro hbase hfiles hparam
  have hlt := hdepth hparam
  have hranswers : r.Answers host pathname := ⟨hrmagic, Option.isSome_of_eq_some hparams⟩
  have hsame : r.pattern.segments.length = s.pattern.segments.length :=
    (hranswers.length_segments (hplain r hr).2).trans
      (hanswers.length_segments (hplain s hs).2).symm
  obtain ⟨-, hrpattern⟩ := pattern?_of_mem_routes hr
  obtain ⟨-, hspattern⟩ := pattern?_of_mem_routes hs
  have hrdepth := RouteFiles.depth_eq hbase (hfiles r hr) hrpattern (hplain r hr).1
  have hsdepth := RouteFiles.depth_eq hbase (hfiles s hs) hspattern (hplain s hs).1
  rcases hrdepth with ⟨-, hrdepth⟩ | ⟨hrindex, hrdepth⟩
  · rcases hsdepth with ⟨-, hsdepth⟩ | ⟨-, hsdepth⟩ <;> omega
  · rcases hsdepth with ⟨hsindex, -⟩ | ⟨-, hsdepth⟩
    · exact ⟨hsindex, hrindex⟩
    · omega

/-- Route files of a directory. -/
def pagesFiles : RouteFiles := ⟨"./routes", .extensions ["tsx"], false⟩

/-- A static page, a page for any path of one segment, and the index of a directory. -/
def pages : List Route :=
  [⟨"./routes/about.tsx", ⟨none, "/about"⟩, false⟩,
    ⟨"./routes/[slug].tsx", ⟨none, "/:slug"⟩, false⟩,
    ⟨"./routes/blog/index.tsx", ⟨none, "/blog"⟩, false⟩]

theorem routes_pages : (ofFiles pagesFiles (pages.map (·.filename))).routes = pages := by
  have hcompiled : compileAll pagesFiles (pages.map (·.filename)) = pages := by decide +kernel
  have hascend : pages.Pairwise fun a b => decide (a.rank ≤ b.rank) = true := by decide +kernel
  rw [ofFiles, hcompiled, inOrder, List.mergeSort_of_pairwise hascend]
  decide +kernel

/-- The static page is found, with slashes at the end of its path, as it is no index. -/
theorem find?_hasPath_about :
    let t := ofFiles pagesFiles (pages.map (·.filename))
    let s : Route := ⟨"./routes/about.tsx", ⟨none, "/about"⟩, false⟩
    (∀ r ∈ t.routes, r.pattern.host = none ∧ ∀ seg ∈ r.pattern.segments, seg.isCatchAll = false) ∧
      (s ∈ t.routes ∧ s.isMagic = false ∧ s.IsStatic ∧ s.HasPath "/about//" ∧ ¬s.IsIndex) ∧
      pagesFiles.HasBase ∧ (∀ x ∈ t.routes, pagesFiles.HasFile x.filename) ∧
      ∃ r params, t.find? none "/about//" = some (r, params) ∧ r.IsStatic ∧
        params.entries = [] := by
  intro t s
  have hplain : ∀ r ∈ t.routes,
      r.pattern.host = none ∧ ∀ seg ∈ r.pattern.segments, seg.isCatchAll = false := by
    rw [routes_pages]
    decide +kernel
  have hs : s ∈ t.routes := by
    rw [routes_pages]
    decide +kernel
  have hstatic : s.IsStatic := by decide +kernel
  have hpath : s.HasPath "/about//" := by decide +kernel
  have hindex : ¬s.IsIndex := by decide +kernel
  have hclean : pagesFiles.base = "." ++ Specifier.clean "routes" := by decide +kernel
  have hbase : pagesFiles.HasBase := (RouteFiles.hasBase_of_clean hclean).1
  have hfiles : ∀ x ∈ t.routes, pagesFiles.HasFile x.filename := by
    rw [routes_pages, pages, List.forall_mem_cons, List.forall_mem_cons, List.forall_mem_singleton]
    exact ⟨⟨by decide +kernel, ["routes", "about.tsx"], by decide +kernel⟩,
      ⟨by decide +kernel, ["routes", "[slug].tsx"], by decide +kernel⟩,
      ⟨by decide +kernel, ["routes", "blog", "index.tsx"], by decide +kernel⟩⟩
  obtain ⟨r, params, hfound, -, -, hbinds, -, hshadowed⟩ :=
    find?_hasPath hplain hs rfl hstatic none hpath
  have hrstatic : r.IsStatic := by
    by_contra hparam
    exact hindex (hshadowed hbase hfiles hparam).1
  exact ⟨hplain, ⟨hs, rfl, hstatic, hpath, hindex⟩, hbase, hfiles, r, params, hfound, hrstatic,
    hbinds.1 hrstatic⟩

/-- A static page that is not found: its path is answered by a page with a parameter, whose file is
less deep. -/
theorem find?_shadows_index :
    let t := ofFiles pagesFiles (pages.map (·.filename))
    (∀ r ∈ t.routes, r.pattern.host = none ∧ ∀ seg ∈ r.pattern.segments, seg.isCatchAll = false) ∧
      ∃ s ∈ t.routes, s.isMagic = false ∧ s.IsStatic ∧ s.HasPath "/blog" ∧
        ∃ r params, t.find? none "/blog" = some (r, params) ∧ ¬r.IsStatic ∧
          params.get? "slug" = some "blog" := by
  intro t
  have hfound : t.find? none "/blog" =
      some (⟨"./routes/[slug].tsx", ⟨none, "/:slug"⟩, false⟩, Dict.ofList [("slug", "blog")]) := by
    rw [find?, routes_pages]
    rfl
  refine ⟨?_, ⟨"./routes/blog/index.tsx", ⟨none, "/blog"⟩, false⟩, ?_, by decide +kernel,
    by decide +kernel, by decide +kernel, _, _, hfound, by decide +kernel, by decide +kernel⟩
  · rw [routes_pages]
    decide +kernel
  · rw [routes_pages]
    decide +kernel

end RouteTable
end Waymark
