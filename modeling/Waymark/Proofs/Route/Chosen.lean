import Mathlib.Data.Prod.Lex
import Waymark.Proofs.Route.Order
/-!
# The route that is chosen

A table holds the route files that have a pattern, each once for every time it was listed,
in order of their ranks.  With fewer than a hundred parameters in every path a rank is a
key of two numbers, the depth of the file and then its parameters (`Route.key`).  The sort
is stable, so that of all routes that answer a request the one of least key is found, and of
those with the same key the one whose file was listed first (`ComesFirst`).

The order in which the files are listed matters for nothing else: it is not seen in which
routes wrap others, and not in what is found as long as keys do not tie.

## Main results

* `Route.paramCount_eq` — what is counted in a path is its parameters.
* `Route.IsKeyed.rank_le_iff` — ranks are compared as keys.
* `filter_inOrder` — routes of one rank keep their order.
* `key_le_of_find?`, `comesFirst_of_find?` — what is found has the least key, and comes first.
* `mem_routes_of_perm`, `find?_of_perm` — what does not depend on the order of the files.
* `ofFiles_chooses` — all of this, said of a table.
-/

namespace Waymark

namespace Text

section
variable {c d : Char}

theorem countText_cons_of_ne {x : Char} (hx : x ≠ c) (s : List Char) :
    countText [c, d] (x :: s) = countText [c, d] s := by
  have hnot : ¬[c, d] <+: x :: s := fun h => hx (List.cons_prefix_cons.1 h).1.symm
  rw [countText, isPrefixOf?_eq_none hnot]

theorem countText_cons_self (hd : d ≠ c) (s : List Char) :
    countText [c, d] (c :: s) = countText [c, d] s + if s.head? = some d then 1 else 0 := by
  by_cases hhead : s.head? = some d
  · obtain ⟨s, rfl⟩ := List.head?_eq_some_iff.1 hhead
    have hfound : List.isPrefixOf? [c, d] (c :: d :: s) = some s := isPrefixOf?_append [c, d] s
    have hshorter : s.length < (c :: d :: s).length := by
      rw [List.length_cons, List.length_cons]
      omega
    rw [if_pos hhead, countText_cons_of_ne hd, countText, hfound]
    exact if_pos hshorter
  · have hnot : ¬[c, d] <+: c :: s := by
      intro h
      obtain ⟨t, ht⟩ := (List.cons_prefix_cons.1 h).2
      rw [← ht] at hhead
      exact hhead rfl
    rw [if_neg hhead, countText, isPrefixOf?_eq_none hnot]
    rfl

theorem pieces_cons_self (s : List Char) : pieces c (c :: s) = [] :: pieces c s := by
  rw [pieces, piecesWhere, if_pos (decide_eq_true rfl)]
  rfl

theorem pieces_cons_of_ne {x : Char} (hx : x ≠ c) {s a : List Char} {as : List (List Char)}
    (h : pieces c s = a :: as) : pieces c (x :: s) = (x :: a) :: as := by
  rw [pieces] at h
  rw [pieces, piecesWhere, if_neg fun heq => hx (of_decide_eq_true heq), h]

theorem exists_cons_pieces (c : Char) (s : List Char) : ∃ a as, pieces c s = a :: as :=
  List.exists_cons_of_ne_nil (piecesWhere_ne_nil _ s)

/-- The first piece begins as the text does, unless that is with a separator. -/
theorem head?_of_pieces (hd : d ≠ c) {s a : List Char} {as : List (List Char)}
    (h : pieces c s = a :: as) : a.head? = some d ↔ s.head? = some d := by
  cases s with
  | nil =>
    obtain ⟨rfl, -⟩ := List.cons.inj h
    exact Iff.rfl
  | cons x s =>
    by_cases hx : x = c
    · subst hx
      rw [pieces_cons_self] at h
      obtain ⟨rfl, -⟩ := List.cons.inj h
      exact iff_of_false nofun fun heq => hd (Option.some.inj heq).symm
    · obtain ⟨b, bs, hb⟩ := exists_cons_pieces c s
      rw [pieces_cons_of_ne hx hb] at h
      obtain ⟨rfl, -⟩ := List.cons.inj h
      exact Iff.rfl

/-- A separator stands before a character as often as a piece behind it begins with that
character. -/
theorem countText_cons_eq (hd : d ≠ c) (s : List Char) :
    countText [c, d] (c :: s) = (pieces c s).countP (·.head? = some d) := by
  induction s with
  | nil =>
    rw [countText_cons_self hd, countText]
    rfl
  | cons x s ih =>
    rw [countText_cons_self hd]
    by_cases hx : x = c
    · subst hx
      rw [ih, pieces_cons_self, List.countP_cons_of_neg (by simp), if_neg]
      · rfl
      · exact fun heq => hd (Option.some.inj heq).symm
    · obtain ⟨a, as, hpieces⟩ := exists_cons_pieces c s
      have hfirst := head?_of_pieces hd hpieces
      have hcount : countText [c, d] s = as.countP (·.head? = some d) := by
        rw [countText_cons_self hd, hpieces, List.countP_cons] at ih
        simpa only [decide_eq_true_eq, hfirst, Nat.add_right_cancel_iff] using ih
      rw [countText_cons_of_ne hx, pieces_cons_of_ne hx hpieces, List.countP_cons, hcount]
      by_cases hxd : x = d <;> simp [hxd]

end

end Text

namespace RoutePattern

/-- How many segments of a pattern bind a parameter. -/
def arity (p : RoutePattern) : Nat := p.segments.countP fun seg => seg.name?.isSome

end RoutePattern

namespace Route

/-! ## Keys -/

/-- What is counted as parameters in a rooted path are those of the pattern. -/
theorem paramCount_eq {r : Route} {path : List Char}
    (hpath : r.pattern.pathname.toList = '/' :: path) : r.paramCount = r.pattern.arity := by
  have hparam (piece : List Char) :
      (RoutePattern.Segment.ofPiece piece).name?.isSome = true ↔ piece.head? = some ':' := by
    rw [← not_iff_not, Bool.not_eq_true, Option.isSome_eq_false_iff, Option.isNone_iff_eq_none,
      RoutePattern.name?_ofPiece_eq_none_iff, List.head?_eq_some_iff, not_exists]
  rw [paramCount, RoutePattern.arity, RoutePattern.segments, hpath,
    Text.countText_cons_eq (by decide), Text.segments_cons, Text.segments, List.countP_map,
    List.countP_filter]
  apply List.countP_congr
  intro piece _
  rw [Function.comp_apply, Bool.and_eq_true, hparam, decide_eq_true_eq, decide_eq_true_eq]
  refine (and_iff_left_of_imp ?_).symm
  rintro hhead rfl
  cases hhead

/-- The depth of the file, and then the number of parameters. -/
def key (r : Route) : Nat ×ₗ Nat := toLex (r.depth, r.pattern.arity)

/-- Whether the rank of a route is made of its key, so that nothing is carried over. -/
structure IsKeyed (r : Route) : Prop where
  rank_eq : r.rank = 100 * r.depth + r.pattern.arity
  few : r.pattern.arity < 100

/-- Ranks are compared as keys. -/
theorem IsKeyed.rank_le_iff {r s : Route} (hr : r.IsKeyed) (hs : s.IsKeyed) :
    r.rank ≤ s.rank ↔ r.key ≤ s.key := by
  have hfew := hr.few
  have hfew' := hs.few
  rw [key, key, Prod.Lex.toLex_le_toLex, hr.rank_eq, hs.rank_eq]
  dsimp only
  omega

instance (r : Route) (host : Option String) (pathname : String) :
    Decidable (r.Answers host pathname) := inferInstanceAs (Decidable (_ ∧ _))

end Route

namespace RouteTable

/-! ## A stable sort -/

/-- Routes of one rank keep their order. -/
theorem filter_inOrder (routes : List Route) (k : Nat) :
    (inOrder routes).filter (·.rank = k) = routes.filter (·.rank = k) := by
  have hsame : (routes.filter (·.rank = k)).Pairwise
      fun a b => decide (a.rank ≤ b.rank) = true := by
    apply List.pairwise_of_forall_mem_list
    intro a ha b hb
    have ha := of_decide_eq_true (List.mem_filter.1 ha).2
    have hb := of_decide_eq_true (List.mem_filter.1 hb).2
    rw [decide_eq_true_eq, ha, hb]
  have hsub : (routes.filter (·.rank = k)).Sublist (inOrder routes) :=
    List.sublist_mergeSort ranks_trans ranks_total hsame List.filter_sublist
  have hfiltered := hsub.filter (·.rank = k)
  rw [List.filter_filter] at hfiltered
  simp only [Bool.and_self] at hfiltered
  have hperm : ((inOrder routes).filter (·.rank = k)).Perm (routes.filter (·.rank = k)) :=
    (List.mergeSort_perm routes _).filter _
  exact (hfiltered.eq_of_length hperm.length_eq.symm).symm

/-! ## What a table holds -/

/-- The routes of a table are those that the files compile to, marked. -/
theorem routes_perm (files : RouteFiles) (names : List String) :
    ((ofFiles files names).routes.map fun r => (r.filename, r.pattern)).Perm
      (names.filterMap fun name => (files.pattern? name).map (name, ·)) := by
  have hmarked : (ofFiles files names).routes.map (fun r => (r.filename, r.pattern)) =
      (inOrder (compileAll files names)).map fun r => (r.filename, r.pattern) := by
    rw [ofFiles, markNesting, List.map_map]
    rfl
  have hcompiled : (compileAll files names).map (fun r => (r.filename, r.pattern)) =
      names.filterMap fun name => (files.pattern? name).map (name, ·) := by
    rw [compileAll, List.map_filterMap]
    apply List.filterMap_congr
    intro name _
    rw [Option.map_map]
    rfl
  rw [hmarked, ← hcompiled]
  exact (List.mergeSort_perm _ _).map _

/-- A list in which nothing magic stands behind anything else is the magic routes and then the
others. -/
theorem exists_append_of_pairwise {routes : List Route}
    (h : routes.Pairwise fun a b => b.isMagic = true → a.isMagic = true) :
    ∃ magic others, routes = magic ++ others ∧ (∀ r ∈ magic, r.isMagic = true) ∧
      ∀ r ∈ others, r.isMagic = false := by
  induction routes with
  | nil => exact ⟨[], [], rfl, List.forall_mem_nil _, List.forall_mem_nil _⟩
  | cons r routes ih =>
    obtain ⟨hhead, htail⟩ := List.pairwise_cons.1 h
    cases hr : r.isMagic with
    | true =>
      obtain ⟨magic, others, rfl, hmagic, hothers⟩ := ih htail
      exact ⟨r :: magic, others, rfl, List.forall_mem_cons.2 ⟨hr, hmagic⟩, hothers⟩
    | false =>
      have hrest : ∀ s ∈ routes, s.isMagic = false := fun s hs =>
        Bool.eq_false_iff.2 fun hmagic => by simp [hhead s hs hmagic] at hr
      exact ⟨[], r :: routes, rfl, List.forall_mem_nil _, List.forall_mem_cons.2 ⟨hr, hrest⟩⟩

/-- The magic routes come first. -/
theorem exists_magic_append (files : RouteFiles) (names : List String) :
    ∃ magic others, (ofFiles files names).routes = magic ++ others ∧
      (∀ r ∈ magic, r.isMagic = true) ∧ ∀ r ∈ others, r.isMagic = false := by
  refine exists_append_of_pairwise ((routes_ascend files names).imp fun {a b} hle hmagic => ?_)
  have hzero : b.rank = 0 := by
    rw [Route.rank, hmagic]
    rfl
  have hdepth : 0 < a.depth := List.length_pos_iff.2 (Text.piecesWhere_ne_nil _ _)
  by_contra hnot
  have hrank := Route.rank_eq (Bool.eq_false_iff.2 hnot)
  omega

/-- Whether a path wraps others depends on which paths there are. -/
theorem nests_congr {all all' : List String} (h : ∀ path, path ∈ all ↔ path ∈ all') (path : String) :
    Route.nests path all = Route.nests path all' := by
  have hany (p : String → Bool) : all.any p = all'.any p := by
    rw [Bool.eq_iff_iff, List.any_eq_true, List.any_eq_true]
    exact exists_congr fun path => and_congr_left fun _ => h path
  rw [Route.nests, Route.nests, hany]

/-- The routes of a table, and which of them wrap others, do not depend on the order of the
files. -/
theorem mem_routes_of_perm {files : RouteFiles} {names names' : List String}
    (h : names.Perm names') {r : Route} (hr : r ∈ (ofFiles files names).routes) :
    r ∈ (ofFiles files names').routes := by
  have hmem (r : Route) : r ∈ inOrder (compileAll files names) ↔
      r ∈ inOrder (compileAll files names') := by
    rw [inOrder, inOrder, List.mem_mergeSort, List.mem_mergeSort]
    exact (h.filterMap _).mem_iff
  obtain ⟨s, hs, rfl⟩ := List.mem_map.1 hr
  refine List.mem_map.2 ⟨s, (hmem s).1 hs, ?_⟩
  rw [nests_congr fun path => ?_]
  simp only [List.mem_map, hmem]

/-! ## What is found -/

/-- Whether the file of a route is the first of its list, of those with the least key that answer a
request. -/
def ComesFirst (files : RouteFiles) (names : List String) (host : Option String)
    (pathname : String) (r : Route) : Prop :=
  ∃ before after, names = before ++ r.filename :: after ∧
    (∀ s ∈ compileAll files before, s.Answers host pathname → r.key < s.key) ∧
    ∀ s ∈ compileAll files after, s.Answers host pathname → r.key ≤ s.key

section
variable {files : RouteFiles} {names : List String} {host : Option String} {pathname : String}

/-- What answers a request is compared by its key, if files have few parameters. -/
theorem isKeyed_of_answers
    (hfew : ∀ name ∈ names, ∀ p, files.pattern? name = some p → p.arity < 100) {s : Route}
    (hs : s.filename ∈ names ∧ files.pattern? s.filename = some s.pattern)
    (hanswers : s.Answers host pathname) : s.IsKeyed := by
  obtain ⟨_, _, -, hpath, -⟩ := RouteFiles.exists_of_pattern? hs.2
  refine ⟨?_, hfew s.filename hs.1 s.pattern hs.2⟩
  rw [Route.rank_eq hanswers.1, Route.paramCount_eq hpath]

/-- What is found is a route of the table that answers the request. -/
theorem mem_of_find? {r : Route} {params : Dict String}
    (h : (ofFiles files names).find? host pathname = some (r, params)) :
    r ∈ (ofFiles files names).routes ∧ r.Answers host pathname ∧
      r.pattern.bind host pathname = some params := by
  obtain ⟨before, after, hroutes, hmagic, hparams, -⟩ := find?_eq_some_iff.1 h
  rw [hroutes]
  exact ⟨List.mem_append_right _ (List.mem_cons_self ..),
    ⟨hmagic, Option.isSome_of_eq_some hparams⟩, hparams⟩

/-- Where a route stands among those that files compile to, its file stands among the files. -/
theorem exists_names_of_compileAll {front back : List Route} {s : Route}
    (h : compileAll files names = front ++ s :: back) :
    ∃ before after, names = before ++ s.filename :: after ∧ compileAll files before = front ∧
      compileAll files after = back := by
  obtain ⟨names₁, names₂, rfl, hfront, hnames₂⟩ := List.filterMap_eq_append_iff.1 h
  obtain ⟨skipped, name, names₃, rfl, hskipped, hname, hback⟩ :=
    List.filterMap_eq_cons_iff.1 hnames₂
  obtain ⟨p, -, rfl⟩ := Option.map_eq_some_iff.1 hname
  have hempty : compileAll files skipped = [] := List.filterMap_eq_nil_iff.2 hskipped
  refine ⟨names₁ ++ skipped, names₃, (List.append_assoc ..).symm, ?_, hback⟩
  rw [compileAll, List.filterMap_append, ← compileAll, ← compileAll, hempty, List.append_nil]
  exact hfront

/-- What is found is, unmarked, the first that answers of all routes of its rank, in the order of the
files. -/
theorem exists_compileAll_of_find? {r : Route} {params : Dict String}
    (h : (ofFiles files names).find? host pathname = some (r, params)) :
    ∃ s front back, compileAll files names = front ++ s :: back ∧
      s.filename = r.filename ∧ s.pattern = r.pattern ∧ s.Answers host pathname ∧
      ∀ x ∈ front, x.Answers host pathname → x.rank ≠ s.rank := by
  obtain ⟨before, after, hroutes, hmagic, hparams, hbefore⟩ := find?_eq_some_iff.1 h
  obtain ⟨sorted, rest, hsorted, rfl, hrest⟩ := List.map_eq_append_iff.1 hroutes
  obtain ⟨s, sorted', rfl, rfl, rfl⟩ := List.map_eq_cons_iff.1 hrest
  have hanswers : s.Answers host pathname := ⟨hmagic, Option.isSome_of_eq_some hparams⟩
  have hnone : sorted.filter
      (fun x => decide (x.Answers host pathname) && decide (x.rank = s.rank)) = [] := by
    apply List.filter_eq_nil_iff.2
    intro x hx hfound
    have hfound := of_decide_eq_true (Bool.and_eq_true_iff.1 hfound).1
    exact hbefore _ (List.mem_map_of_mem hx) hfound
  -- The routes of one rank stand in the same order before they are sorted.
  have hsplit : (compileAll files names).filter
      (fun x => decide (x.Answers host pathname) && decide (x.rank = s.rank)) =
        s :: sorted'.filter fun x => decide (x.Answers host pathname) && decide (x.rank = s.rank) := by
    rw [← List.filter_filter, ← filter_inOrder, List.filter_filter, hsorted, List.filter_append,
      hnone, List.nil_append, List.filter_cons_of_pos]
    rw [decide_eq_true hanswers, decide_eq_true rfl]
    rfl
  obtain ⟨front, back, hcompiled, hfront, -, -⟩ := List.filter_eq_cons_iff.1 hsplit
  refine ⟨s, front, back, hcompiled, rfl, rfl, hanswers, fun x hx hxanswers heq => ?_⟩
  exact hfront x hx (Bool.and_eq_true_iff.2 ⟨decide_eq_true hxanswers, decide_eq_true heq⟩)

/-- What is found is, of all that files compile to, one of least key that answers. -/
theorem key_le_of_find?
    (hfew : ∀ name ∈ names, ∀ p, files.pattern? name = some p → p.arity < 100) {r : Route}
    {params : Dict String} (h : (ofFiles files names).find? host pathname = some (r, params))
    {x : Route} (hx : x ∈ compileAll files names) (hanswers : x.Answers host pathname) :
    r.key ≤ x.key := by
  obtain ⟨hr, hranswers, -⟩ := mem_of_find? h
  have hle := rank_le_of_find? (routes_ascend files names) h
    (List.mem_map_of_mem (List.mem_mergeSort.2 hx)) hanswers
  have hrkeyed := isKeyed_of_answers hfew (pattern?_of_mem_routes hr) hranswers
  have hxkeyed := isKeyed_of_answers hfew (pattern?_of_mem_compileAll hx) hanswers
  exact (hrkeyed.rank_le_iff hxkeyed).1 hle

/-- What is found comes first. -/
theorem comesFirst_of_find?
    (hfew : ∀ name ∈ names, ∀ p, files.pattern? name = some p → p.arity < 100) {r : Route}
    {params : Dict String} (h : (ofFiles files names).find? host pathname = some (r, params)) :
    ComesFirst files names host pathname r := by
  obtain ⟨s, front, back, hcompiled, hfile, hpattern, hsanswers, hfront⟩ :=
    exists_compileAll_of_find? h
  obtain ⟨before, after, hnames, rfl, rfl⟩ := exists_names_of_compileAll hcompiled
  have hkey : r.key = s.key := by
    rw [Route.key, Route.key, Route.depth, Route.depth, hfile, hpattern]
  have hmem {x : Route} (hx : x ∈ compileAll files before ∨ x = s ∨ x ∈ compileAll files after) :
      x ∈ compileAll files names := by
    rw [hcompiled, List.mem_append, List.mem_cons]
    exact hx
  refine ⟨before, after, hfile ▸ hnames, fun x hx hanswers => ?_, fun x hx hanswers =>
    key_le_of_find? hfew h (hmem (Or.inr (Or.inr hx))) hanswers⟩
  have hkeyed {x : Route} (hx : x ∈ compileAll files names) (hanswers : x.Answers host pathname) :
      x.IsKeyed := isKeyed_of_answers hfew (pattern?_of_mem_compileAll hx) hanswers
  have hxkeyed := hkeyed (hmem (Or.inl hx)) hanswers
  have hskeyed := hkeyed (hmem (Or.inr (Or.inl rfl))) hsanswers
  refine lt_of_le_of_ne (key_le_of_find? hfew h (hmem (Or.inl hx)) hanswers) fun heq => ?_
  have hsame : x.key = s.key := heq.symm.trans hkey
  apply hfront x hx hanswers
  exact Nat.le_antisymm ((hxkeyed.rank_le_iff hskeyed).2 hsame.le)
    ((hskeyed.rank_le_iff hxkeyed).2 hsame.ge)

/-- Where the routes that answer a request have distinct keys, the order of the files does not matter
for what is found. -/
theorem find?_of_perm
    (hfew : ∀ name ∈ names, ∀ p, files.pattern? name = some p → p.arity < 100)
    {names' : List String} (h : names.Perm names')
    (hdistinct : ∀ r ∈ (ofFiles files names).routes, ∀ s ∈ (ofFiles files names).routes,
      r.Answers host pathname → s.Answers host pathname → r.key = s.key → r = s) :
    (ofFiles files names').find? host pathname = (ofFiles files names).find? host pathname := by
  cases hfind : (ofFiles files names).find? host pathname with
  | none =>
    rw [Option.eq_none_iff_forall_ne_some]
    rintro ⟨r, params⟩ hother
    obtain ⟨hr, hanswers, -⟩ := mem_of_find? hother
    obtain ⟨_, _, hsome⟩ := exists_find? (mem_routes_of_perm h.symm hr) hanswers
    rw [hfind] at hsome
    cases hsome
  | some found =>
    obtain ⟨r, params⟩ := found
    obtain ⟨hr, hanswers, hparams⟩ := mem_of_find? hfind
    obtain ⟨s, params', hother⟩ := exists_find? (mem_routes_of_perm h hr) hanswers
    obtain ⟨hs, hsanswers, hparams'⟩ := mem_of_find? hother
    have hs := mem_routes_of_perm h.symm hs
    have hrkeyed := isKeyed_of_answers hfew (pattern?_of_mem_routes hr) hanswers
    have hskeyed := isKeyed_of_answers hfew (pattern?_of_mem_routes hs) hsanswers
    have hle := rank_le_of_find? (routes_ascend files names) hfind hs hsanswers
    have hge := rank_le_of_find? (routes_ascend files names') hother (mem_routes_of_perm h hr) hanswers
    have hkey : r.key = s.key := le_antisymm ((hrkeyed.rank_le_iff hskeyed).1 hle)
      ((hskeyed.rank_le_iff hrkeyed).1 hge)
    obtain rfl := hdistinct r hr s hs hanswers hsanswers hkey
    obtain rfl := Option.some.inj (hparams'.symm.trans hparams)
    exact hother

end

/-- A table holds exactly the files that have a pattern, as often as they are listed, the magic ones
in front.  If no path has a hundred parameters, a request is answered exactly if a route other than
a magic one answers it, and the answer is the route of least depth and then of fewest parameters,
of several the one listed first.  Listed in another order, the same files make the same routes,
wrapping others or not, and requests for which no two routes tie are answered in the same way. -/
theorem ofFiles_chooses {files : RouteFiles} {names : List String}
    (hfew : ∀ name ∈ names, ∀ p, files.pattern? name = some p → p.arity < 100) :
    ((ofFiles files names).routes.map fun r => (r.filename, r.pattern)).Perm
      (names.filterMap fun name => (files.pattern? name).map (name, ·)) ∧
    (∃ magic others, (ofFiles files names).routes = magic ++ others ∧
      (∀ r ∈ magic, r.isMagic = true) ∧ ∀ r ∈ others, r.isMagic = false) ∧
    (∀ host pathname,
      ((∃ found, (ofFiles files names).find? host pathname = some found) ↔
        ∃ r ∈ (ofFiles files names).routes, r.Answers host pathname) ∧
      ∀ r params, (ofFiles files names).find? host pathname = some (r, params) →
        r ∈ (ofFiles files names).routes ∧ r.isMagic = false ∧
          r.pattern.bind host pathname = some params ∧ ComesFirst files names host pathname r) ∧
    ∀ names', names.Perm names' →
      (∀ r, r ∈ (ofFiles files names').routes ↔ r ∈ (ofFiles files names).routes) ∧
      ∀ host pathname,
        (∀ r ∈ (ofFiles files names).routes, ∀ s ∈ (ofFiles files names).routes,
          r.Answers host pathname → s.Answers host pathname → r.key = s.key → r = s) →
        (ofFiles files names').find? host pathname = (ofFiles files names).find? host pathname := by
  refine ⟨routes_perm files names, exists_magic_append files names, fun host pathname => ⟨?_, ?_⟩,
    fun names' h => ⟨fun r => ⟨mem_routes_of_perm h.symm, mem_routes_of_perm h⟩,
      fun host pathname => find?_of_perm hfew h⟩⟩
  · constructor
    · rintro ⟨⟨r, params⟩, hfind⟩
      obtain ⟨hr, hanswers, -⟩ := mem_of_find? hfind
      exact ⟨r, hr, hanswers⟩
    · rintro ⟨r, hr, hanswers⟩
      obtain ⟨s, params, hfind⟩ := exists_find? hr hanswers
      exact ⟨_, hfind⟩
  · intro r params hfind
    obtain ⟨hr, hanswers, hparams⟩ := mem_of_find? hfind
    exact ⟨hr, hanswers.1, hparams, comesFirst_of_find? hfew hfind⟩

/-- Two files of one key, and a magic one. -/
def tiedNames : List String := ["./routes/_404.tsx", "./routes/[b].tsx", "./routes/[a].tsx"]

/-- What is found where two routes tie. -/
theorem ofFiles_chooses_tied :
    (∀ name ∈ tiedNames, ∀ p, pagesFiles.pattern? name = some p → p.arity < 100) ∧
      ∃ r params, (ofFiles pagesFiles tiedNames).find? none "/x" = some (r, params) ∧
        r.isMagic = false ∧ ComesFirst pagesFiles tiedNames none "/x" r := by
  have hall : ∀ name ∈ tiedNames,
      ((pagesFiles.pattern? name).all fun p => p.arity < 100) = true := by decide +kernel
  have hfew : ∀ name ∈ tiedNames, ∀ p, pagesFiles.pattern? name = some p → p.arity < 100 := by
    intro name hname p hp
    have hp' := hall name hname
    rw [hp] at hp'
    exact of_decide_eq_true hp'
  let s : Route := ⟨"./routes/[a].tsx", ⟨none, "/:a"⟩, false⟩
  have hs : s ∈ compileAll pagesFiles tiedNames := by decide +kernel
  have hanswers : s.Answers none "/x" := by decide +kernel
  obtain ⟨-, -, hfinds, -⟩ := ofFiles_chooses hfew
  obtain ⟨hiff, hchosen⟩ := hfinds none "/x"
  obtain ⟨⟨r, params⟩, hfind⟩ :=
    hiff.2 ⟨_, List.mem_map_of_mem (List.mem_mergeSort.2 hs), hanswers⟩
  obtain ⟨-, hmagic, -, hfirst⟩ := hchosen r params hfind
  exact ⟨hfew, r, params, hfind, hmagic, hfirst⟩

end RouteTable

end Waymark
