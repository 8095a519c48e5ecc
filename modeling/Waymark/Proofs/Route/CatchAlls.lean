import Mathlib.Data.Set.Finite.Basic
import Mathlib.Data.Set.Finite.Range
import Waymark.Proofs.Route.Filled
/-!
# Patterns with several catch-alls

The matcher gives a catch-all all parts but one for every segment that follows, and never
takes that back.  Behind the first catch-all there is then one part for every segment, so
that each further catch-all takes a single part, as a parameter does (`tighten`).

Where no literal stands between two catch-alls nothing is lost by this: a path that can be
split in some way can be split in this way as well.  A literal in between is looked for at
one place only, counted from the end of the path; there is then always a path that can be
split, but is not.

## Main results

* `matchSegments_tighten` — a further catch-all is matched as a parameter.
* `Fills.tighten` — a split of a path without literals in between can be changed into the one that
  is tried.
* `exists_path_of_literalBetween` — a path that can be split, though not in the way that is tried.
* `bind_finds_iff` — which patterns find every split.
-/

namespace Waymark.RoutePattern

/-! ## What is tried -/

/-- The segment that takes one part. -/
def Segment.single : Segment → Segment
  | .literal text => .literal text
  | .param name => .param name
  | .catchAll name => .param name

/-- The segments with every catch-all behind the first one in place of a parameter. -/
def tighten : List Segment → List Segment
  | [] => []
  | .literal text :: segs => .literal text :: tighten segs
  | .param name :: segs => .param name :: tighten segs
  | .catchAll name :: segs => .catchAll name :: segs.map Segment.single

theorem countP_map_single (segs : List Segment) :
    (segs.map Segment.single).countP Segment.isCatchAll = 0 := by
  rw [List.countP_eq_zero, List.forall_mem_map]
  intro seg _
  cases seg <;> exact Bool.false_ne_true

theorem countP_tighten (segs : List Segment) :
    (tighten segs).countP Segment.isCatchAll ≤ 1 := by
  induction segs with
  | nil => exact Nat.zero_le 1
  | cons seg segs ih =>
    cases seg with
    | literal text => exact ih
    | param name => exact ih
    | catchAll name => rw [tighten, List.countP_cons_of_pos rfl, countP_map_single]

/-- With a part for every segment, a catch-all is matched as a parameter. -/
theorem matchSegments_single {segs : List Segment} {parts : List String}
    (hlength : parts.length = segs.length) (bound : List (String × String)) :
    matchSegments (segs.map Segment.single) parts bound = matchSegments segs parts bound := by
  induction segs generalizing parts bound with
  | nil => rfl
  | cons seg segs ih =>
    obtain ⟨part, parts, rfl⟩ := List.exists_cons_of_length_eq_add_one hlength
    replace hlength : parts.length = segs.length := Nat.succ.inj hlength
    rw [List.map_cons]
    cases seg with
    | literal text => rw [Segment.single, matchSegments, matchSegments, ih hlength]
    | param name => rw [Segment.single, matchSegments_param, matchSegments_param, ih hlength]
    | catchAll name =>
      have htaken : (part :: parts).length - segs.length = 1 := by
        rw [List.length_cons]
        omega
      have hjoined : joinSegments [part] = part := String.ofList_toList
      rw [Segment.single, matchSegments_param, ih hlength, matchSegments, htaken,
        if_neg Nat.one_ne_zero]
      show _ = matchSegments segs parts (bound ++ [(name, joinSegments [part])])
      rw [hjoined]

/-- A catch-all behind the first one is matched as a parameter. -/
theorem matchSegments_tighten (segs : List Segment) (parts : List String)
    (bound : List (String × String)) :
    matchSegments (tighten segs) parts bound = matchSegments segs parts bound := by
  induction segs generalizing parts bound with
  | nil => rfl
  | cons seg segs ih =>
    cases seg with
    | literal text =>
      cases parts with
      | nil => rfl
      | cons part parts => rw [tighten, matchSegments, matchSegments, ih]
    | param name =>
      cases parts with
      | nil => rfl
      | cons part parts => rw [tighten, matchSegments_param, matchSegments_param, ih]
    | catchAll name =>
      rw [tighten, matchSegments, matchSegments, List.length_map]
      split
      · rfl
      · rename_i htaken
        apply matchSegments_single
        rw [List.length_drop]
        omega

/-- The matcher finds the splits in which every catch-all behind the first one takes one part. -/
theorem matchSegments_eq_some_iff_tighten {segs : List Segment} {parts : List String}
    {filled : List (String × String)} :
    matchSegments segs parts [] = some filled ↔ Fills (tighten segs) parts filled := by
  rw [← matchSegments_tighten, matchSegments_eq_some_iff (countP_tighten segs)]

/-! ## Without a literal in between -/

/-- Whether a literal stands before a catch-all. -/
def LiteralBefore (segs : List Segment) : Prop :=
  ∃ text name, [Segment.literal text, .catchAll name].Sublist segs

/-- Whether a literal stands between two catch-alls. -/
def LiteralBetween (segs : List Segment) : Prop :=
  ∃ first text last, [Segment.catchAll first, .literal text, .catchAll last].Sublist segs

theorem LiteralBefore.cons {segs : List Segment} (h : LiteralBefore segs) (seg : Segment) :
    LiteralBefore (seg :: segs) := by
  obtain ⟨text, name, hsub⟩ := h
  exact ⟨text, name, hsub.cons seg⟩

theorem LiteralBetween.cons {segs : List Segment} (h : LiteralBetween segs) (seg : Segment) :
    LiteralBetween (seg :: segs) := by
  obtain ⟨first, text, last, hsub⟩ := h
  exact ⟨first, text, last, hsub.cons seg⟩

/-- Every segment takes a part at least. -/
theorem Fills.length_le {segs : List Segment} {parts : List String} {bound : List (String × String)}
    (h : Fills segs parts bound) : segs.length ≤ parts.length := by
  induction h with
  | nil => exact Nat.le_refl 0
  | literal text _ ih => exact Nat.succ_le_succ ih
  | param name value _ ih => exact Nat.succ_le_succ ih
  | catchAll name hne _ ih =>
    have hpos := List.length_pos_iff.2 hne
    rw [List.length_cons, List.length_append]
    omega

/-- Segments that bind nothing but single parts are filled if there is a part in front. -/
theorem fills_param_drop {segs : List Segment} {parts : List String} {k : Nat}
    (hk : k < parts.length) (name : String)
    (h : ∃ bound, Fills segs (parts.drop (k + 1)) bound) :
    ∃ bound, Fills (.param name :: segs) (parts.drop k) bound := by
  obtain ⟨bound, hfills⟩ := h
  rw [List.drop_eq_getElem_cons hk]
  exact ⟨_, .param name _ hfills⟩

/-- Where no literal stands before a catch-all, the last parts of a path fill a segment each. -/
theorem Fills.drop_single {segs : List Segment} {parts : List String}
    {bound : List (String × String)} (h : Fills segs parts bound) (hno : ¬LiteralBefore segs) :
    ∃ bound, Fills (segs.map Segment.single) (parts.drop (parts.length - segs.length)) bound := by
  induction h with
  | nil => exact ⟨[], .nil⟩
  | @literal segs parts bound text hfills ih =>
    have hnone : segs.countP Segment.isCatchAll = 0 := by
      rw [List.countP_eq_zero]
      intro seg hseg hcatch
      cases seg with
      | literal text => cases hcatch
      | param name => cases hcatch
      | catchAll name =>
        exact hno ⟨text, name, (List.singleton_sublist.2 hseg).cons_cons _⟩
    have hlength := hfills.length_eq hnone
    obtain ⟨bound', hdrop⟩ := ih fun hbefore => hno (hbefore.cons _)
    rw [List.length_cons, List.length_cons, hlength, Nat.sub_self, List.drop_zero]
    rw [hlength, Nat.sub_self, List.drop_zero] at hdrop
    exact ⟨bound', .literal text hdrop⟩
  | @param segs parts bound name value hfills ih =>
    have hle := hfills.length_le
    refine fills_param_drop ?_ name ?_
    · rw [List.length_cons, List.length_cons]
      omega
    · obtain ⟨bound', hdrop⟩ := ih fun hbefore => hno (hbefore.cons _)
      refine ⟨bound', ?_⟩
      rw [List.drop_succ_cons, List.length_cons, List.length_cons, Nat.add_sub_add_right]
      exact hdrop
  | @catchAll segs parts bound name values hne hfills ih =>
    have hle := hfills.length_le
    have hpos := List.length_pos_iff.2 hne
    refine fills_param_drop ?_ name ?_
    · rw [List.length_append, List.length_cons]
      omega
    · obtain ⟨bound', hdrop⟩ := ih fun hbefore => hno (hbefore.cons _)
      have hrest : (values ++ parts).length - (Segment.catchAll name :: segs).length + 1 =
          values.length + (parts.length - segs.length) := by
        rw [List.length_append, List.length_cons]
        omega
      refine ⟨bound', ?_⟩
      rw [hrest, List.drop_length_add_append]
      exact hdrop

/-- A split of a path without literals in between can be changed into the one that is tried. -/
theorem Fills.tighten {segs : List Segment} {parts : List String} {bound : List (String × String)}
    (h : Fills segs parts bound) (hno : ¬LiteralBetween segs) :
    ∃ bound, Fills (tighten segs) parts bound := by
  induction h with
  | nil => exact ⟨[], .nil⟩
  | literal text _ ih =>
    obtain ⟨bound', hfills⟩ := ih fun hbetween => hno (hbetween.cons _)
    exact ⟨bound', .literal text hfills⟩
  | param name value _ ih =>
    obtain ⟨bound', hfills⟩ := ih fun hbetween => hno (hbetween.cons _)
    exact ⟨_, .param name value hfills⟩
  | @catchAll segs parts bound name values hne hfills _ =>
    have hbefore : ¬LiteralBefore segs := fun ⟨text, last, hsub⟩ =>
      hno ⟨name, text, last, hsub.cons_cons _⟩
    obtain ⟨bound', hdrop⟩ := hfills.drop_single hbefore
    have hfront : values ++ parts.take (parts.length - segs.length) ≠ [] :=
      List.append_ne_nil_of_left_ne_nil hne _
    have hwhole := Fills.catchAll name hfront hdrop
    rw [List.append_assoc, List.take_append_drop] at hwhole
    exact ⟨_, hwhole⟩

/-! ## With a literal in between -/

/-- A part that fills a segment, where `word` stands for whatever is bound. -/
def Segment.sample (word : String) : Segment → String
  | .literal text => text
  | .param _ => word
  | .catchAll _ => word

theorem fills_samples (word : String) (segs : List Segment) :
    ∃ bound, Fills segs (segs.map (Segment.sample word)) bound := by
  induction segs with
  | nil => exact ⟨[], .nil⟩
  | cons seg segs ih =>
    obtain ⟨bound, hfills⟩ := ih
    cases seg with
    | literal text => exact ⟨_, .literal text hfills⟩
    | param name => exact ⟨_, .param name word hfills⟩
    | catchAll name => exact ⟨_, .catchAll name (List.cons_ne_nil word []) hfills⟩

/-- Parts that fill segments, two of them a catch-all between `front` and `back`. -/
def stretched (word : String) (front back : List Segment) : List String :=
  front.map (Segment.sample word) ++ word :: word :: back.map (Segment.sample word)

theorem length_stretched (word : String) (front back : List Segment) :
    (stretched word front back).length = front.length + back.length + 2 := by
  rw [stretched, List.length_append, List.length_cons, List.length_cons, List.length_map,
    List.length_map]
  omega

/-- They do fill the segments. -/
theorem fills_stretched (word last : String) (front back : List Segment) :
    ∃ bound, Fills (front ++ .catchAll last :: back) (stretched word front back) bound := by
  induction front with
  | nil =>
    obtain ⟨bound, hfills⟩ := fills_samples word back
    have hwhole := Fills.catchAll last (List.cons_ne_nil word [word]) hfills
    exact ⟨_, hwhole⟩
  | cons seg front ih =>
    obtain ⟨bound, hfills⟩ := ih
    cases seg with
    | literal text => exact ⟨_, .literal text hfills⟩
    | param name => exact ⟨_, .param name word hfills⟩
    | catchAll name =>
      have hwhole := Fills.catchAll name (List.cons_ne_nil word []) hfills
      exact ⟨_, hwhole⟩

/-- A segment that takes one part takes the first one, and a literal only itself. -/
theorem exists_of_fills_single {seg : Segment} {segs : List Segment} {parts : List String}
    {bound : List (String × String)} (h : Fills (seg.single :: segs) parts bound) :
    ∃ part rest bound', parts = part :: rest ∧ Fills segs rest bound' ∧
      ∀ text, seg = .literal text → part = text := by
  cases seg with
  | literal text =>
    cases h with
    | literal _ hfills => exact ⟨_, _, _, rfl, hfills, fun _ hseg => Segment.literal.inj hseg⟩
  | param name =>
    cases h with
    | param _ value hfills => exact ⟨_, _, _, rfl, hfills, fun _ hseg => nomatch hseg⟩
  | catchAll name =>
    cases h with
    | param _ value hfills => exact ⟨_, _, _, rfl, hfills, fun _ hseg => nomatch hseg⟩

theorem head?_stretched (word : String) {front : List Segment}
    (h : ∀ text, .literal text ∉ front) (back : List Segment) :
    (stretched word front back).head? = some word := by
  cases front with
  | nil => rfl
  | cons seg front =>
    cases seg with
    | literal text => exact absurd (List.mem_cons_self ..) (h text)
    | param name => rfl
    | catchAll name => rfl

section
variable {word last : String} {back : List Segment}

/-- Segments that take a part each are not filled by these parts without the first: the last literal
of `front` would have to be the word. -/
theorem not_fills_tail {front : List Segment} (hword : .literal word ∉ front) {text : String}
    (htext : .literal text ∈ front) (bound : List (String × String)) :
    ¬Fills ((front ++ .catchAll last :: back).map Segment.single)
      (stretched word front back).tail bound := by
  induction front generalizing text bound with
  | nil => nomatch htext
  | cons seg front ih =>
    obtain ⟨hseg, hword⟩ := List.ne_and_not_mem_of_not_mem_cons hword
    intro hfills
    have hparts : (stretched word (seg :: front) back).tail = stretched word front back := rfl
    rw [hparts, List.cons_append, List.map_cons] at hfills
    obtain ⟨part, rest, bound', hcons, hfills, hpart⟩ := exists_of_fills_single hfills
    by_cases hmore : ∃ text, .literal text ∈ front
    · obtain ⟨text', htext'⟩ := hmore
      refine ih hword htext' bound' ?_
      rw [hcons]
      exact hfills
    · -- The literal is the last one, so that the word stands where it is looked for.
      have hhead := head?_stretched word (fun text h => hmore ⟨text, h⟩) back
      rw [hcons] at hhead
      rcases List.mem_cons.1 htext with hlast | htext
      · have hsame : part = text := hpart text hlast.symm
        have hpart : part = word := Option.some.inj hhead
        exact hseg (hlast ▸ hsame ▸ hpart ▸ rfl)
      · exact hmore ⟨text, htext⟩

/-- A path that can be split, though not in the way that is tried. -/
theorem not_fills_stretched {front : List Segment} (hword : .literal word ∉ front)
    {first text : String} (h : [Segment.catchAll first, .literal text].Sublist front)
    (bound : List (String × String)) :
    ¬Fills (tighten (front ++ .catchAll last :: back)) (stretched word front back) bound := by
  induction front generalizing bound with
  | nil => nomatch h
  | cons seg front ih =>
    have hrest := (List.ne_and_not_mem_of_not_mem_cons hword).2
    have hinner (hne : .catchAll first ≠ seg) :
        [Segment.catchAll first, .literal text].Sublist front :=
      (List.sublist_cons_iff.1 h).resolve_right fun ⟨_, heq, _⟩ => hne (List.cons.inj heq).1
    intro hfills
    rw [List.cons_append] at hfills
    cases seg with
    | literal text' =>
      cases hfills with
      | literal _ hfills => exact ih hrest (hinner nofun) _ hfills
    | param name =>
      cases hfills with
      | param _ _ hfills => exact ih hrest (hinner nofun) _ hfills
    | catchAll name =>
      have hmem := h.subset (List.mem_cons_of_mem _ (List.mem_singleton_self (Segment.literal text)))
      have htext : .literal text ∈ front := (List.mem_cons.1 hmem).resolve_left nofun
      have hparts : stretched word (.catchAll name :: front) back = word :: stretched word front back :=
        rfl
      rw [tighten, hparts] at hfills
      generalize hall : word :: stretched word front back = parts at hfills
      cases hfills with
      | @catchAll _ rest _ _ values hne hfills =>
        -- Two parts go to the first catch-all, since each segment behind it takes one.
        have hlength := congrArg List.length hall
        have hsegs := hfills.length_eq (countP_map_single _)
        rw [List.length_map, List.length_append, List.length_cons] at hsegs
        rw [List.length_cons, length_stretched, List.length_append, hsegs] at hlength
        obtain ⟨_, values, rfl⟩ := List.exists_cons_of_ne_nil hne
        rw [List.length_cons] at hlength
        obtain ⟨value, rfl⟩ := List.length_eq_one_iff.1 (show values.length = 1 by omega)
        have htail : (stretched word front back).tail = rest :=
          congrArg List.tail (List.cons.inj hall).2
        exact not_fills_tail hrest htext _ (htail ▸ hfills)

end

/-- A name that is no literal of the segments. -/
theorem exists_fresh (segs : List Segment) : ∃ word, Disk.IsName word ∧ .literal word ∉ segs := by
  let row (n : Nat) : String := String.ofList (List.replicate (n + 1) 'x')
  have hinj : Function.Injective row := by
    intro m n hmn
    have hlength := congrArg List.length (String.ofList_injective hmn)
    rw [List.length_replicate, List.length_replicate] at hlength
    exact Nat.succ.inj hlength
  obtain ⟨word, ⟨n, rfl⟩, hfresh⟩ :=
    (Set.infinite_range_of_injective hinj).exists_notMem_finset (segs.map (Segment.sample "")).toFinset
  refine ⟨row n, ⟨fun hempty => ?_, fun hslash => ?_⟩, fun hmem => hfresh ?_⟩
  · exact List.cons_ne_nil _ _ (String.ofList_eq_empty_iff.1 hempty)
  · rw [String.toList_ofList] at hslash
    exact absurd (List.eq_of_mem_replicate hslash) (by decide)
  · exact List.mem_toFinset.2 (List.mem_map.2 ⟨_, hmem, rfl⟩)

/-! ## Requests -/

/-- The literals of a pattern can stand between the slashes of a path. -/
theorem isName_of_literal {p : RoutePattern} {text : String} (h : .literal text ∈ p.segments) :
    Disk.IsName text := by
  obtain ⟨piece, hpiece, heq⟩ := List.mem_map.1 h
  obtain ⟨hslash, hne⟩ := List.mem_filter.1 hpiece
  unfold Segment.ofPiece at heq
  split at heq
  · split at heq
    · cases heq
    · cases heq
  · obtain rfl := Segment.literal.inj heq
    refine ⟨fun hempty => ?_, ?_⟩
    · exact of_decide_eq_true hne (String.ofList_eq_empty_iff.1 hempty)
    · rw [String.toList_ofList]
      exact Text.notMem_of_mem_pieces hslash

theorem isName_of_mem_samples {p : RoutePattern} {word : String} (hword : Disk.IsName word)
    {segs : List Segment} (hsegs : segs ⊆ p.segments) :
    ∀ part ∈ segs.map (Segment.sample word), Disk.IsName part := by
  rw [List.forall_mem_map]
  intro seg hseg
  cases seg with
  | literal text => exact isName_of_literal (hsegs hseg)
  | param name => exact hword
  | catchAll name => exact hword

/-- A pattern without a host binds a request if its path can be split in the way that is tried. -/
theorem exists_bind_iff {p : RoutePattern} (hhost : p.host = none) (host : Option String)
    (pathname : String) : (∃ params, p.bind host pathname = some params) ↔
      ∃ bound, Fills (tighten p.segments) (pathSegments pathname) bound := by
  have hfits : p.fitsHost host = true := by
    rw [fitsHost, hhost]
  simp only [bind, if_pos hfits, Option.map_eq_some_iff, matchSegments_eq_some_iff_tighten]
  constructor
  · rintro ⟨_, bound, hfills, -⟩
    exact ⟨bound, hfills⟩
  · rintro ⟨bound, hfills⟩
    exact ⟨_, bound, hfills, rfl⟩

/-- Where a literal stands between two catch-alls, some path can be split, though not in the way that
is tried. -/
theorem exists_path_of_literalBetween {p : RoutePattern} (h : LiteralBetween p.segments) :
    ∃ pathname, (∃ bound, Fills p.segments (pathSegments pathname) bound) ∧
      ∀ bound, ¬Fills (tighten p.segments) (pathSegments pathname) bound := by
  obtain ⟨first, text, last, hsub⟩ := h
  have hsub : ([Segment.catchAll first, .literal text] ++ [Segment.catchAll last]).Sublist
      p.segments := hsub
  obtain ⟨front, more, hsplit, hfront, hlast⟩ := List.append_sublist_iff.1 hsub
  obtain ⟨between, back, rfl⟩ := List.append_of_mem (List.singleton_sublist.1 hlast)
  rw [← List.append_assoc] at hsplit
  obtain ⟨word, hname, hfresh⟩ := exists_fresh p.segments
  have hbefore : front ++ between ⊆ p.segments := by
    rw [hsplit]
    exact List.subset_append_left _ _
  have hafter : back ⊆ p.segments := by
    rw [hsplit]
    exact List.subset_append_of_subset_right _ (List.subset_cons_self _ _)
  have hparts : ∀ part ∈ stretched word (front ++ between) back, Disk.IsName part := by
    rw [stretched, List.forall_mem_append, List.forall_mem_cons, List.forall_mem_cons]
    exact ⟨isName_of_mem_samples hname hbefore, hname, hname, isName_of_mem_samples hname hafter⟩
  have hword : .literal word ∉ front ++ between := fun hmem => hfresh (hbefore hmem)
  refine ⟨pathOf (stretched word (front ++ between) back), ?_, fun bound => ?_⟩
  · rw [pathSegments_pathOf hparts, hsplit]
    exact fills_stretched word last (front ++ between) back
  · rw [pathSegments_pathOf hparts, hsplit]
    exact not_fills_stretched hword (hfront.trans (List.sublist_append_left _ _)) bound

/-- A pattern without a host binds a request exactly if its path can be split so that every
catch-all behind the first takes one segment.  It binds all requests whose path can be split in
some way, exactly if no literal stands between two catch-alls. -/
theorem bind_finds_iff {p : RoutePattern} (hhost : p.host = none) :
    (∀ host pathname, (∃ params, p.bind host pathname = some params) ↔
      ∃ bound, Fills (tighten p.segments) (pathSegments pathname) bound) ∧
    ((∀ host pathname, (∃ bound, Fills p.segments (pathSegments pathname) bound) →
      ∃ params, p.bind host pathname = some params) ↔ ¬LiteralBetween p.segments) := by
  refine ⟨exists_bind_iff hhost, fun hall hbetween => ?_, fun hno host pathname => ?_⟩
  · obtain ⟨pathname, hfills, hmissed⟩ := exists_path_of_literalBetween hbetween
    obtain ⟨bound, htried⟩ := (exists_bind_iff hhost none pathname).1 (hall none pathname hfills)
    exact hmissed bound htried
  · rintro ⟨bound, hfills⟩
    exact (exists_bind_iff hhost host pathname).2 (hfills.tighten hno)

/-- Two catch-alls side by side, with a literal behind them: every path that can be split is bound. -/
theorem bind_finds_iff_neighbours :
    let p : RoutePattern := ⟨none, "/:a+/:b+/x"⟩
    p.host = none ∧ 2 ≤ p.segments.countP Segment.isCatchAll ∧
      ∀ host pathname, (∃ bound, Fills p.segments (pathSegments pathname) bound) →
        ∃ params, p.bind host pathname = some params := by
  intro p
  have hsegments : p.segments = [.catchAll "a", .catchAll "b", .literal "x"] := by decide +kernel
  have hno : ¬LiteralBetween p.segments := by
    rintro ⟨first, text, last, hsub⟩
    rw [hsegments] at hsub
    cases hsub.eq_of_length rfl
  exact ⟨rfl, by decide +kernel, (bind_finds_iff rfl).2.2 hno⟩

/-- A literal between two catch-alls: a path that can be split is not bound. -/
theorem bind_misses_split :
    let p : RoutePattern := ⟨none, "/:a+/x/:b+"⟩
    p.host = none ∧ 2 ≤ p.segments.countP Segment.isCatchAll ∧
      Fills p.segments (pathSegments "/1/x/2/3") [("a", "1"), ("b", "2/3")] ∧
      p.bind none "/1/x/2/3" = none := by
  intro p
  have hsegments : p.segments = [.catchAll "a", .literal "x", .catchAll "b"] := by decide +kernel
  have hparts : pathSegments "/1/x/2/3" = ["1", "x", "2", "3"] := by decide +kernel
  have hfills : Fills p.segments (pathSegments "/1/x/2/3") [("a", "1"), ("b", "2/3")] := by
    rw [hsegments, hparts]
    have hone : ["1"] ≠ [] := List.cons_ne_nil _ _
    have htwo : ["2", "3"] ≠ [] := List.cons_ne_nil _ _
    exact .catchAll "a" hone (.literal "x" (.catchAll "b" htwo .nil))
  have hnone : p.bind none "/1/x/2/3" = none := by
    rw [bind, hsegments, hparts]
    rfl
  exact ⟨rfl, by decide +kernel, hfills, hnone⟩

end Waymark.RoutePattern
