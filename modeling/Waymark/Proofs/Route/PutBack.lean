import Waymark.Proofs.Route.Filled
/-!
# Parameters put back into a pattern

What a pattern binds is no less than the path it was bound by: put back into the segments
of the pattern, the parameters give the segments of the path (`PutsBack`).  This needs the
names to be distinct, as a name that occurs twice keeps its last value only.

The matcher takes parts off the front of a list.  The same is said here with positions in
the list, as a loop over the segments has them (`matchAt`): a difference that would be
negative and a slice that would leave the list are failures there, and neither comes about.

## Main results

* `Fills.putsBack` — what fills the segments puts the parts back.
* `matchAt_eq` — positions stay in range, and lead to the same match.
* `bind_putsBack` — when a request is bound, and to what.
-/

namespace Waymark.RoutePattern

/-! ## Putting back -/

/-- What a segment stands for in a path: a literal for itself, a parameter for its value, and a
catch-all for the segments of its value. -/
def Segment.putBack (params : Dict String) : Segment → List String
  | .literal text => [text]
  | .param name => (params.get? name).toList
  | .catchAll name => ((params.get? name).map pathSegments).getD []

/-- Whether a parameter has one part of a path for its value, and a catch-all one or more in a
row. -/
def Segment.IsBound (params : Dict String) (parts : List String) : Segment → Prop
  | .literal _ => True
  | .param name => ∃ value ∈ parts, params.get? name = some value
  | .catchAll name =>
    ∃ values, values ≠ [] ∧ values <:+: parts ∧ params.get? name = some (joinSegments values)

theorem Segment.IsBound.mono {params : Dict String} {parts more : List String}
    (hmore : parts <:+: more) {seg : Segment} (h : seg.IsBound params parts) :
    seg.IsBound params more := by
  cases seg with
  | literal text => trivial
  | param name =>
    obtain ⟨value, hvalue, hget⟩ := h
    exact ⟨value, hmore.subset hvalue, hget⟩
  | catchAll name =>
    obtain ⟨values, hne, hrow, hget⟩ := h
    exact ⟨values, hne, hrow.trans hmore, hget⟩

/-- Whether parameters give the parts of a path when they are put back into segments. -/
structure PutsBack (params : Dict String) (segs : List Segment) (parts : List String) : Prop where
  bound : ∀ seg ∈ segs, seg.IsBound params parts
  whole : segs.flatMap (Segment.putBack params) = parts

/-- What fills the segments puts the parts back. -/
theorem Fills.putsBack {segs : List Segment} {parts : List String} {bound : List (String × String)}
    (h : Fills segs parts bound) (hparts : ∀ part ∈ parts, Disk.IsName part) {params : Dict String}
    (hparams : ∀ e ∈ bound, params.get? e.1 = some e.2) : PutsBack params segs parts := by
  induction h with
  | nil => exact ⟨List.forall_mem_nil _, rfl⟩
  | @literal segs parts _ text _ ih =>
    obtain ⟨hbound, hwhole⟩ := ih (List.forall_mem_cons.1 hparts).2 hparams
    have hmore : parts <:+: text :: parts := (List.suffix_cons text parts).isInfix
    refine ⟨List.forall_mem_cons.2 ⟨trivial, fun seg hseg => (hbound seg hseg).mono hmore⟩, ?_⟩
    exact congrArg (text :: ·) hwhole
  | @param segs parts _ name value _ ih =>
    obtain ⟨hget, hparams⟩ := List.forall_mem_cons.1 hparams
    obtain ⟨hbound, hwhole⟩ := ih (List.forall_mem_cons.1 hparts).2 hparams
    have hmore : parts <:+: value :: parts := (List.suffix_cons value parts).isInfix
    have hone : (Segment.param name).IsBound params (value :: parts) :=
      ⟨value, List.mem_cons_self .., hget⟩
    refine ⟨List.forall_mem_cons.2 ⟨hone, fun seg hseg => (hbound seg hseg).mono hmore⟩, ?_⟩
    rw [List.flatMap_cons, hwhole, Segment.putBack, hget]
    rfl
  | @catchAll segs parts _ name values hne _ ih =>
    obtain ⟨hget, hparams⟩ := List.forall_mem_cons.1 hparams
    obtain ⟨hvalues, hparts⟩ := List.forall_mem_append.1 hparts
    obtain ⟨hbound, hwhole⟩ := ih hparts hparams
    have hmore : parts <:+: values ++ parts := (List.suffix_append values parts).isInfix
    have hrow : (Segment.catchAll name).IsBound params (values ++ parts) :=
      ⟨values, hne, (List.prefix_append values parts).isInfix, hget⟩
    refine ⟨List.forall_mem_cons.2 ⟨hrow, fun seg hseg => (hbound seg hseg).mono hmore⟩, ?_⟩
    rw [List.flatMap_cons, hwhole, Segment.putBack, hget, Option.map_some, Option.getD_some,
      pathSegments_joinSegments hvalues]

/-! ## Positions -/

/-- What is out of range where positions are computed. -/
inductive RangeFault where
  /-- A number less a greater one. -/
  | difference (a b : Nat)
  /-- A slice that ends before it begins or behind the end of the list. -/
  | slice (start stop : Nat)
  deriving DecidableEq, Repr

/-- The difference of two numbers, the first of which is not the smaller one. -/
def difference (a b : Nat) : Except RangeFault Nat :=
  if b ≤ a then .ok (a - b) else .error (.difference a b)

/-- The parts from a position up to another. -/
def slice (parts : List String) (start stop : Nat) : Except RangeFault (List String) :=
  if start ≤ stop ∧ stop ≤ parts.length then .ok ((parts.take stop).drop start)
  else .error (.slice start stop)

/-- The matcher with positions: the segments that are left begin at `pos` of all `count`, and the
parts that are left at `idx`.  A path that is too short for what follows a catch-all is no match. -/
def matchAt (count : Nat) (parts : List String) (pos idx : Nat) :
    List Segment → List (String × String) → Except RangeFault (Option (List (String × String)))
  | [], bound => .ok (if idx = parts.length then some bound else none)
  | .literal text :: segs, bound =>
    if parts[idx]? = some text then matchAt count parts (pos + 1) (idx + 1) segs bound
    else .ok none
  | .param name :: segs, bound =>
    match parts[idx]? with
    | some value => matchAt count parts (pos + 1) (idx + 1) segs (bound ++ [(name, value)])
    | none => .ok none
  | .catchAll name :: segs, bound => do
    let after ← difference (← difference count pos) 1
    if parts.length < idx + after then return none
    let taken ← difference parts.length (idx + after)
    if taken = 0 then return none
    let values ← slice parts idx (idx + taken)
    matchAt count parts (pos + 1) (idx + taken) segs (bound ++ [(name, joinSegments values)])

/-- Positions stay in range, and lead to the same match. -/
theorem matchAt_eq {count : Nat} {parts : List String} {segs : List Segment} {pos idx : Nat}
    (hpos : pos + segs.length = count) (hidx : idx ≤ parts.length)
    (bound : List (String × String)) :
    matchAt count parts pos idx segs bound = .ok (matchSegments segs (parts.drop idx) bound) := by
  induction segs generalizing pos idx bound with
  | nil =>
    rw [matchAt]
    by_cases hend : idx = parts.length
    · rw [if_pos hend, hend, List.drop_length, matchSegments]
    · rw [if_neg hend, List.drop_eq_getElem_cons (by omega), matchSegments]
  | cons seg segs ih =>
    rw [List.length_cons] at hpos
    cases seg with
    | literal text =>
      rw [matchAt]
      by_cases hlt : idx < parts.length
      · have hpart : parts[idx]? = some text ↔ parts[idx] = text := by
          rw [List.getElem?_eq_getElem hlt, Option.some_inj]
        rw [List.drop_eq_getElem_cons hlt, matchSegments]
        by_cases htext : parts[idx] = text
        · rw [if_pos (hpart.2 htext), if_pos htext]
          exact ih (by omega) hlt bound
        · rw [if_neg fun h => htext (hpart.1 h), if_neg htext]
      · rw [List.getElem?_eq_none (by omega), List.drop_eq_nil_of_le (by omega), matchSegments]
        rfl
    | param name =>
      rw [matchAt]
      by_cases hlt : idx < parts.length
      · rw [List.getElem?_eq_getElem hlt, List.drop_eq_getElem_cons hlt, matchSegments]
        exact ih (by omega) hlt _
      · rw [List.getElem?_eq_none (by omega), List.drop_eq_nil_of_le (by omega), matchSegments]
    | catchAll name =>
      have hcount : difference count pos = .ok (segs.length + 1) := by
        rw [difference, if_pos (by omega)]
        exact congrArg Except.ok (by omega)
      rw [matchAt, matchSegments, List.length_drop, hcount]
      show (if parts.length < idx + segs.length then _ else _) = _
      by_cases hshort : parts.length < idx + segs.length
      · rw [if_pos hshort, if_pos (by omega)]
        rfl
      · have hleft : difference parts.length (idx + segs.length) =
            .ok (parts.length - idx - segs.length) := by
          rw [difference, if_pos (by omega), Nat.sub_add_eq]
        generalize htaken : parts.length - idx - segs.length = taken at hleft ⊢
        rw [if_neg hshort, Nat.add_sub_cancel, hleft]
        show (if taken = 0 then _ else _) = _
        by_cases hzero : taken = 0
        · rw [if_pos hzero, if_pos hzero]
          rfl
        · have hslice : slice parts idx (idx + taken) = .ok ((parts.drop idx).take taken) := by
            rw [slice, if_pos ⟨by omega, by omega⟩, List.drop_take, Nat.add_sub_cancel_left]
          rw [if_neg hzero, if_neg hzero, hslice, List.drop_drop]
          exact ih (by omega) (by omega) _

/-! ## Requests -/

/-- A request bound with positions. -/
def bindAt (p : RoutePattern) (host : Option String) (pathname : String) :
    Except RangeFault (Option (Dict String)) :=
  if p.fitsHost host then do
    let bound ← matchAt p.segments.length (pathSegments pathname) 0 0 p.segments []
    return bound.map Dict.ofList
  else .ok none

theorem bindAt_eq (p : RoutePattern) (host : Option String) (pathname : String) :
    p.bindAt host pathname = .ok (p.bind host pathname) := by
  rw [bindAt, bind, matchAt_eq (Nat.zero_add _) (Nat.zero_le _), List.drop_zero]
  split
  · rfl
  · rfl

/-- Whether a host fits a pattern: the pattern has none, or the host without its port and in lower
case is that of the pattern in lower case. -/
def HostFits (p : RoutePattern) (host : Option String) : Prop :=
  p.host = none ∨
    ∃ expected h, p.host = some expected ∧ host = some h ∧ hostName h = lowerText expected

theorem fitsHost_iff {p : RoutePattern} {host : Option String} :
    p.fitsHost host = true ↔ p.HostFits host := by
  unfold fitsHost HostFits
  split
  · rename_i hnone
    exact iff_of_true rfl (Or.inl hnone)
  · rename_i expected hsome
    rw [Option.any_eq_true]
    constructor
    · rintro ⟨h, hgiven, hname⟩
      exact Or.inr ⟨expected, h, hsome, hgiven, of_decide_eq_true hname⟩
    · rintro (hnone | ⟨expected', h, hsome', hgiven, hname⟩)
      · rw [hsome] at hnone
        cases hnone
      · obtain rfl := Option.some.inj (hsome.symm.trans hsome')
        exact ⟨h, hgiven, decide_eq_true hname⟩

/-- What a request binds fits its host, and, if the names of the pattern are distinct, gives the
segments of its path when it is put back.  A request that fits the host and fills a pattern with at
most one catch-all is bound.  No position that is computed on the way is out of range. -/
theorem bind_putsBack (p : RoutePattern) (host : Option String) (pathname : String) :
    (∀ params, p.bind host pathname = some params →
      p.HostFits host ∧ ((p.segments.filterMap Segment.name?).Nodup →
        PutsBack params p.segments (pathSegments pathname))) ∧
    (p.HostFits host → p.segments.countP Segment.isCatchAll ≤ 1 →
      (∃ bound, Fills p.segments (pathSegments pathname) bound) →
      ∃ params, p.bind host pathname = some params) ∧
    p.bindAt host pathname = .ok (p.bind host pathname) := by
  refine ⟨fun params h => ?_, fun hhost hrest ⟨bound, hfills⟩ => ?_, bindAt_eq p host pathname⟩
  · have hfits := bind_host h
    refine ⟨fitsHost_iff.1 hfits, fun hnames => ?_⟩
    rw [bind, if_pos hfits] at h
    obtain ⟨bound, hmatch, rfl⟩ := Option.map_eq_some_iff.1 h
    obtain ⟨filled, hfills, rfl⟩ := exists_fills_of_matchSegments hmatch
    rw [← hfills.names] at hnames
    refine hfills.putsBack (fun part hpart => Disk.isName_of_mem_namesOf hpart) fun e he => ?_
    exact (Dict.get?_ofList_iff hnames).2 he
  · rw [bind, if_pos (fitsHost_iff.2 hhost), matchSegments_of_fills hfills hrest]
    exact ⟨_, rfl⟩

/-- The pages of a manual, by language and by a path of any length, at one host. -/
def manualPattern : RoutePattern := ⟨some "Admin", "/docs/:lang/:path+"⟩

/-- The parts of a path below the manual. -/
def manualParts : List String := ["docs", "en", "a", "b"]

theorem fills_manualParts :
    Fills manualPattern.segments manualParts [("lang", "en"), ("path", "a/b")] := by
  have hsegments : manualPattern.segments =
      [.literal "docs", .param "lang", .catchAll "path"] := by decide +kernel
  rw [hsegments]
  have hrow : ["a", "b"] ≠ [] := List.cons_ne_nil _ _
  exact .literal "docs" (.param "lang" "en" (.catchAll "path" hrow .nil))

/-- A page of the manual, asked for at its host with a port and with a slash too many. -/
theorem bind_putsBack_manual :
    pathSegments "/docs/en//a/b" = manualParts ∧
      manualPattern.HostFits (some "ADMIN:8080") ∧
      (manualPattern.segments.filterMap Segment.name?).Nodup ∧
      manualPattern.segments.countP Segment.isCatchAll ≤ 1 ∧
      Fills manualPattern.segments manualParts [("lang", "en"), ("path", "a/b")] ∧
      ∃ params, manualPattern.bind (some "ADMIN:8080") "/docs/en//a/b" = some params ∧
        PutsBack params manualPattern.segments manualParts := by
  have hparts : pathSegments "/docs/en//a/b" = manualParts := by decide +kernel
  have hname : hostName "ADMIN:8080" = lowerText "Admin" := by decide +kernel
  have hhost : manualPattern.HostFits (some "ADMIN:8080") :=
    Or.inr ⟨"Admin", "ADMIN:8080", rfl, rfl, hname⟩
  have hnames : (manualPattern.segments.filterMap Segment.name?).Nodup := by decide +kernel
  have hrest : manualPattern.segments.countP Segment.isCatchAll ≤ 1 := by decide +kernel
  obtain ⟨hbound, hbinds, -⟩ := bind_putsBack manualPattern (some "ADMIN:8080") "/docs/en//a/b"
  rw [hparts] at hbound hbinds
  obtain ⟨params, hparams⟩ :=
    hbinds hhost hrest ⟨_, fills_manualParts⟩
  exact ⟨hparts, hhost, hnames, hrest, fills_manualParts, params, hparams,
    (hbound params hparams).2 hnames⟩

end Waymark.RoutePattern
