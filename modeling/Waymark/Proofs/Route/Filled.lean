import Mathlib.Data.List.Nodup
import Waymark.Proofs.Disk.Paths
import Waymark.Route.Pattern
/-!
# Requests that fill a pattern

A request fills a pattern if its path has, segment by segment, the literals of the
pattern, one segment for each parameter, and one or more for a catch-all (`Fills`).  The
matcher goes from left to right and gives a catch-all all but one segment for every
segment after it.  So it finds the filling if there is one, as long as no second
catch-all follows the first: what comes after the catch-all takes one segment each.

## Main results

* `get?_ofList_iff` — with distinct keys, a dictionary of a list holds what is in the list.
* `matchSegments_eq_some_iff` — the matcher accepts exactly the parts that fill a pattern.
* `bind_of_fills` — a request that fills a pattern binds what it fills the parameters with.
-/

namespace Waymark

namespace Dict

/-- With distinct keys, a dictionary of a list holds what is in the list. -/
theorem get?_ofList_iff {α : Type} {es : List (String × α)} (h : (es.map (·.1)).Nodup) {k : String}
    {v : α} : (ofList es).get? k = some v ↔ (k, v) ∈ es := by
  refine ⟨mem_of_get?_ofList, fun hmem => ?_⟩
  have hkey : k ∈ (ofList es).keys := mem_keys_ofList.2 (List.mem_map.2 ⟨(k, v), hmem, rfl⟩)
  obtain ⟨⟨k', v'⟩, hentry, rfl⟩ := List.mem_map.1 hkey
  have hget := mem_entries_iff.1 hentry
  have hsame := List.inj_on_of_nodup_map h (mem_of_get?_ofList hget) hmem rfl
  rw [hget, (Prod.mk.inj hsame).2]

end Dict

namespace RoutePattern

/-! ## Fillings -/

/-- Whether parts of a path fill the segments of a pattern, and with what the parameters are
filled. -/
inductive Fills : List Segment → List String → List (String × String) → Prop
  | nil : Fills [] [] []
  | literal {segs : List Segment} {parts : List String} {bound : List (String × String)}
      (text : String) : Fills segs parts bound → Fills (.literal text :: segs) (text :: parts) bound
  | param {segs : List Segment} {parts : List String} {bound : List (String × String)}
      (name value : String) : Fills segs parts bound →
        Fills (.param name :: segs) (value :: parts) ((name, value) :: bound)
  | catchAll {segs : List Segment} {parts : List String} {bound : List (String × String)}
      (name : String) {values : List String} (hne : values ≠ []) : Fills segs parts bound →
        Fills (.catchAll name :: segs) (values ++ parts) ((name, joinSegments values) :: bound)

/-- The name of a parameter or a catch-all. -/
def Segment.name? : Segment → Option String
  | .literal _ => none
  | .param name => some name
  | .catchAll name => some name

/-- Whether a segment takes any number of parts. -/
def Segment.isCatchAll : Segment → Bool
  | .catchAll _ => true
  | _ => false

/-- A filling fills each parameter once, in order. -/
theorem Fills.names {segs : List Segment} {parts : List String} {bound : List (String × String)}
    (h : Fills segs parts bound) : bound.map (·.1) = segs.filterMap Segment.name? := by
  induction h with
  | nil => rfl
  | literal text _ ih => exact ih
  | param name value _ ih => exact congrArg (name :: ·) ih
  | catchAll name _ _ ih => exact congrArg (name :: ·) ih

/-- Without a catch-all, every segment takes one part. -/
theorem Fills.length_eq {segs : List Segment} {parts : List String} {bound : List (String × String)}
    (h : Fills segs parts bound) (hrest : segs.countP Segment.isCatchAll = 0) :
    parts.length = segs.length := by
  induction h with
  | nil => rfl
  | literal text _ ih => exact congrArg (· + 1) (ih hrest)
  | param name value _ ih => exact congrArg (· + 1) (ih hrest)
  | catchAll name _ _ ih =>
    rw [List.countP_cons_of_pos rfl] at hrest
    cases hrest

/-- The matcher finds a filling. -/
theorem matchSegments_of_fills {segs : List Segment} {parts : List String}
    {filled : List (String × String)} (h : Fills segs parts filled)
    (hrest : segs.countP Segment.isCatchAll ≤ 1) (bound : List (String × String)) :
    matchSegments segs parts bound = some (bound ++ filled) := by
  induction h generalizing bound with
  | nil => rw [List.append_nil, matchSegments]
  | literal text _ ih => rw [matchSegments_literal, ih hrest]
  | param name value _ ih =>
    rw [matchSegments_param, ih hrest, List.append_assoc, List.singleton_append]
  | @catchAll segs parts filled name values hne hfills ih =>
    rw [List.countP_cons_of_pos rfl] at hrest
    have hnone : segs.countP Segment.isCatchAll = 0 := by omega
    have hlength := hfills.length_eq hnone
    have htaken : (values ++ parts).length - segs.length = values.length := by
      rw [List.length_append]
      omega
    have hsome : values.length ≠ 0 := fun hzero => hne (List.length_eq_zero_iff.1 hzero)
    rw [matchSegments, htaken, if_neg hsome, List.drop_left, List.take_left, ih (by omega),
      List.append_assoc, List.singleton_append]

/-- What the matcher accepts is a filling. -/
theorem exists_fills_of_matchSegments {segs : List Segment} {parts : List String}
    {bound all : List (String × String)} (h : matchSegments segs parts bound = some all) :
    ∃ filled, Fills segs parts filled ∧ all = bound ++ filled := by
  induction segs generalizing parts bound with
  | nil =>
    cases parts with
    | nil =>
      rw [matchSegments] at h
      exact ⟨[], .nil, (Option.some.inj h).symm.trans (List.append_nil bound).symm⟩
    | cons part parts =>
      rw [matchSegments] at h
      cases h
  | cons seg segs ih =>
    cases seg with
    | literal text =>
      cases parts with
      | nil =>
        rw [matchSegments] at h
        cases h
      | cons part parts =>
        rw [matchSegments] at h
        split at h
        · rename_i hpart
          obtain ⟨filled, hfills, rfl⟩ := ih h
          exact ⟨filled, hpart ▸ .literal part hfills, rfl⟩
        · cases h
    | param name =>
      cases parts with
      | nil =>
        rw [matchSegments] at h
        cases h
      | cons part parts =>
        rw [matchSegments_param] at h
        obtain ⟨filled, hfills, rfl⟩ := ih h
        exact ⟨(name, part) :: filled, .param name part hfills, List.append_assoc ..⟩
    | catchAll name =>
      rw [matchSegments] at h
      split at h
      · cases h
      · rename_i htaken
        obtain ⟨filled, hfills, rfl⟩ := ih h
        generalize hn : parts.length - segs.length = n at *
        have hne : parts.take n ≠ [] := by
          intro hnil
          have hlength := congrArg List.length hnil
          rw [List.length_take, List.length_nil] at hlength
          omega
        have hwhole := Fills.catchAll name hne hfills
        rw [List.take_append_drop] at hwhole
        exact ⟨_, hwhole, List.append_assoc ..⟩

/-- The matcher accepts exactly the parts that fill a pattern. -/
theorem matchSegments_eq_some_iff {segs : List Segment}
    (hrest : segs.countP Segment.isCatchAll ≤ 1) {parts : List String}
    {filled : List (String × String)} :
    matchSegments segs parts [] = some filled ↔ Fills segs parts filled := by
  constructor
  · intro h
    obtain ⟨filled', hfills, rfl⟩ := exists_fills_of_matchSegments h
    exact hfills
  · intro h
    exact matchSegments_of_fills h hrest []

/-! ## Requests -/

theorem pathSegments_joinSegments {parts : List String} (h : ∀ part ∈ parts, Disk.IsName part) :
    pathSegments (joinSegments parts) = parts := by
  have hslash : ∀ a ∈ parts.map String.toList, '/' ∉ a := by
    intro a ha
    obtain ⟨part, hpart, rfl⟩ := List.mem_map.1 ha
    exact (h part hpart).noSlash
  have hne : ∀ a ∈ parts.map String.toList, a ≠ [] := by
    intro a ha hnil
    obtain ⟨part, hpart, rfl⟩ := List.mem_map.1 ha
    exact (h part hpart).ne_empty (String.toList_eq_nil_iff.1 hnil)
  rw [pathSegments, joinSegments, String.toList_ofList, Text.segments_joinPieces hslash hne,
    List.map_map]
  exact (List.map_congr_left fun part _ => String.ofList_toList).trans (List.map_id parts)

/-- The path that has the given segments. -/
def pathOf (parts : List String) : String := "/" ++ joinSegments parts

theorem pathSegments_pathOf {parts : List String} (h : ∀ part ∈ parts, Disk.IsName part) :
    pathSegments (pathOf parts) = parts := by
  have hlist : (pathOf parts).toList = '/' :: (joinSegments parts).toList := by
    rw [pathOf, String.toList_append]
    rfl
  rw [pathSegments, hlist, Text.segments_cons]
  exact pathSegments_joinSegments h

/-- A request for any host that fills a pattern without a host binds each parameter to what it is
filled with, and nothing else. -/
theorem bind_of_fills {p : RoutePattern} (hhost : p.host = none)
    (hrest : p.segments.countP Segment.isCatchAll ≤ 1)
    (hnames : (p.segments.filterMap Segment.name?).Nodup) {parts : List String}
    (hparts : ∀ part ∈ parts, Disk.IsName part) {filled : List (String × String)}
    (h : Fills p.segments parts filled) (host : Option String) :
    ∃ params, p.bind host (pathOf parts) = some params ∧
      ∀ name value, params.get? name = some value ↔ (name, value) ∈ filled := by
  have hfits : p.fitsHost host = true := by
    rw [fitsHost, hhost]
  refine ⟨Dict.ofList filled, ?_, fun name value => Dict.get?_ofList_iff (h.names ▸ hnames)⟩
  rw [bind, if_pos hfits, pathSegments_pathOf hparts, (matchSegments_eq_some_iff hrest).2 h]
  rfl

end RoutePattern

end Waymark
