import Waymark.Proofs.Url.Read
/-!
# Paths of plain characters

A path in which no percent sign, no backslash, no tab and no line end stands.  Nothing of it is read
in a special way but its dots, so its segments are walked along as they are and escaped only in the
end.  Where two dots take back a name each time, the segments passed are those that cleaning keeps,
with some empty ones among them.

## Main results

* `passed_pushAll` — a walk along plain segments.
* `IsPlainPath.exists_readRelative` — what a plain path is read as relative to a page at the root.
* `IsPlainPath.cleanSegments_eq` — the segments passed and those that cleaning keeps.
-/

namespace Waymark.Url

open Percent

/-! ## Walks -/

/-- Whether a character is read as itself in a path. -/
def isPlain (c : Char) : Bool := c ≠ '%' && !isSlash true c && !isBreak c

theorem isSlash_of_isPlain {c : Char} (h : isPlain c = true) : isSlash true c = false := by
  simp only [isPlain, Bool.and_eq_true, Bool.not_eq_true'] at h
  exact h.1.2

/-- What is passed with one more segment, the last one first, before anything is escaped. -/
def pass (last : Bool) (passed : List (List Char)) (segment : List Char) : List (List Char) :=
  let tail := if last then [[]] else []
  if segment = ['.', '.'] then tail ++ passed.tail
  else if segment = ['.'] then tail ++ passed
  else segment :: passed

/-- What is passed with more segments, the last one first. -/
def passAll (passed : List (List Char)) : List (List Char) → List (List Char)
  | [] => passed
  | [s] => pass true passed s
  | s :: t :: ss => passAll (pass false passed s) (t :: ss)

/-- Whether two dots can take back a segment: it is not empty, and no drive. -/
def isStep (segment : List Char) : Bool := segment ≠ [] && !isDriveLetter segment

/-- Whether two dots take back a name, or nothing, wherever they stand. -/
def climbsNames (passed : List (List Char)) : List (List Char) → Bool
  | [] => true
  | s :: ss => (s ≠ ['.', '.'] || passed.head?.all isStep) && climbsNames (pass false passed s) ss

/-- A segment of plain characters. -/
def IsPlainSegment (segment : List Char) : Prop := ∀ c ∈ segment, isPlain c = true

namespace IsPlainSegment

variable {s : List Char}

theorem noEscape (h : IsPlainSegment s) : '%' ∉ s := fun hmem => absurd (h _ hmem) (by decide)

theorem noSlash (h : IsPlainSegment s) : ∀ c ∈ s, isSlash true c = false := fun c hc =>
  isSlash_of_isPlain (h c hc)

theorem dropBreaks (h : IsPlainSegment s) : dropBreaks s = s := by
  refine List.filter_eq_self.2 fun c hc => ?_
  have hplain := h c hc
  simp only [isPlain, Bool.and_eq_true] at hplain
  exact hplain.2

theorem isDoubleDot (h : IsPlainSegment s) : isDoubleDot s = decide (s = ['.', '.']) := by
  rw [Bool.eq_iff_iff, isDoubleDot_iff, decide_eq_true_eq]
  constructor
  · exact fun hdots => eq_replicate_of_dots hdots h.noEscape
  · rintro rfl
    exact .plain (.plain .nil)

theorem isSingleDot (h : IsPlainSegment s) : isSingleDot s = decide (s = ['.']) := by
  rw [Bool.eq_iff_iff, isSingleDot_iff, decide_eq_true_eq]
  constructor
  · exact fun hdots => eq_replicate_of_dots hdots h.noEscape
  · rintro rfl
    exact .plain .nil

end IsPlainSegment

theorem mem_pass {last : Bool} {passed : List (List Char)} {segment s : List Char}
    (h : s ∈ pass last passed segment) : s = [] ∨ s = segment ∨ s ∈ passed := by
  have htail {front : List (List Char)} (hfront : front ⊆ passed)
      (h : s ∈ (if last then [[]] else []) ++ front) : s = [] ∨ s = segment ∨ s ∈ passed := by
    rcases List.mem_append.1 h with h | h
    · split at h
      · exact Or.inl (List.mem_singleton.1 h)
      · nomatch h
    · exact Or.inr (Or.inr (hfront h))
  unfold pass at h
  dsimp only at h
  split at h
  · exact htail (List.tail_sublist passed).subset h
  · split at h
    · exact htail (List.Subset.refl passed) h
    · exact Or.inr (List.mem_cons.1 h)

theorem isPlainSegment_pass {last : Bool} {passed : List (List Char)} {segment : List Char}
    (hsegment : IsPlainSegment segment) (hpassed : ∀ s ∈ passed, IsPlainSegment s) :
    ∀ s ∈ pass last passed segment, IsPlainSegment s := by
  intro s hs
  rcases mem_pass hs with rfl | rfl | hs
  · exact fun c hc => nomatch hc
  · exact hsegment
  · exact hpassed s hs

theorem passAll_concat (passed : List (List Char)) (segments : List (List Char))
    (segment : List Char) : ∃ front, passAll passed (segments ++ [segment]) =
      pass true front segment := by
  induction segments generalizing passed with
  | nil => exact ⟨passed, rfl⟩
  | cons s segments ih =>
    obtain ⟨front, hfront⟩ := ih (pass false passed s)
    refine ⟨front, ?_⟩
    rw [← hfront]
    cases segments with
    | nil => rfl
    | cons t segments => rfl

/-- A walk ends in its last segment, or behind it if that is made of dots. -/
theorem head?_pass (passed : List (List Char)) (segment : List Char) :
    (pass true passed segment).head? =
      some (if segment = ['.'] ∨ segment = ['.', '.'] then [] else segment) := by
  unfold pass
  by_cases hdouble : segment = ['.', '.']
  · rw [if_pos hdouble, if_pos (Or.inr hdouble)]
    rfl
  · rw [if_neg hdouble]
    by_cases hsingle : segment = ['.']
    · rw [if_pos hsingle, if_pos (Or.inl hsingle)]
      rfl
    · rw [if_neg hsingle, if_neg (not_or.2 ⟨hsingle, hdouble⟩)]
      rfl

theorem isPlainSegment_passAll {passed segments : List (List Char)}
    (hsegments : ∀ s ∈ segments, IsPlainSegment s) (hpassed : ∀ s ∈ passed, IsPlainSegment s) :
    ∀ s ∈ passAll passed segments, IsPlainSegment s := by
  induction segments generalizing passed with
  | nil => exact hpassed
  | cons t segments ih =>
    obtain ⟨ht, hsegments⟩ := List.forall_mem_cons.1 hsegments
    cases segments with
    | nil => exact isPlainSegment_pass ht hpassed
    | cons u segments => exact ih hsegments (isPlainSegment_pass ht hpassed)

/-- A segment that is no drive is none when it is escaped. -/
theorem isDriveRoot_encodeWith {s : List Char} (hs : IsPlainSegment s)
    (hdrive : isDriveLetter s = false) : isDriveRoot (encodeWith keepsInPath s) = false := by
  have hwhole : (encodeWith keepsInPath s).takeWhile (· ≠ '\\') = encodeWith keepsInPath s := by
    refine List.takeWhile_eq_self_iff.2 fun c hc => decide_eq_true ?_
    rintro rfl
    exact absurd (hs.noSlash _ (mem_of_mem_encodeWith (by decide) (by decide) hc)) (by decide)
  rw [isDriveRoot, hwhole, Bool.eq_false_iff]
  intro hletter
  cases hwritten : encodeWith keepsInPath s with
  | nil =>
    rw [hwritten] at hletter
    cases hletter
  | cons c rest =>
    rw [hwritten] at hletter
    match rest, hletter with
    | [d], hletter =>
      obtain ⟨hc, hd⟩ := Bool.and_eq_true_iff.1 hletter
      have hcne : c ≠ '%' := by
        rintro rfl
        cases hc
      have hdne : d ≠ '%' := by
        rintro rfl
        cases hd
      obtain ⟨s₁, rfl, hafter⟩ := Specifier.eq_cons_of_encodeWith hcne hwritten
      obtain ⟨s₂, rfl, hend⟩ := Specifier.eq_cons_of_encodeWith hdne hafter
      cases Dots.of_encodeWith .nil hend
      rw [isDriveLetter, hc, hd] at hdrive
      cases hdrive

/-- One more plain segment is passed as it is and escaped. -/
theorem passed_push {scheme : List Char} (hfile : scheme ≠ fileScheme) {last : Bool} {w : Walk}
    {passed : List (List Char)} (hw : w.passed = passed.map (encodeWith keepsInPath))
    (hpassed : ∀ s ∈ passed, IsPlainSegment s) {segment : List Char}
    (hsegment : IsPlainSegment segment)
    (hclimb : segment = ['.', '.'] → passed.head?.all isStep = true) :
    (w.push scheme last segment).passed =
      (pass last passed segment).map (encodeWith keepsInPath) := by
  have htail : ((if last then [[]] else []) : List (List Char)).map (encodeWith keepsInPath) =
      if last then [[]] else [] := by
    split
    · rfl
    · rfl
  rw [push_of_ne_file hfile, hsegment.dropBreaks, hsegment.isDoubleDot, hsegment.isSingleDot, pass]
  by_cases hdouble : segment = ['.', '.']
  · have habove : climb w.passed = passed.tail.map (encodeWith keepsInPath) := by
      rw [hw]
      cases passed with
      | nil => rfl
      | cons s above =>
        -- only a drive at the root would stay
        have hstep := hclimb hdouble
        simp only [List.head?_cons, Option.all_some, isStep, Bool.and_eq_true,
          Bool.not_eq_true'] at hstep
        have hroot := isDriveRoot_encodeWith (hpassed s (List.mem_cons_self ..)) hstep.2
        show (if isDriveRoot (encodeWith keepsInPath s) then _ else _) = _
        rw [hroot]
        rfl
    rw [if_pos (decide_eq_true hdouble), if_pos hdouble, List.map_append, htail, habove]
  · rw [if_neg (by simpa using hdouble), if_neg hdouble]
    by_cases hsingle : segment = ['.']
    · rw [if_pos (decide_eq_true hsingle), if_pos hsingle, List.map_append, htail, hw]
    · rw [if_neg (by simpa using hsingle), if_neg hsingle, List.map_cons, Walk.append, hw]

/-- A walk along plain segments passes them as they are, and escapes them. -/
theorem passed_pushAll {scheme : List Char} (hfile : scheme ≠ fileScheme) {w : Walk}
    {passed : List (List Char)} (hw : w.passed = passed.map (encodeWith keepsInPath))
    (hpassed : ∀ s ∈ passed, IsPlainSegment s) {segments : List (List Char)}
    (hsegments : ∀ s ∈ segments, IsPlainSegment s)
    (hclimbs : climbsNames passed segments = true) :
    (w.pushAll scheme segments).passed =
      (passAll passed segments).map (encodeWith keepsInPath) := by
  induction segments generalizing w passed with
  | nil => exact hw
  | cons s segments ih =>
    obtain ⟨hs, hsegments⟩ := List.forall_mem_cons.1 hsegments
    obtain ⟨hfirst, hclimbs⟩ := Bool.and_eq_true_iff.1 hclimbs
    have hclimb : s = ['.', '.'] → passed.head?.all isStep = true := fun hdots => by
      simpa [hdots] using hfirst
    cases segments with
    | nil => exact passed_push hfile hw hpassed hs hclimb
    | cons t segments =>
      exact ih (passed_push hfile hw hpassed hs hclimb) (isPlainSegment_pass hs hpassed)
        hsegments hclimbs

/-! ## Cleaning -/

/-- Segments without the empty ones among them. -/
def nonempty (segments : List (List Char)) : List (List Char) := segments.filter (· ≠ [])

theorem nonempty_cons {s : List Char} (hs : s ≠ []) (segments : List (List Char)) :
    nonempty (s :: segments) = s :: nonempty segments :=
  List.filter_cons_of_pos (by simpa using hs)

theorem nonempty_tail {passed : List (List Char)} (h : passed.head?.all isStep = true) :
    nonempty passed.tail = (nonempty passed).tail := by
  cases passed with
  | nil => rfl
  | cons s passed =>
    have hs : s ≠ [] := by
      rintro rfl
      cases h
    rw [nonempty_cons hs]
    rfl

/-- Empty segments apart, one more segment is passed as it is cleaned. -/
theorem nonempty_pass (last : Bool) {passed : List (List Char)} {segment : List Char}
    (h : segment = ['.', '.'] → passed.head?.all isStep = true) :
    nonempty (pass last passed segment) = Specifier.pushSegment (nonempty passed) segment := by
  have htail (front : List (List Char)) :
      nonempty ((if last then [[]] else []) ++ front) = nonempty front := by
    rw [nonempty, List.filter_append]
    split
    · rfl
    · rfl
  unfold pass Specifier.pushSegment
  by_cases hdouble : segment = ['.', '.']
  · have hnot : ¬(segment = [] ∨ segment = ['.']) := by
      rw [hdouble]
      decide
    rw [if_pos hdouble, if_neg hnot, if_pos hdouble, htail, nonempty_tail (h hdouble)]
  · rw [if_neg hdouble]
    by_cases hsingle : segment = ['.']
    · rw [if_pos hsingle, if_pos (Or.inr hsingle), htail]
    · rw [if_neg hsingle]
      by_cases hempty : segment = []
      · rw [if_pos (Or.inl hempty), hempty]
        rfl
      · rw [if_neg (not_or.2 ⟨hempty, hsingle⟩), if_neg hdouble, nonempty_cons hempty]

/-- Empty segments apart, those that are passed are those that cleaning keeps. -/
theorem nonempty_passAll {passed segments : List (List Char)}
    (hclimbs : climbsNames passed segments = true) :
    nonempty (passAll passed segments) =
      segments.foldl Specifier.pushSegment (nonempty passed) := by
  induction segments generalizing passed with
  | nil => rfl
  | cons s segments ih =>
    obtain ⟨hfirst, hclimbs⟩ := Bool.and_eq_true_iff.1 hclimbs
    have hclimb : s = ['.', '.'] → passed.head?.all isStep = true := fun hdots => by
      simpa [hdots] using hfirst
    rw [List.foldl_cons, ← nonempty_pass segments.isEmpty hclimb]
    cases segments with
    | nil => rfl
    | cons t segments => exact ih hclimbs

/-- Where only empty segments are to be resolved, cleaning keeps the others. -/
theorem foldl_pushSegment_nonempty {segments : List (List Char)}
    (h : ∀ s ∈ segments, s ≠ [] → Specifier.IsCleanSegment s) (kept : List (List Char)) :
    segments.foldl Specifier.pushSegment kept = (nonempty segments).reverse ++ kept := by
  induction segments generalizing kept with
  | nil => rfl
  | cons s segments ih =>
    obtain ⟨hs, hsegments⟩ := List.forall_mem_cons.1 h
    rw [List.foldl_cons, ih hsegments]
    by_cases hempty : s = []
    · subst hempty
      rfl
    · rw [nonempty_cons hempty, Specifier.pushSegment_clean (hs hempty), List.reverse_cons,
        List.append_assoc]
      rfl

/-! ## Plain paths -/

/-- A path without the slash of the root. -/
def belowRoot : List Char → List Char
  | '/' :: path => path
  | path => path

/-- The segments that a path is written with. -/
def steps (path : List Char) : List (List Char) := Text.pieces '/' (belowRoot path)

/-- The segments that a path leads through from the root, dots resolved. -/
def passedBy (path : List Char) : List (List Char) := (passAll [] (steps path)).reverse

/-- A path of plain characters that does not begin with a host, and in which two dots take back
names. -/
structure IsPlainPath (path : List Char) : Prop where
  plain : ∀ c ∈ path, c = '/' ∨ isPlain c = true
  noHost : ¬['/', '/'] <+: path
  climbs : climbsNames [] (steps path) = true

theorem mem_belowRoot {path : List Char} {c : Char} (h : c ∈ belowRoot path) : c ∈ path := by
  unfold belowRoot at h
  split at h
  · exact List.mem_cons_of_mem _ h
  · exact h

namespace IsPlainPath

variable {path : List Char} (h : IsPlainPath path)

include h

theorem isPlainSegment : ∀ s ∈ steps path, IsPlainSegment s := by
  intro s hs c hc
  have hslash : c ≠ '/' := fun heq => Text.notMem_of_mem_pieces hs (heq ▸ hc)
  exact (h.plain c (mem_belowRoot (Text.mem_of_mem_pieces hs hc))).resolve_left hslash

theorem isPlainSegment_passedBy : ∀ s ∈ passedBy path, IsPlainSegment s := fun s hs =>
  isPlainSegment_passAll h.isPlainSegment (List.forall_mem_nil _) s (List.mem_reverse.1 hs)

/-- A page of the web walks along a plain path from the root. -/
theorem walkPath_belowRoot {scheme : List Char} (hweb : IsWeb scheme) :
    walkPath scheme [] (belowRoot path) =
      .rooted ((passedBy path).map (encodeWith keepsInPath)) := by
  have hpieces : piecesOf scheme (belowRoot path) = steps path := by
    have hjoin := Text.piecesWhere_joinPieces (p := isSlash true) (d := '/') rfl
      (fun s hs => (h.isPlainSegment s hs).noSlash) (Text.piecesWhere_ne_nil _ _)
    unfold steps at hjoin
    rw [Text.joinPieces_pieces] at hjoin
    rw [piecesOf, hweb.isSpecial, hjoin]
    rfl
  have hstart : (Walk.start []).passed = [].map (encodeWith keepsInPath) := rfl
  have hpassed := passed_pushAll hweb.ne_file hstart (List.forall_mem_nil _) h.isPlainSegment h.climbs
  rw [walkPath, walk, hpieces, Walk.toPath, if_neg hweb.ne_file, hpassed, ← List.map_reverse]
  rfl

/-- What a plain path is read as relative to a page at the root. -/
theorem exists_readRelative {page : Url} (hweb : IsWeb page.scheme) (hroot : page.path = .rooted [[]])
    (query fragment : Option (List Char)) : ∃ u, readRelative page path query fragment = .ok u ∧
      u.scheme = page.scheme ∧ u.host = page.host ∧ u.port = page.port ∧
      u.path = .rooted ((passedBy path).map (encodeWith keepsInPath)) := by
  have hwalk := h.walkPath_belowRoot hweb
  cases path with
  | nil => exact ⟨_, rfl, rfl, rfl, rfl, hroot⟩
  | cons c path =>
    by_cases hc : c = '/'
    · subst hc
      have hone : path.head?.any (isSlash true) = false := by
        cases path with
        | nil => rfl
        | cons d path =>
          -- a second slash would begin a host
          have hd : d ≠ '/' := fun hd => h.noHost ⟨path, by rw [hd]; rfl⟩
          exact isSlash_of_isPlain ((h.plain d (by simp)).resolve_left hd)
      refine ⟨page.withSuffix (walkPath page.scheme [] path) query fragment, ?_, rfl, rfl, rfl, hwalk⟩
      have hslash : isSlash true '/' = true := rfl
      rw [readRelative, if_pos hslash, hone]
      rfl
    · have hslash : isSlash true c = false :=
        isSlash_of_isPlain ((h.plain c (List.mem_cons_self ..)).resolve_left hc)
      have hbelow : belowRoot (c :: path) = c :: path := by
        unfold belowRoot
        split
        · rename_i heq
          exact absurd (List.cons.inj heq).1 hc
        · rfl
      rw [hbelow] at hwalk
      refine ⟨page.withSuffix (walkPath page.scheme [] (c :: path)) query fragment, ?_, rfl, rfl, rfl,
        hwalk⟩
      rw [readRelative, hslash, hroot]
      rfl

/-- Empty segments apart, a plain path leads through those that cleaning keeps. -/
theorem cleanSegments_eq : Specifier.cleanSegments path = nonempty (passedBy path) := by
  have hpieces : Text.piecesWhere Specifier.isSlash (belowRoot path) = steps path := by
    have hjoin := Text.piecesWhere_joinPieces (p := Specifier.isSlash) (d := '/') rfl
      (fun s hs => (h.isPlainSegment s hs).noSlash) (Text.piecesWhere_ne_nil _ _)
    unfold steps at hjoin
    rwa [Text.joinPieces_pieces] at hjoin
  have hbelow : Specifier.cleanSegments path =
      ((steps path).foldl Specifier.pushSegment []).reverse := by
    rw [← hpieces]
    unfold belowRoot
    split
    · rfl
    · rfl
  rw [hbelow, passedBy, nonempty, List.filter_reverse]
  exact congrArg List.reverse (nonempty_passAll h.climbs).symm

end IsPlainPath

end Waymark.Url
