import Waymark.Proofs.Script.ServedUrl
/-!
# What a mapped import means

An import map gives a specifier its target, and the target is then read like an import
of its own: a URL is taken as it is, a path from the root is cleaned, and a path with
`./` or `../` in front starts from the directory of the module that wrote it.  Without
scopes the target is the same in every importer, but what the target means is the same
in all of them exactly if it is a URL or a path from the root.

The argument for the last part is about depth.  A path takes back at most as many
segments as it has pieces, so an importer that lies deeper than that leaves its mark in
whatever the path comes to.

## Main results

* `toList_localPath` — a relative path, segment by segment, from the directory it starts in.
* `exists_foldl_pushSegment` — a path never takes back more than it has pieces.
* `exists_resolveTarget_ne` — a relative target has importers that disagree about it.
* `resolve_alike_iff` — the targets that mean the same in every importer.
-/

namespace Waymark.Specifier

/-! ## Depth -/

/-- Segments that lie deeper than a path has pieces stay where they are. -/
theorem exists_foldl_pushSegment {ps : List (List Char)} {kept : List (List Char)}
    (h : ps.length ≤ kept.length) (base : List (List Char)) :
    ∃ top, ps.foldl pushSegment (kept ++ base) = top ++ base := by
  induction ps generalizing kept with
  | nil => exact ⟨kept, rfl⟩
  | cons p ps ih =>
    have hlength : ps.length + 1 ≤ kept.length := h
    rw [List.foldl_cons, pushSegment]
    by_cases hskip : p = [] ∨ p = ['.']
    · rw [if_pos hskip]
      apply ih
      omega
    · rw [if_neg hskip]
      by_cases hup : p = ['.', '.']
      · rw [if_pos hup]
        cases kept with
        | nil => exact absurd hlength (Nat.not_succ_le_zero _)
        | cons a kept =>
          apply ih
          simpa using hlength
      · rw [if_neg hup, ← List.cons_append]
        apply ih
        rw [List.length_cons]
        omega

end Waymark.Specifier

namespace Waymark.Script

open Specifier

/-! ## Relative paths -/

/-- The directory of a path is the path without its last segment. -/
theorem directory_flatMap {as : List (List Char)} {a : List Char} (h : '/' ∉ a) {path : String}
    (hpath : path.toList = (as ++ [a]).flatMap ('/' :: ·)) :
    directory path = String.ofList (as.flatMap ('/' :: ·)) := by
  have hcut : Text.cutLast '/' path.toList = some (as.flatMap ('/' :: ·), a) := by
    rw [hpath, List.flatMap_append]
    simpa using Text.cutLast_append (as.flatMap ('/' :: ·)) h
  rw [directory, hcut]

/-- A relative path starts from the segments of the directory of its importer. -/
theorem toList_localPath {as : List (List Char)} {a : List Char} {importer : Specifier}
    (hi : importer.toList = '.' :: '/' :: Text.joinPieces '/' (as ++ [a]))
    (has : ∀ b ∈ as ++ [a], IsCleanSegment b) {path : String} (hpath : isRelative path = true) :
    (localPath importer path).toList = '.' :: '/' :: Text.joinPieces '/'
      ((Text.piecesWhere isSlash path.toList).foldl pushSegment as.reverse).reverse := by
  have hurl : (urlPath importer).toList = (as ++ [a]).flatMap ('/' :: ·) := by
    have hcons : '/' :: Text.joinPieces '/' (as ++ [a]) = (as ++ [a]).flatMap ('/' :: ·) := by
      cases as with
      | nil => exact Text.cons_joinPieces '/' a []
      | cons b as => exact Text.cons_joinPieces '/' b (as ++ [a])
    rw [urlPath, hi, ← hcons]
    simp
  have hslash : '/' ∉ a := by
    intro hmem
    have hno := (has a (List.mem_append_right _ (List.mem_singleton_self a))).noSlash '/' hmem
    exact absurd hno (by decide)
  have hclean : ∀ b ∈ as, IsCleanSegment b := fun b hb => has b (List.mem_append_left _ hb)
  have hsegments : cleanSegments (as.flatMap ('/' :: ·) ++ '/' :: path.toList) =
      ((Text.piecesWhere isSlash path.toList).foldl pushSegment as.reverse).reverse := by
    show ((Text.piecesWhere isSlash _).foldl pushSegment []).reverse = _
    rw [Text.piecesWhere_flatMap rfl (fun b hb => (hclean b hb).noSlash)]
    show ((as ++ _).foldl pushSegment []).reverse = _
    rw [List.foldl_append, foldl_pushSegment_clean hclean, List.append_nil]
  rw [localPath, if_pos hpath, directory_flatMap hslash hurl]
  simp [hsegments]

/-! ## Importers that disagree -/

/-- A module in a directory of which every part is named by one letter. -/
def deepImporter (depth : Nat) (name : Char) : Specifier :=
  String.ofList ('.' :: '/' :: Text.joinPieces '/' (List.replicate depth [name] ++ [['m']]))

theorem isCleanSegment_letter (name : Char) (h : name.isAlpha = true) : IsCleanSegment [name] := by
  have hne {c : Char} (hc : c.isAlpha = false) : name ≠ c := by
    rintro rfl
    rw [h] at hc
    nomatch hc
  constructor
  · simp
  · simpa using hne (c := '.') rfl
  · simp
  · intro c hc
    obtain rfl := List.mem_singleton.1 hc
    simp [isSlash, hne (c := '/') rfl, hne (c := '\\') rfl]

theorem isCleanSegment_deepImporter (depth : Nat) (name : Char) (h : name.isAlpha = true) :
    ∀ a ∈ List.replicate depth [name] ++ [['m']], IsCleanSegment a := by
  intro a ha
  rcases List.mem_append.1 ha with ha | ha
  · obtain ⟨-, rfl⟩ := List.mem_replicate.1 ha
    exact isCleanSegment_letter name h
  · obtain rfl := List.mem_singleton.1 ha
    exact isCleanSegment_letter 'm' rfl

theorem isCanonical_deepImporter (depth : Nat) (name : Char) (h : name.isAlpha = true) :
    IsCanonical (deepImporter depth name) := by
  have hsegments := cleanSegments_join (isCleanSegment_deepImporter depth name h)
  refine ⟨String.ofList ('/' :: Text.joinPieces '/' (List.replicate depth [name] ++ [['m']])), ?_⟩
  rw [← String.toList_inj, deepImporter]
  simp [hsegments]

/-- In a module that lies deep enough, a relative path stays below the outermost directory. -/
theorem toList_localPath_deepImporter (name : Char) (h : name.isAlpha = true) {path : String}
    (hpath : isRelative path = true) :
    ∃ rest, (localPath (deepImporter ((Text.piecesWhere isSlash path.toList).length + 1) name)
      path).toList = '.' :: '/' :: name :: rest := by
  have hreverse (n : Nat) : (List.replicate (n + 1) [name]).reverse =
      List.replicate n [name] ++ [[name]] := by
    rw [List.reverse_replicate, List.replicate_succ']
  have hlength : (Text.piecesWhere isSlash path.toList).length ≤
      (List.replicate (Text.piecesWhere isSlash path.toList).length [name]).length := by
    simp
  obtain ⟨top, htop⟩ := exists_foldl_pushSegment hlength [[name]]
  have hlist := toList_localPath (String.toList_ofList (l := '.' :: '/' :: _))
    (isCleanSegment_deepImporter ((Text.piecesWhere isSlash path.toList).length + 1) name h) hpath
  rw [hreverse, htop] at hlist
  rw [deepImporter, hlist, List.reverse_append]
  cases top.reverse with
  | nil => exact ⟨[], rfl⟩
  | cons a as => exact ⟨_, rfl⟩

theorem exists_resolveTarget_ne {target : String} (hremote : isRemote target = false)
    (hrelative : isRelative target = true) :
    ∃ i j, IsCanonical i ∧ IsCanonical j ∧ resolveTarget i target ≠ resolveTarget j target := by
  have hlocal {i : Specifier} (hi : IsCanonical i) :
      resolveTarget i target = some (localPath i target) := by
    simp [resolveTarget, hremote, hrelative, resolvePath, hi.isRemote]
  obtain ⟨s, hs⟩ := toList_localPath_deepImporter 'a' rfl hrelative
  obtain ⟨t, ht⟩ := toList_localPath_deepImporter 'b' rfl hrelative
  have ha := isCanonical_deepImporter
    ((Text.piecesWhere isSlash target.toList).length + 1) 'a' rfl
  have hb := isCanonical_deepImporter
    ((Text.piecesWhere isSlash target.toList).length + 1) 'b' rfl
  refine ⟨_, _, ha, hb, ?_⟩
  rw [hlocal ha, hlocal hb]
  intro heq
  have heq := congrArg String.toList (Option.some.inj heq)
  rw [hs, ht] at heq
  simp at heq

/-! ## Targets that mean the same everywhere -/

/-- A path from the root means the same in every local module. -/
theorem resolveTarget_of_isRooted {importer : Specifier} {target : String}
    (hi : isRemote importer = false) (ht : isRemote target = false)
    (hrooted : isRooted target = true) :
    resolveTarget importer target = some ("." ++ clean target) := by
  have hrelative : isRelative target = false := by
    unfold isRooted at hrooted
    unfold isRelative
    cases hs : target.toList with
    | nil => rfl
    | cons c s =>
      rw [hs] at hrooted
      have hc : '/' = c := by simpa using hrooted
      rw [← hc]
      rfl
  simp [resolveTarget, ht, hrooted, resolvePath, hi, localPath, hrelative]

/-- Without scopes, what a mapped specifier means is the same in all local modules exactly if its
target is a URL or a path from the root. -/
theorem resolve_alike_iff {map : ImportMap} (hscopes : map.scopes.entries = [])
    {specifier target : String} (htarget : map.resolve specifier none = some target) :
    (∀ i j, IsCanonical i → IsCanonical j →
      ∃ d, resolve map i specifier = some d ∧ resolve map j specifier = some d ∧
        (isRemote d = true ∨ IsCanonical d)) ↔
      (isRemote target = true ∨ isRooted target = true) := by
  have hresolve (i : Specifier) : resolve map i specifier = resolveTarget i target := by
    have hmapped : map.resolve specifier (some i) = some target := by
      rw [ImportMap.resolve_of_scopes_eq_empty hscopes] at htarget ⊢
      exact htarget
    rw [resolve, hmapped]
    rfl
  simp only [hresolve]
  by_cases hremote : isRemote target = true
  · have htaken (i : Specifier) : resolveTarget i target = some target := by
      rw [resolveTarget, if_pos hremote]
    constructor
    · intro _
      exact Or.inl hremote
    · intro _ i j _ _
      exact ⟨target, htaken i, htaken j, Or.inl hremote⟩
  · rw [Bool.not_eq_true] at hremote
    constructor
    · intro halike
      by_cases hrelative : isRelative target = true
      · obtain ⟨i, j, hi, hj, hne⟩ := exists_resolveTarget_ne hremote hrelative
        obtain ⟨d, hdi, hdj, -⟩ := halike i j hi hj
        exact absurd (hdi.trans hdj.symm) hne
      · -- what is no path at all means nothing, so only a path from the root is left
        have hi := isCanonical_deepImporter 0 'a' rfl
        obtain ⟨d, hd, -, -⟩ := halike _ _ hi hi
        by_cases hrooted : isRooted target = true
        · exact Or.inr hrooted
        · simp [resolveTarget, hremote, hrelative, hrooted] at hd
    · intro h i j hi hj
      have hrooted : isRooted target = true := by simpa [hremote] using h
      exact ⟨_, resolveTarget_of_isRooted hi.isRemote hremote hrooted,
        resolveTarget_of_isRooted hj.isRemote hremote hrooted, Or.inr ⟨target, rfl⟩⟩

/-- The map that gives the root of the app a short name. -/
def homeMap : ImportMap := ⟨Dict.ofList [("~/", "./")], Dict.empty⟩

/-- A name for the root that is itself relative is read in each module for itself. -/
theorem resolve_alike_iff_home :
    (∀ i j, IsCanonical i → IsCanonical j →
      ∃ d, resolve homeMap i "~/lib/x.ts" = some d ∧ resolve homeMap j "~/lib/x.ts" = some d ∧
        (isRemote d = true ∨ IsCanonical d)) ↔
      (isRemote "./lib/x.ts" = true ∨ isRooted "./lib/x.ts" = true) :=
  resolve_alike_iff (by decide +kernel) (by decide +kernel)

/-- Two modules that mean different files by one mapped specifier. -/
theorem resolve_home_ne :
    homeMap.scopes.entries = [] ∧
      homeMap.resolve "~/lib/x.ts" none = some "./lib/x.ts" ∧
      IsCanonical "./a.ts" ∧ resolve homeMap "./a.ts" "~/lib/x.ts" = some "./lib/x.ts" ∧
      IsCanonical "./routes/b.ts" ∧
      resolve homeMap "./routes/b.ts" "~/lib/x.ts" = some "./routes/lib/x.ts" := by
  refine ⟨by decide +kernel, by decide +kernel, ⟨"a.ts", ?_⟩, by decide +kernel,
    ⟨"routes/b.ts", ?_⟩, by decide +kernel⟩
  · decide +kernel
  · decide +kernel

end Waymark.Script
