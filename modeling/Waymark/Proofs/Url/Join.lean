import Waymark.Proofs.Url.Written
/-!
# Going up and down

A relative path that goes up some directories and then down along names leads where it
says: up from the directory of the base, as many segments as it has dots, and down from
there.  That is so for files as for the web, as long as no segment on the way is a
drive, which nothing leads out of.

## Main results

* `pushAll_upward` — a walk goes up by dots before it goes down.
* `join_upward` — where a path up and down leads, seen from a URL.
-/

namespace Waymark.Url

open Percent

/-! ## Walks -/

/-- The dots that lead `n` directories up, and to the directory itself when `n` is zero. -/
def upward : Nat → List (List Char)
  | 0 => [['.']]
  | n + 1 => List.replicate (n + 1) ['.', '.']

theorem upward_ne_nil (n : Nat) : upward n ≠ [] := by
  cases n with
  | zero => exact List.cons_ne_nil _ _
  | succ n => exact List.cons_ne_nil _ _

theorem eq_dots_of_mem_upward {n : Nat} {s : List Char} (h : s ∈ upward n) :
    s = ['.'] ∨ s = ['.', '.'] := by
  cases n with
  | zero => exact Or.inl (List.mem_singleton.1 h)
  | succ n => exact Or.inr (List.eq_of_mem_replicate h)

theorem push_single (scheme : List Char) (w : Walk) : w.push scheme false ['.'] = w := rfl

theorem push_double (scheme : List Char) {w : Walk} {s : List Char} {above : List (List Char)}
    (hpassed : w.passed = s :: above) (hroot : isDriveRoot s = false) :
    w.push scheme false ['.', '.'] = ⟨above, w.onDrive⟩ := by
  show (⟨climb w.passed, w.onDrive⟩ : Walk) = _
  rw [hpassed, climb, hroot, if_neg Bool.false_ne_true]

theorem pushAll_double (scheme : List Char) {above : List (List Char)}
    (hroots : ∀ s ∈ above, isDriveRoot s = false) {rest : List (List Char)} (hne : rest ≠ [])
    (w : Walk) {left : List (List Char)} (hpassed : w.passed = above ++ left) :
    w.pushAll scheme (List.replicate above.length ['.', '.'] ++ rest) =
      (⟨left, w.onDrive⟩ : Walk).pushAll scheme rest := by
  induction above generalizing w with
  | nil =>
    obtain ⟨passed, onDrive⟩ := w
    obtain rfl : passed = left := hpassed
    rfl
  | cons s above ih =>
    have hmore : List.replicate above.length ['.', '.'] ++ rest ≠ [] :=
      fun hnil => hne (List.append_eq_nil_iff.1 hnil).2
    rw [List.length_cons, List.replicate_succ, List.cons_append, pushAll_cons scheme w _ hmore,
      push_double scheme hpassed (hroots s (List.mem_cons_self ..))]
    exact ih (fun r hr => hroots r (List.mem_cons_of_mem _ hr)) ⟨above ++ left, w.onDrive⟩ rfl

/-- A walk goes up by dots before it goes down. -/
theorem pushAll_upward (scheme : List Char) {above : List (List Char)}
    (hroots : ∀ s ∈ above, isDriveRoot s = false) {rest : List (List Char)} (hne : rest ≠ [])
    (w : Walk) {left : List (List Char)} (hpassed : w.passed = above ++ left) :
    w.pushAll scheme (upward above.length ++ rest) =
      (⟨left, w.onDrive⟩ : Walk).pushAll scheme rest := by
  cases above with
  | nil =>
    obtain ⟨passed, onDrive⟩ := w
    obtain rfl : passed = left := hpassed
    show Walk.pushAll scheme _ (['.'] :: rest) = _
    rw [pushAll_cons scheme _ _ hne, push_single]
  | cons s above => exact pushAll_double scheme hroots hne w hpassed

/-! ## Texts -/

/-- A segment that is a name in every URL: written, and no drive. -/
structure IsName (s : List Char) : Prop where
  segment : IsSegment s
  notDrive : isDriveLetter s = false

theorem IsName.isDriveRoot {s : List Char} (h : IsName s) : isDriveRoot s = false := by
  have hwhole : s.takeWhile (· ≠ '\\') = s := by
    apply List.takeWhile_eq_self_iff.2
    intro c hc
    have hslash := h.segment.noSlash c hc
    unfold isSlash at hslash
    simp only [Bool.true_and, Bool.or_eq_false_iff, decide_eq_false_iff_not] at hslash
    exact decide_eq_true hslash.2
  rw [Url.isDriveRoot, hwhole]
  exact h.notDrive

/-- What stands in a path up and down. -/
theorem forall_upward {P : Char → Prop} (hslash : P '/') (hdot : P '.') {n : Nat}
    {target : List (List Char)} (htarget : ∀ s ∈ target, ∀ c ∈ s, P c) :
    ∀ c ∈ Text.joinPieces '/' (upward n ++ target), P c := by
  intro c hc
  rcases Text.mem_of_mem_joinPieces hc with rfl | ⟨s, hs, hc⟩
  · exact hslash
  · rcases List.mem_append.1 hs with hs | hs
    · rcases eq_dots_of_mem_upward hs with rfl | rfl
      · obtain rfl := List.mem_singleton.1 hc
        exact hdot
      · obtain rfl := Text.forall_mem_of_all (P := (· = '.')) (by decide) c hc
        exact hdot
    · exact htarget s hs c hc

/-- A path up and down is read as dots and names. -/
theorem piecesOf_upward (scheme : List Char) (n : Nat) {target : List (List Char)}
    (htarget : ∀ s ∈ target, IsName s) :
    piecesOf scheme (Text.joinPieces '/' (upward n ++ target)) = upward n ++ target := by
  refine Text.piecesWhere_joinPieces (by simp [isSlash]) ?_ ?_
  · intro s hs c hc
    rcases List.mem_append.1 hs with hs | hs
    · have hdot : c = '.' := by
        rcases eq_dots_of_mem_upward hs with rfl | rfl
        · exact List.mem_singleton.1 hc
        · exact Text.forall_mem_of_all (P := (· = '.')) (by decide) c hc
      rw [hdot]
      simp [isSlash]
    · have hslash := (htarget s hs).segment.noSlash c hc
      unfold isSlash at hslash ⊢
      simp only [Bool.true_and, Bool.or_eq_false_iff, decide_eq_false_iff_not] at hslash
      simp [hslash.1, hslash.2]
  · exact fun hnil => upward_ne_nil n (List.append_eq_nil_iff.1 hnil).1

theorem exists_upward (n : Nat) (target : List (List Char)) :
    ∃ rest, Text.joinPieces '/' (upward n ++ target) = '.' :: rest ∧
      startsWithDrive ('.' :: rest) = false := by
  have hsingle (more : List Char) : startsWithDrive ('.' :: '/' :: more) = false := rfl
  have hdouble (more : List Char) : startsWithDrive ('.' :: '.' :: '/' :: more) = false := rfl
  cases n with
  | zero =>
    cases target with
    | nil => exact ⟨[], rfl, by decide⟩
    | cons s target => exact ⟨_, rfl, hsingle _⟩
  | succ n =>
    cases n with
    | zero =>
      cases target with
      | nil => exact ⟨['.'], rfl, by decide⟩
      | cons s target => exact ⟨_, rfl, hdouble _⟩
    | succ n => exact ⟨_, rfl, hdouble _⟩

/-! ## Joining -/

/-- Where a walk up and down leads. -/
theorem walkPath_upward {scheme : List Char} {dir above target : List (List Char)}
    (habove : ∀ s ∈ above, isDriveRoot s = false) (htarget : ∀ s ∈ target, IsName s)
    (hne : target ≠ []) (hfile : scheme = fileScheme → (dir ++ target).head? ≠ some []) :
    walkPath scheme (dir ++ above) (Text.joinPieces '/' (upward above.length ++ target)) =
      .rooted (dir ++ target) := by
  have hroots : ∀ s ∈ above.reverse, isDriveRoot s = false :=
    fun s hs => habove s (List.mem_reverse.1 hs)
  have hsegments : ∀ s ∈ target, IsSegment s ∧ (scheme = fileScheme → isDriveLetter s = false) :=
    fun s hs => ⟨(htarget s hs).segment, fun _ => (htarget s hs).notDrive⟩
  have hpushed : (Walk.start (dir ++ above)).pushAll scheme (upward above.length ++ target) =
      ⟨target.reverse ++ dir.reverse, false⟩ := by
    have hup := pushAll_upward scheme hroots hne (Walk.start (dir ++ above)) List.reverse_append
    rw [List.length_reverse] at hup
    rw [hup, pushAll_segments hsegments]
    rfl
  rw [walkPath, walk, piecesOf_upward scheme _ htarget, hpushed, Walk.toPath]
  dsimp only
  rw [List.reverse_append, List.reverse_reverse, List.reverse_reverse]
  split
  · rename_i hscheme
    have hhead := hfile hscheme
    cases hwhole : dir ++ target with
    | nil => exact absurd (List.append_eq_nil_iff.1 hwhole).2 hne
    | cons s rest =>
      rw [hwhole] at hhead
      have hs : s ≠ [] := fun hs => hhead (congrArg some hs)
      rw [List.dropWhile_cons, if_neg (by simpa using hs)]
  · rfl

/-- Where a path up and down leads, seen from a URL. -/
theorem join_upward {base : Url} {dir above target : List (List Char)} {name : List Char}
    (hpath : base.path = .rooted (dir ++ above ++ [name]))
    (habove : ∀ s ∈ above, isDriveRoot s = false) (htarget : ∀ s ∈ target, IsName s)
    (hne : target ≠ [])
    (hfile : base.scheme = fileScheme →
      isDrive name = false ∧ (dir ++ target).head? ≠ some []) :
    base.join (String.ofList (Text.joinPieces '/' (upward above.length ++ target))) =
      .ok (base.withSuffix (.rooted (dir ++ target)) none none) := by
  obtain ⟨rest, hrest, hdrive⟩ := exists_upward above.length target
  have hwalk := walkPath_upward habove htarget hne fun hscheme => (hfile hscheme).2
  generalize htext : Text.joinPieces '/' (upward above.length ++ target) = text at *
  have hvisible : IsVisible text := by
    rw [← htext]
    exact forall_upward (by decide) (by decide) fun s hs => (htarget s hs).segment.isVisible
  have hkept {c : Char} (hc : (c.toNat < 128 && keepsInPath c) = false) (hslash : c ≠ '/')
      (hdot : c ≠ '.') : c ∉ text := by
    intro hmem
    have hall := forall_upward (P := (· ≠ c)) (n := above.length) hslash.symm hdot.symm
      fun s hs d hd => (htarget s hs).segment.encoded.ne_of_mem hd hc
    rw [htext] at hall
    exact hall c hmem rfl
  have hmark : '?' ∉ text := hkept (by decide) (by decide) (by decide)
  have hhash : '#' ∉ text := hkept (by decide) (by decide) (by decide)
  have hcut : cutSuffixes text = (text, none, none) := by
    have hhash : '#' ∉ text ++ queryText none := by simpa [queryText] using hhash
    have hcut := cutSuffixes_append hhash hmark none
    simpa [queryText, fragmentText] using hcut
  have hscheme : schemeOf? text = none := by
    rw [hrest]
    rfl
  have hdirectory : (dir ++ above ++ [name]).dropLast = dir ++ above := List.dropLast_concat
  unfold join read
  rw [String.toList_ofList, hvisible.trim, hcut]
  dsimp only [Option.map_none]
  rw [hvisible.dropBreaks, hscheme]
  dsimp only
  rw [hpath]
  dsimp only
  split
  · rename_i hfileScheme
    have hbeside : walkBeside (dir ++ above ++ [name]) text = .rooted (dir ++ target) := by
      have hlast : (dir ++ above ++ [name]).getLast?.filter isDrive = none := by
        rw [List.getLast?_concat, Option.filter_some, (hfile hfileScheme).1]
        rfl
      rw [walkBeside, hlast, hdirectory]
      rw [← hfileScheme]
      exact hwalk
    rw [hrest] at hbeside
    unfold readFile
    rw [hvisible.dropBreaks, hrest]
    dsimp only
    rw [if_neg (by decide), hdrive, if_neg Bool.false_ne_true, hpath, segmentsOf, hbeside]
  · rw [hrest] at hwalk
    rw [hrest, readRelative, if_neg (by decide), hpath, segmentsOf, hdirectory, hwalk]

end Waymark.Url
