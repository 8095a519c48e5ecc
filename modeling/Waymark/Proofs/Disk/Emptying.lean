import Waymark.Proofs.Disk.Paths
/-!
# What is lost when a directory is emptied

A directory is emptied of all that lies in it, at any depth, and of nothing else.  Which
directory that is depends on where the path leads, name by name: `.` and `..` and the
empty path lead to the root or above it, and a directory above the root is emptied of
the root as well.  Where there is no directory one is made, and making directories takes
nothing away, since only what is not there is made.

## Main results

* `eq_of_directoryAt?_pathOf` — a path of plain names leads to the directory with these names.
* `enterAll_keeps` — making directories leaves every entry as it was.
* `resetDirectory_loses` — exactly what lies in the directory is lost.
-/

namespace Waymark.Disk

/-- An entry that was there is not there any more as it was. -/
def Loses (d d' : Disk) (key : String) : Prop :=
  ∃ entry, d.entries.get? key = some entry ∧ d'.entries.get? key ≠ some entry

/-- The directory that a path names, if it names one. -/
def directoryAt? (d : Disk) (path : String) : Option Place :=
  match d.lookup path with
  | .ok (place, .directory) => some place
  | _ => none

/-- Names lie in a directory, at any depth.  All that is below the root lies in the directories
above it. -/
def Inside : Place → List String → Prop
  | none, _ => True
  | some dir, names => isBelow names dir = true

theorem not_loses_self (d : Disk) (key : String) : ¬Loses d d key := by
  rintro ⟨entry, hentry, hne⟩
  exact hne hentry

/-- A single name lies in no directory but the root. -/
theorem isBelow_singleton (name : String) {dir : List String} (h : dir ≠ []) :
    isBelow [name] dir = false := by
  cases dir with
  | nil => exact absurd rfl h
  | cons first rest =>
    cases rest with
    | nil =>
      by_cases hname : first = name
      · simp [isBelow, hname]
      · simp [isBelow, List.isPrefixOf, hname]
    | cons second rest => simp [isBelow, List.isPrefixOf]

/-! ## Plain names -/

/-- A name that leads down into the directory it is looked up in. -/
structure IsPlain (name : String) : Prop extends IsName name where
  ne_dot : name ≠ "."
  ne_dots : name ≠ ".."

theorem isPlain_ofList {name : List Char} (hne : name ≠ []) (hslash : '/' ∉ name)
    (hdot : name ≠ ['.']) (hdots : name ≠ ['.', '.']) : IsPlain (String.ofList name) := by
  have hlist {t : List Char} (h : name ≠ t) : String.ofList name ≠ String.ofList t :=
    fun heq => h (String.ofList_injective heq)
  refine ⟨⟨hlist hne, ?_⟩, hlist hdot, hlist hdots⟩
  rw [String.toList_ofList]
  exact hslash

theorem eq_of_step_plain {d : Disk} {names : List String} {name : String} {spot : Spot}
    (hname : IsPlain name) (h : d.step (.below names) name = .ok spot) :
    spot = .below (names ++ [name]) := by
  unfold step at h
  dsimp only at h
  rw [if_neg hname.ne_dot, if_neg hname.ne_dots] at h
  split at h
  · split at h
    · nomatch h
    · split at h
      · exact (Except.ok.inj h).symm
      · nomatch h
  · nomatch h
  · nomatch h

theorem eq_of_walk_plain {d : Disk} {above names : List String} {spot : Spot}
    (hnames : ∀ name ∈ names, IsPlain name) (h : d.walk (.below above) names = .ok spot) :
    spot = .below (above ++ names) := by
  induction names generalizing above with
  | nil =>
    obtain rfl := Except.ok.inj h
    rw [List.append_nil]
  | cons name names ih =>
    unfold walk at h
    rw [List.foldlM_cons] at h
    cases hnext : d.step (.below above) name with
    | error e =>
      rw [hnext] at h
      nomatch h
    | ok next =>
      rw [hnext] at h
      obtain rfl := eq_of_step_plain (hnames name (List.mem_cons_self ..)) hnext
      rw [ih (fun other hother => hnames other (List.mem_cons_of_mem _ hother)) h,
        List.append_assoc]
      rfl

/-- A path of plain names leads nowhere but to the directory with these names. -/
theorem eq_of_directoryAt?_pathOf {d : Disk} {names : List String} {place : Place}
    (hnames : ∀ name ∈ names, IsPlain name)
    (h : d.directoryAt? (d.pathOf (keyOf names)) = some place) : place = some names := by
  have hisName : ∀ name ∈ names, IsName name := fun name hname => (hnames name hname).toIsName
  have hentrance : d.entrance? (d.pathOf (keyOf names)) = some (.below [], names) :=
    entrance?_pathOf d hisName
  unfold directoryAt? at h
  split at h
  · rename_i found hlookup
    obtain rfl := Option.some.inj h
    unfold lookup at hlookup
    rw [hentrance] at hlookup
    split at hlookup
    · nomatch hlookup
    · nomatch hlookup
    · rename_i start above _ hstart
      obtain ⟨rfl, rfl⟩ := Prod.mk.inj (Option.some.inj hstart)
      cases hwalk : d.walk (.below []) names with
      | error e =>
        rw [hwalk] at hlookup
        nomatch hlookup
      | ok spot =>
        rw [hwalk] at hlookup
        obtain rfl := eq_of_walk_plain hnames hwalk
        dsimp only [Bind.bind, Except.bind] at hlookup
        split at hlookup
        · split at hlookup
          · nomatch hlookup
          · nomatch hlookup
        · exact (Prod.mk.inj (Except.ok.inj hlookup)).1.symm
        · nomatch hlookup
  · nomatch h

/-! ## Making directories -/

/-- Everything that is on one disk is on the other as well. -/
def Keeps (d d' : Disk) : Prop :=
  ∀ key entry, d.entries.get? key = some entry → d'.entries.get? key = some entry

theorem Keeps.not_loses {d d' : Disk} (h : Keeps d d') (key : String) : ¬Loses d d' key := by
  rintro ⟨entry, hentry, hne⟩
  exact hne (h key entry hentry)

/-- A walk is in a directory that is there. -/
def Stands (d : Disk) : Spot → Prop
  | .below names => ∃ entry, d.find? names = some entry ∧ entry = .directory
  | .above _ => True

theorem stands_root (d : Disk) : Stands d (.below []) := ⟨.directory, rfl, rfl⟩

/-- What is not found in a directory is not there. -/
theorem get?_of_step_notFound {d : Disk} {names : List String} {name : String}
    (hstands : Stands d (.below names))
    (h : d.step (.below names) name = .error .notFound) :
    d.entries.get? (keyOf (names ++ [name])) = none := by
  obtain ⟨entry, hfind, rfl⟩ := hstands
  unfold step at h
  dsimp only at h
  rw [hfind] at h
  dsimp only at h
  split at h
  · nomatch h
  · split at h
    · nomatch h
    · split at h
      · nomatch h
      · split at h
        · nomatch h
        · rename_i hnone
          simpa [find?] using hnone

/-- Going into a directory takes nothing away, and then it is there. -/
theorem enter_keeps {d d' : Disk} {made made' : Bool} {spot spot' : Spot} {name : String}
    {rest : List String} (hstands : Stands d spot)
    (h : d.enter made spot name rest = .ok (d', made', spot')) : Keeps d d' ∧ Stands d' spot' := by
  unfold enter at h
  split at h
  · obtain ⟨rfl, -, rfl⟩ : d = d' ∧ made = made' ∧ _ = spot' := by simpa using h
    exact ⟨fun _ _ => id, trivial⟩
  · split at h
    · rename_i hfind
      obtain ⟨rfl, -, rfl⟩ : d = d' ∧ made = made' ∧ _ = spot' := by simpa using h
      exact ⟨fun _ _ => id, .directory, hfind, rfl⟩
    · cases h
  · rename_i names hstep
    split at h
    · cases h
    · obtain ⟨rfl, -, rfl⟩ : _ = d' ∧ true = made' ∧ _ = spot' := by simpa using h
      have hfree := get?_of_step_notFound hstands hstep
      constructor
      · intro key entry hentry
        have hne : key ≠ keyOf (names ++ [name]) := by
          rintro rfl
          cases hfree.symm.trans hentry
        show (d.entries.insert _ _).get? key = some entry
        rwa [Dict.get?_insert_ne _ _ hne]
      · refine ⟨.directory, ?_, rfl⟩
        simp [find?]
  · cases h

theorem enterAll_keeps {d d' : Disk} {made : Bool} {spot : Spot} {names : List String}
    (hstands : Stands d spot) (h : d.enterAll made spot names = .ok d') : Keeps d d' := by
  induction names generalizing d made spot with
  | nil =>
    obtain rfl := Except.ok.inj h
    exact fun _ _ => id
  | cons name names ih =>
    unfold enterAll at h
    split at h
    · rename_i d₁ made₁ spot₁ henter
      obtain ⟨hkeeps, hstands₁⟩ := enter_keeps hstands henter
      intro key entry hentry
      exact ih hstands₁ h key entry (hkeeps key entry hentry)
    · nomatch h

theorem ensureDirectory_keeps {d d' : Disk} {path : String}
    (h : d.ensureDirectory path = .ok d') : Keeps d d' := by
  unfold ensureDirectory at h
  split at h
  · nomatch h
  · nomatch h
  · rename_i start names _ hentrance
    have hstart : Stands d start := by
      unfold entrance? at hentrance
      split at hentrance
      · obtain ⟨rfl, -⟩ := Prod.mk.inj (Option.some.inj hentrance)
        exact stands_root d
      · split at hentrance
        · obtain ⟨rfl, -⟩ := Prod.mk.inj (Option.some.inj hentrance)
          trivial
        · nomatch hentrance
    exact enterAll_keeps hstart h

/-! ## Emptying -/

theorem clear_loses (d : Disk) (names : List String) (key : String) :
    Loses d (d.clear names false) key ↔
      (d.entries.get? key).isSome = true ∧ isBelow (namesOf key) names = true := by
  have hget : (d.clear names false).entries.get? key =
      (d.entries.get? key).filter fun _ => !isBelow (namesOf key) names := by
    show (d.entries.filter _).get? key = _
    rw [Dict.get?_filter]
    simp
  unfold Loses
  rw [hget]
  cases d.entries.get? key with
  | none => simp
  | some entry =>
    cases isBelow (namesOf key) names with
    | true => simp
    | false => simp

/-- Emptying a directory loses exactly what lies in it; where there is no directory, nothing is
lost. -/
theorem resetDirectory_loses {d d' : Disk} {path : String} (h : d.resetDirectory path = .ok d')
    (key : String) :
    Loses d d' key ↔ (d.entries.get? key).isSome = true ∧
      ∃ place, d.directoryAt? path = some place ∧ Inside place (namesOf key) := by
  unfold resetDirectory at h
  unfold directoryAt?
  split at h
  · rename_i names hlookup
    obtain rfl := Except.ok.inj h
    rw [clear_loses, hlookup]
    simp [Inside]
  · rename_i hlookup
    obtain rfl := Except.ok.inj h
    rw [hlookup]
    simp [Loses, Inside, Option.isSome_iff_exists]
  · nomatch h
  · rename_i e hlookup
    rw [hlookup]
    split at h
    · have hnot := (ensureDirectory_keeps h).not_loses key
      simp [hnot]
    · nomatch h

/-- A directory that is there can be emptied. -/
theorem resetDirectory_ok {d : Disk} {path : String} {place : Place}
    (h : d.directoryAt? path = some place) : ∃ d', d.resetDirectory path = .ok d' := by
  unfold directoryAt? at h
  unfold resetDirectory
  split at h
  · rename_i place' hlookup
    rw [hlookup]
    cases place' with
    | none => exact ⟨_, rfl⟩
    | some names => exact ⟨_, rfl⟩
  · nomatch h

end Waymark.Disk
