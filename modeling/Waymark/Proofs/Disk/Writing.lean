import Waymark.Proofs.Disk.Emptying
/-!
# Files that are written stay

What is written under a path is found under this path, whatever the path is: a walk along
it gets as far as before, as nothing but the file itself was put on the disk, or changed.
For the same reason all other paths that led to a file still lead to one.  Both need that
a walk does not stand on thin air: all directories above the place it is at are there.

## Main results

* `grounded_walk` — a walk passes through directories only.
* `find?_of_readText` — a text is read from the file with the names of the path.
* `read_dots` — no path that ends in two dots leads to a file.
* `Grows.lookup` — a path that leads to a file leads to one on a disk that has grown.
* `ensureDirectory_grows`, `write_grows` — making directories and writing files let a disk grow.
* `lookup_of_write` — what is written under a path is found there.
-/

namespace Waymark.Disk

/-! ## Walks -/

/-- What a walk is at is there, and so are the directories above it. -/
def Grounded (d : Disk) : Spot → Prop
  | .below names => (d.find? names).isSome = true ∧
      ∀ above, above <+: names → above ≠ names → d.find? above = some .directory
  | .above _ => True

theorem grounded_root (d : Disk) : Grounded d (.below []) := by
  refine ⟨rfl, ?_⟩
  intro above habove hne
  exact absurd (List.prefix_nil.1 habove) hne

theorem Grounded.parent {d : Disk} {names : List String} (h : Grounded d (.below names))
    (hne : names ≠ []) : d.find? names.dropLast = some .directory := by
  apply h.2 names.dropLast (List.dropLast_prefix names)
  intro heq
  have hlength := congrArg List.length heq
  have hpos := List.length_pos_iff.2 hne
  rw [List.length_dropLast] at hlength
  omega

/-- A step is taken from a directory. -/
theorem exists_of_step_below {d : Disk} {names : List String} {name : String} {spot : Spot}
    (h : d.step (.below names) name = .ok spot) : d.find? names = some .directory ∧
      (spot = .below names ∨ spot = d.up (.below names) ∨
        spot = .below (names ++ [name]) ∧ (d.find? (names ++ [name])).isSome = true) := by
  unfold step at h
  dsimp only at h
  split at h
  · rename_i hfind
    refine ⟨hfind, ?_⟩
    split at h
    · exact Or.inl (Except.ok.inj h).symm
    · split at h
      · exact Or.inr (Or.inl (Except.ok.inj h).symm)
      · split at h
        · nomatch h
        · split at h
          · rename_i hsome
            exact Or.inr (Or.inr ⟨(Except.ok.inj h).symm, hsome⟩)
          · nomatch h
  · nomatch h
  · nomatch h

/-- From above the root a step leads to the root at best. -/
theorem eq_of_step_above {d : Disk} {n : Nat} {name : String} {names : List String}
    (h : d.step (.above n) name = .ok (.below names)) : names = [] := by
  unfold step at h
  dsimp only at h
  split at h
  · nomatch Except.ok.inj h
  · split at h
    · have hup : (if n + 1 < d.rootNames.length then Spot.above (n + 1) else .above n) =
          .below names := Except.ok.inj h
      split at hup
      · nomatch hup
      · nomatch hup
    · split at h
      · nomatch h
      · split at h
        · cases n with
          | zero => exact (Spot.below.inj (Except.ok.inj h)).symm
          | succ n => nomatch Except.ok.inj h
        · nomatch h

theorem grounded_up {d : Disk} {names : List String} (h : Grounded d (.below names)) :
    Grounded d (d.up (.below names)) := by
  cases names with
  | nil =>
    show Grounded d (if d.rootNames = [] then .below [] else .above 0)
    split
    · exact grounded_root d
    · trivial
  | cons name names =>
    have hparent := h.parent (List.cons_ne_nil name names)
    refine ⟨by rw [hparent]; rfl, ?_⟩
    intro above habove hne
    apply h.2 above (habove.trans (List.dropLast_prefix _))
    rintro rfl
    have hlength := habove.length_le
    rw [List.length_dropLast, List.length_cons] at hlength
    omega

theorem grounded_step {d : Disk} {spot next : Spot} {name : String} (h : Grounded d spot)
    (hstep : d.step spot name = .ok next) : Grounded d next := by
  cases spot with
  | above n =>
    cases next with
    | above m => trivial
    | below names =>
      rw [eq_of_step_above hstep]
      exact grounded_root d
  | below names =>
    obtain ⟨hfind, hnext⟩ := exists_of_step_below hstep
    rcases hnext with rfl | rfl | ⟨rfl, hsome⟩
    · exact h
    · exact grounded_up h
    · refine ⟨hsome, ?_⟩
      intro above habove hne
      have hprefix := (List.prefix_concat_iff.1 habove).resolve_left hne
      by_cases heq : above = names
      · rw [heq, hfind]
      · exact h.2 above hprefix heq

/-- A walk passes through directories only. -/
theorem grounded_walk {d : Disk} {names : List String} {spot next : Spot} (h : Grounded d spot)
    (hwalk : d.walk spot names = .ok next) : Grounded d next := by
  induction names generalizing spot with
  | nil =>
    obtain rfl := Except.ok.inj hwalk
    exact h
  | cons name names ih =>
    unfold walk at hwalk
    rw [List.foldlM_cons] at hwalk
    cases hstep : d.step spot name with
    | error e =>
      rw [hstep] at hwalk
      nomatch hwalk
    | ok first =>
      rw [hstep] at hwalk
      exact ih (grounded_step h hstep) hwalk

theorem grounded_entrance {d : Disk} {path : String} {start : Spot} {names : List String}
    (h : d.entrance? path = some (start, names)) : Grounded d start := by
  unfold entrance? at h
  split at h
  · obtain ⟨rfl, -⟩ := Prod.mk.inj (Option.some.inj h)
    exact grounded_root d
  · split at h
    · obtain ⟨rfl, -⟩ := Prod.mk.inj (Option.some.inj h)
      trivial
    · nomatch h

/-- What is above an entry is a directory. -/
theorem find?_of_up {d : Disk} {spot : Spot} {above : List String} (h : Grounded d spot)
    (hup : d.up spot = .below above) : d.find? above = some .directory := by
  unfold up at hup
  split at hup
  · split at hup
    · obtain rfl := Spot.below.inj hup
      rfl
    · nomatch hup
  · rename_i names hne
    obtain rfl := Spot.below.inj hup
    exact h.parent hne
  · split at hup
    · nomatch hup
    · nomatch hup

/-- Two dots lead to a directory. -/
theorem find?_of_step_dots {d : Disk} {spot : Spot} {above : List String} (h : Grounded d spot)
    (hstep : d.step spot ".." = .ok (.below above)) : d.find? above = some .directory := by
  apply find?_of_up h
  unfold step at hstep
  split at hstep
  · exact Except.ok.inj hstep
  · split at hstep
    · exact Except.ok.inj hstep
    · nomatch hstep
    · nomatch hstep

theorem exists_of_walk_concat {d : Disk} {spot next : Spot} {names : List String} {name : String}
    (h : d.walk spot (names ++ [name]) = .ok next) :
    ∃ last, d.walk spot names = .ok last ∧ d.step last name = .ok next := by
  induction names generalizing spot with
  | nil =>
    rw [walk, List.nil_append, List.foldlM_cons] at h
    refine ⟨spot, rfl, ?_⟩
    cases hstep : d.step spot name with
    | error e =>
      rw [hstep] at h
      nomatch h
    | ok last =>
      rw [hstep] at h
      exact h
  | cons first names ih =>
    rw [walk, List.cons_append, List.foldlM_cons] at h
    rw [walk, List.foldlM_cons]
    cases hstep : d.step spot first with
    | error e =>
      rw [hstep] at h
      nomatch h
    | ok second =>
      rw [hstep] at h
      exact ih h

/-! ## Files that are found -/

/-- A path leads to the file with these names. -/
structure Leads (d : Disk) (path : String) (names : List String) : Prop where
  allowed : refusal? path = none
  file : wantsDirectory path = false
  way : ∃ start steps, d.entrance? path = some (start, steps) ∧
    d.walk start steps = .ok (.below names)

theorem lookup_iff {d : Disk} {path : String} {place : Place} {content : ByteArray} :
    d.lookup path = .ok (place, .file content) ↔
      ∃ names, place = some names ∧ Leads d path names ∧ d.find? names = some (.file content) := by
  unfold lookup
  constructor
  · intro h
    split at h
    · nomatch h
    · nomatch h
    · rename_i start steps hallowed hentrance
      cases hwalk : d.walk start steps with
      | error e =>
        rw [hwalk] at h
        nomatch h
      | ok spot =>
        rw [hwalk] at h
        dsimp only [Bind.bind, Except.bind] at h
        split at h
        · nomatch Except.ok.inj h
        · rename_i names
          split at h
          · rename_i content' hfind
            split at h
            · nomatch h
            · rename_i hfile
              obtain ⟨rfl, hcontent⟩ := Prod.mk.inj (Except.ok.inj h)
              obtain rfl := DiskEntry.file.inj hcontent
              have hway := Bool.eq_false_iff.2 hfile
              exact ⟨names, rfl, ⟨hallowed, hway, start, steps, hentrance, hwalk⟩, hfind⟩
          · nomatch Except.ok.inj h
          · nomatch h
  · rintro ⟨names, rfl, ⟨hallowed, hfile, start, steps, hentrance, hwalk⟩, hfind⟩
    rw [hallowed, hentrance]
    dsimp only
    rw [hwalk]
    dsimp only [Bind.bind, Except.bind]
    rw [hfind]
    dsimp only
    rw [hfile]
    rfl

/-- A path of plain names leads to the file with these names. -/
theorem Leads.eq_of_plain {d : Disk} {names found : List String}
    (hnames : ∀ name ∈ names, IsPlain name) (h : Leads d (d.pathOf (keyOf names)) found) :
    found = names := by
  obtain ⟨start, steps, hentrance, hwalk⟩ := h.way
  rw [entrance?_pathOf d fun name hname => (hnames name hname).toIsName] at hentrance
  obtain ⟨rfl, rfl⟩ := Prod.mk.inj (Option.some.inj hentrance)
  exact Spot.below.inj (eq_of_walk_plain hnames hwalk)

/-- A text that is read by a path of plain names is read from the file with these names. -/
theorem find?_of_readText {d : Disk} {names : List String} (hnames : ∀ name ∈ names, IsPlain name)
    {text : String} (hread : d.readText (d.pathOf (keyOf names)) = .ok text) :
    ∃ content, d.find? names = some (.file content) := by
  cases hcontent : d.read (d.pathOf (keyOf names)) with
  | error e =>
    rw [readText, hcontent] at hread
    nomatch hread
  | ok content =>
    refine ⟨content, ?_⟩
    unfold read at hcontent
    split at hcontent
    · rename_i place found hlookup
      obtain rfl := Except.ok.inj hcontent
      obtain ⟨found, -, hleads, hfind⟩ := lookup_iff.1 hlookup
      rwa [hleads.eq_of_plain hnames] at hfind
    · nomatch hcontent
    · nomatch hcontent

/-- A path that ends in two dots names no file. -/
theorem read_dots {d : Disk} {path : String} {start : Spot} {names : List String}
    (hentrance : d.entrance? path = some (start, names ++ [".."])) (content : ByteArray) :
    d.read path ≠ .ok content := by
  intro hread
  unfold read at hread
  split at hread
  · rename_i place found hlookup
    obtain ⟨above, -, hleads, hfile⟩ := lookup_iff.1 hlookup
    obtain ⟨start', steps, hentrance', hwalk⟩ := hleads.way
    rw [hentrance] at hentrance'
    obtain ⟨rfl, rfl⟩ := Prod.mk.inj (Option.some.inj hentrance')
    obtain ⟨last, hlast, hstep⟩ := exists_of_walk_concat hwalk
    have hgrounded := grounded_walk (grounded_entrance hentrance) hlast
    rw [find?_of_step_dots hgrounded hstep] at hfile
    nomatch hfile
  · nomatch hread
  · nomatch hread

/-! ## Disks that grow -/

/-- All that was there is there, files as files and directories as directories. -/
structure Grows (d d' : Disk) : Prop where
  root : d'.root = d.root
  directories : ∀ names, d.find? names = some .directory → d'.find? names = some .directory
  files : ∀ names content, d.find? names = some (.file content) →
    ∃ content', d'.find? names = some (.file content')

theorem Grows.refl (d : Disk) : Grows d d := ⟨rfl, fun _ => id, fun _ content h => ⟨content, h⟩⟩

theorem Grows.trans {d₁ d₂ d₃ : Disk} (h : Grows d₁ d₂) (h' : Grows d₂ d₃) : Grows d₁ d₃ where
  root := h'.root.trans h.root
  directories names hfind := h'.directories names (h.directories names hfind)
  files names content hfind := by
    obtain ⟨content', hfind'⟩ := h.files names content hfind
    exact h'.files names content' hfind'

section
variable {d d' : Disk}

theorem Grows.isSome (h : Grows d d') {names : List String}
    (hsome : (d.find? names).isSome = true) : (d'.find? names).isSome = true := by
  cases hfind : d.find? names with
  | none =>
    rw [hfind] at hsome
    nomatch hsome
  | some entry =>
    cases entry with
    | directory => rw [h.directories names hfind]; rfl
    | file content =>
      obtain ⟨content', hfind'⟩ := h.files names content hfind
      rw [hfind']
      rfl

theorem Grows.up (h : Grows d d') (spot : Spot) : d'.up spot = d.up spot := by
  have hnames : d'.rootNames = d.rootNames := congrArg namesOf h.root
  unfold Disk.up
  rw [hnames]

theorem Grows.step (h : Grows d d') {spot next : Spot} {name : String}
    (hstep : d.step spot name = .ok next) : d'.step spot name = .ok next := by
  have hnames : d'.rootNames = d.rootNames := congrArg namesOf h.root
  cases spot with
  | above n =>
    unfold Disk.step at hstep ⊢
    dsimp only at hstep ⊢
    rw [h.up, hnames]
    exact hstep
  | below names =>
    have hfind := (exists_of_step_below hstep).1
    unfold Disk.step at hstep ⊢
    dsimp only at hstep ⊢
    rw [hfind] at hstep
    rw [h.directories names hfind, h.up]
    dsimp only at hstep ⊢
    by_cases hsome : (d.find? (names ++ [name])).isSome = true
    · rw [if_pos hsome] at hstep
      rw [if_pos (h.isSome hsome)]
      exact hstep
    · -- then the step was no step down
      rw [if_neg hsome] at hstep
      split at hstep
      · rename_i hdot
        rw [if_pos hdot]
        exact hstep
      · rename_i hdot
        rw [if_neg hdot]
        split at hstep
        · rename_i hdots
          rw [if_pos hdots]
          exact hstep
        · split at hstep
          · nomatch hstep
          · nomatch hstep

theorem Grows.walk (h : Grows d d') {names : List String} {spot next : Spot}
    (hwalk : d.walk spot names = .ok next) : d'.walk spot names = .ok next := by
  induction names generalizing spot with
  | nil => exact hwalk
  | cons name names ih =>
    unfold Disk.walk at hwalk ⊢
    rw [List.foldlM_cons] at hwalk ⊢
    cases hstep : d.step spot name with
    | error e =>
      rw [hstep] at hwalk
      nomatch hwalk
    | ok first =>
      rw [hstep] at hwalk
      rw [h.step hstep]
      exact ih hwalk

theorem Grows.entrance (h : Grows d d') (path : String) : d'.entrance? path = d.entrance? path := by
  unfold entrance? namesBelow rootNames
  rw [h.root]

/-- A path that leads to a file still leads to one. -/
theorem Grows.lookup (h : Grows d d') {path : String} {place : Place} {content : ByteArray}
    (hlookup : d.lookup path = .ok (place, .file content)) :
    ∃ content', d'.lookup path = .ok (place, .file content') := by
  obtain ⟨names, rfl, ⟨hallowed, hfile, start, steps, hentrance, hwalk⟩, hfind⟩ :=
    lookup_iff.1 hlookup
  obtain ⟨content', hfind'⟩ := h.files names content hfind
  rw [← h.entrance] at hentrance
  exact ⟨content', lookup_iff.2
    ⟨names, rfl, ⟨hallowed, hfile, start, steps, hentrance, h.walk hwalk⟩, hfind'⟩⟩

/-! ## Directories that are made -/

theorem root_of_enter {made made' : Bool} {spot spot' : Spot} {name : String} {rest : List String}
    (h : d.enter made spot name rest = .ok (d', made', spot')) : d'.root = d.root := by
  unfold enter at h
  split at h
  · obtain ⟨rfl, -⟩ := Prod.mk.inj (Except.ok.inj h)
    rfl
  · split at h
    · obtain ⟨rfl, -⟩ := Prod.mk.inj (Except.ok.inj h)
      rfl
    · nomatch h
  · split at h
    · nomatch h
    · obtain ⟨rfl, -⟩ := Prod.mk.inj (Except.ok.inj h)
      rfl
  · nomatch h

theorem root_of_enterAll {made : Bool} {spot : Spot} {names : List String}
    (h : d.enterAll made spot names = .ok d') : d'.root = d.root := by
  induction names generalizing d made spot with
  | nil =>
    obtain rfl := Except.ok.inj h
    rfl
  | cons name names ih =>
    unfold enterAll at h
    split at h
    · rename_i henter
      rw [ih h, root_of_enter henter]
    · nomatch h

theorem Keeps.find? (h : Keeps d d') {names : List String} {entry : DiskEntry}
    (hfind : d.find? names = some entry) : d'.find? names = some entry := by
  unfold Disk.find? at hfind ⊢
  split at hfind
  · rename_i hnil
    rw [if_pos hnil]
    exact hfind
  · rename_i hne
    rw [if_neg hne]
    exact h _ _ hfind

/-- Making directories leaves everything as it is. -/
theorem ensureDirectory_grows {path : String} (h : d.ensureDirectory path = .ok d') :
    Grows d d' := by
  have hkeeps := ensureDirectory_keeps h
  have hroot : d'.root = d.root := by
    unfold ensureDirectory at h
    split at h
    · nomatch h
    · nomatch h
    · exact root_of_enterAll h
  exact ⟨hroot, fun _ hfind => hkeeps.find? hfind, fun _ content hfind => ⟨content, hkeeps.find? hfind⟩⟩

/-! ## Files that are written -/

/-- A file can be put where its directory is and no directory is in the way. -/
structure HasRoom (d : Disk) (names : List String) : Prop where
  ne_root : names ≠ []
  parent : d.find? names.dropLast = some .directory
  free : d.find? names ≠ some .directory

theorem put_of_hasRoom {names : List String} (h : HasRoom d names) (entry : DiskEntry) :
    d.put names entry = { d with entries := d.entries.insert (keyOf names) entry } := by
  have hparents : d.putParents names = d := by
    unfold putParents
    rw [h.parent]
  unfold put
  rw [hparents]
  exact if_neg h.ne_root

theorem put_grows {names : List String} (h : HasRoom d names) (content : ByteArray) :
    Grows d (d.put names (.file content)) := by
  have hput := put_of_hasRoom h (.file content)
  have hfind (other : List String) : (d.put names (.file content)).find? other = d.find? other ∨
      other ≠ [] ∧ d.find? other = d.find? names ∧
        (d.put names (.file content)).find? other = some (.file content) := by
    by_cases hroot : other = []
    · subst hroot
      exact Or.inl rfl
    · unfold find?
      rw [if_neg hroot, if_neg hroot, if_neg h.ne_root, hput]
      by_cases hkey : keyOf other = keyOf names
      · rw [hkey]
        exact Or.inr ⟨hroot, rfl, Dict.get?_insert_self ..⟩
      · exact Or.inl (Dict.get?_insert_ne _ _ hkey)
  refine ⟨by rw [hput], ?_, ?_⟩
  · intro other hdirectory
    rcases hfind other with hsame | ⟨-, hnames, -⟩
    · rw [hsame, hdirectory]
    · exact absurd (hnames ▸ hdirectory) h.free
  · intro other content' hfile
    rcases hfind other with hsame | ⟨-, -, hnew⟩
    · exact ⟨content', by rw [hsame, hfile]⟩
    · exact ⟨content, hnew⟩

/-- A step that finds nothing in a directory finds what is put there. -/
theorem step_of_notFound {names : List String} {name : String}
    (hfind : d.find? names = some .directory)
    (hfind' : d'.find? names = some .directory)
    (hstep : d.step (.below names) name = .error .notFound)
    (hsome : (d'.find? (names ++ [name])).isSome = true) :
    d'.step (.below names) name = .ok (.below (names ++ [name])) := by
  unfold step at hstep ⊢
  dsimp only at hstep ⊢
  rw [hfind] at hstep
  rw [hfind']
  dsimp only at hstep ⊢
  split at hstep
  · nomatch hstep
  · rename_i hdot
    rw [if_neg hdot]
    split at hstep
    · nomatch hstep
    · rename_i hdots
      rw [if_neg hdots]
      split at hstep
      · nomatch hstep
      · rename_i hlong
        rw [if_neg hlong, if_pos hsome]

theorem find?_of_step_notFound {names : List String} {name : String}
    (h : Grounded d (.below names)) (hstep : d.step (.below names) name = .error .notFound) :
    d.find? names = some .directory := by
  have hsome := h.1
  unfold step at hstep
  dsimp only at hstep
  cases hfind : d.find? names with
  | none =>
    rw [hfind] at hsome
    nomatch hsome
  | some entry =>
    cases entry with
    | directory => rfl
    | file content =>
      rw [hfind] at hstep
      nomatch hstep

/-- A step that leads to a file leads to one in a directory. -/
theorem hasRoom_of_step {spot : Spot} {name : String} {names : List String} {content : ByteArray}
    (h : Grounded d spot) (hstep : d.step spot name = .ok (.below names))
    (hfind : d.find? names = some (.file content)) : HasRoom d names := by
  have hgrounded := grounded_step h hstep
  have hne : names ≠ [] := by
    rintro rfl
    nomatch hfind
  exact ⟨hne, hgrounded.parent hne, by rw [hfind]; nofun⟩

theorem hasRoom_of_notFound {names : List String} {name : String}
    (h : Grounded d (.below names)) (hstep : d.step (.below names) name = .error .notFound) :
    HasRoom d (names ++ [name]) := by
  have hfind := find?_of_step_notFound h hstep
  have hfree := get?_of_step_notFound ⟨.directory, hfind, rfl⟩ hstep
  refine ⟨List.append_ne_nil_of_right_ne_nil names (List.cons_ne_nil name []), ?_, ?_⟩
  · rw [List.dropLast_concat, hfind]
  · have hnone : d.find? (names ++ [name]) = none := by
      simp [find?, hfree]
    rw [hnone]
    intro heq
    cases heq

/-- What is at the end of a way: a file, or nothing in a directory that is there. -/
inductive Ends (d : Disk) (parent : Spot) (name : String) (names : List String) : Prop where
  | file {content : ByteArray} (hstep : d.step parent name = .ok (.below names))
      (hfind : d.find? names = some (.file content)) : Ends d parent name names
  | free {above : List String} (hparent : parent = .below above) (hnames : names = above ++ [name])
      (hstep : d.step (.below above) name = .error .notFound) : Ends d parent name names

theorem Ends.hasRoom {parent : Spot} {name : String} {names : List String}
    (h : Ends d parent name names) (hgrounded : Grounded d parent) : HasRoom d names := by
  cases h with
  | file hstep hfind => exact hasRoom_of_step hgrounded hstep hfind
  | free hparent hnames hstep =>
    subst hparent hnames
    exact hasRoom_of_notFound hgrounded hstep

/-- The last step is taken once the file has been put there. -/
theorem Ends.step {parent : Spot} {name : String} {names : List String}
    (h : Ends d parent name names) (hgrounded : Grounded d parent) (hgrows : Grows d d')
    (hsome : (d'.find? names).isSome = true) : d'.step parent name = .ok (.below names) := by
  cases h with
  | file hstep hfind => exact hgrows.step hstep
  | free hparent hnames hstep =>
    subst hparent hnames
    have hfind := find?_of_step_notFound hgrounded hstep
    exact step_of_notFound hfind (hgrows.directories _ hfind) hstep hsome

/-- A target that is no directory is at the end of a way. -/
theorem exists_of_target {path : String} {names : List String} {there : Option DiskEntry}
    (h : d.target path = .ok (some names, there)) (hentry : there ≠ some .directory) :
    refusal? path = none ∧ ∃ start above name parent,
      d.entrance? path = some (start, above ++ [name]) ∧ d.walk start above = .ok parent ∧
        Ends d parent name names := by
  unfold target at h
  split at h
  · nomatch h
  · nomatch h
  · rename_i start steps hallowed hentrance
    refine ⟨hallowed, start, ?_⟩
    split at h
    · obtain ⟨-, hdirectory⟩ := Prod.mk.inj (Except.ok.inj h)
      exact absurd hdirectory.symm hentry
    · rename_i name hlast
      obtain ⟨above, rfl⟩ := List.getLast?_eq_some_iff.1 hlast
      rw [List.dropLast_concat] at h
      cases hwalk : d.walk start above with
      | error e =>
        rw [hwalk] at h
        nomatch h
      | ok parent =>
        rw [hwalk] at h
        dsimp only [Bind.bind, Except.bind] at h
        refine ⟨above, name, parent, hentrance, hwalk, ?_⟩
        split at h
        · rename_i found hstep
          obtain ⟨hplace, hfound⟩ := Prod.mk.inj (Except.ok.inj h)
          obtain rfl := Option.some.inj hplace
          have hgrounded := grounded_walk (grounded_entrance hentrance) hwalk
          have hsome := (grounded_step hgrounded hstep).1
          cases hfind : d.find? found with
          | none =>
            rw [hfind] at hsome
            nomatch hsome
          | some entry =>
            cases entry with
            | directory => exact absurd (hfound.symm.trans hfind) hentry
            | file content => exact .file hstep hfind
        · obtain ⟨-, hdirectory⟩ := Prod.mk.inj (Except.ok.inj h)
          exact absurd hdirectory.symm hentry
        · rename_i dir hstep
          obtain ⟨hplace, -⟩ := Prod.mk.inj (Except.ok.inj h)
          exact .free rfl (Option.some.inj hplace).symm hstep
        · nomatch h

/-- What is written is put at the target. -/
theorem exists_target_of_write {path : String} {content : ByteArray}
    (h : d.write path content = .ok d') :
    ∃ names there, d.target path = .ok (some names, there) ∧ there ≠ some .directory ∧
      wantsDirectory path = false ∧ d' = d.put names (.file content) := by
  unfold write at h
  cases htarget : d.target path with
  | error e =>
    rw [htarget] at h
    nomatch h
  | ok found =>
    rw [htarget] at h
    obtain ⟨place, there⟩ := found
    dsimp only [Bind.bind, Except.bind] at h
    split at h
    · nomatch h
    · rename_i names content' heq
      obtain ⟨rfl, rfl⟩ := Prod.mk.inj heq
      split at h
      · nomatch h
      · rename_i hfile
        exact ⟨names, _, rfl, nofun, Bool.eq_false_iff.2 hfile, (Except.ok.inj h).symm⟩
    · rename_i names heq
      obtain ⟨rfl, rfl⟩ := Prod.mk.inj heq
      split at h
      · nomatch h
      · rename_i hfile
        exact ⟨names, _, rfl, nofun, Bool.eq_false_iff.2 hfile, (Except.ok.inj h).symm⟩
    · nomatch h

/-- There is room for a file at a target that is no directory, and the path leads to it then. -/
theorem leads_of_target {path : String} {names : List String} {there : Option DiskEntry}
    (h : d.target path = .ok (some names, there)) (hentry : there ≠ some .directory)
    (hfile : wantsDirectory path = false) (content : ByteArray) :
    HasRoom d names ∧ Leads (d.put names (.file content)) path names := by
  obtain ⟨hallowed, start, above, name, parent, hentrance, hwalk, hends⟩ :=
    exists_of_target h hentry
  have hgrounded := grounded_walk (grounded_entrance hentrance) hwalk
  have hroom := hends.hasRoom hgrounded
  have hgrows := put_grows hroom content
  have hsome : ((d.put names (.file content)).find? names).isSome = true := by
    rw [find?_put_self hroom.ne_root]
    rfl
  refine ⟨hroom, hallowed, hfile, start, above ++ [name], ?_, ?_⟩
  · rw [hgrows.entrance, hentrance]
  · have hway := hgrows.walk hwalk
    unfold walk at hway ⊢
    rw [List.foldlM_append, hway]
    dsimp only [Bind.bind, Except.bind]
    rw [List.foldlM_cons, hends.step hgrounded hgrows hsome]
    rfl

/-- What a write does: it puts a file where there is room for one, and the path leads there then. -/
theorem exists_of_write {path : String} {content : ByteArray} (h : d.write path content = .ok d') :
    ∃ names, HasRoom d names ∧ d' = d.put names (.file content) ∧ Leads d' path names := by
  obtain ⟨names, there, htarget, hentry, hfile, rfl⟩ := exists_target_of_write h
  obtain ⟨hroom, hleads⟩ := leads_of_target htarget hentry hfile content
  exact ⟨names, hroom, rfl, hleads⟩

/-- Writing a file changes no other file to something else than a file. -/
theorem write_grows {path : String} {content : ByteArray} (h : d.write path content = .ok d') :
    Grows d d' := by
  obtain ⟨names, hroom, rfl, -⟩ := exists_of_write h
  exact put_grows hroom content

/-- What is written under a path is found there. -/
theorem lookup_of_write {path : String} {content : ByteArray} (h : d.write path content = .ok d') :
    ∃ names, d'.lookup path = .ok (some names, .file content) := by
  obtain ⟨names, hroom, rfl, hleads⟩ := exists_of_write h
  exact ⟨names, lookup_iff.2 ⟨names, rfl, hleads, find?_put_self hroom.ne_root⟩⟩

/-! ## Plain ways -/

/-- No key ends in a slash. -/
theorem isSuffixOf_keyOf {names : List String} (h : ∀ name ∈ names, IsName name) :
    ['/'].isSuffixOf (keyOf names).toList = false := by
  rw [toList_keyOf, Bool.eq_false_iff, Ne, List.isSuffixOf_iff_suffix]
  intro hsuffix
  cases hlast : names.getLast? with
  | none =>
    rw [List.getLast?_eq_none_iff.1 hlast] at hsuffix
    exact absurd (List.suffix_nil.1 hsuffix) (List.cons_ne_nil _ _)
  | some name =>
    obtain ⟨above, rfl⟩ := List.getLast?_eq_some_iff.1 hlast
    have hname := h name (by simp)
    have hne : name.toList ≠ [] := fun hnil => hname.ne_empty (String.toList_eq_nil_iff.1 hnil)
    rw [List.map_append, List.map_singleton,
      Text.joinPieces_append '/' _ (List.cons_ne_nil _ _)] at hsuffix
    -- the slash would stand in the last name
    have hin : ['/'] <:+ name.toList := by
      apply List.suffix_of_suffix_length_le hsuffix (List.suffix_append _ _)
      exact List.length_pos_iff.2 hne
    exact hname.noSlash (hin.subset (List.mem_singleton_self _))

/-- A path that is not rooted stands behind the root and a slash. -/
theorem pathOf_eq_append (d : Disk) {path : String} (h : ['/'].isPrefixOf path.toList = false) :
    d.pathOf path = d.pathOf "" ++ path := by
  unfold pathOf
  rw [join, join, h, show ['/'].isPrefixOf "".toList = false from rfl, if_neg Bool.false_ne_true,
    if_neg Bool.false_ne_true]
  by_cases hroot : ['/'].isSuffixOf d.root.toList = true
  · rw [if_pos hroot, if_pos hroot, String.append_empty]
  · rw [if_neg hroot, if_neg hroot, String.append_empty]

theorem isSuffixOf_pathOf (d : Disk) : ['/'].isSuffixOf (d.pathOf "").toList = true := by
  unfold pathOf
  rw [join, show ['/'].isPrefixOf "".toList = false from rfl, if_neg Bool.false_ne_true]
  by_cases hroot : ['/'].isSuffixOf d.root.toList = true
  · rw [if_pos hroot, String.append_empty]
    exact hroot
  · rw [if_neg hroot, List.isSuffixOf_iff_suffix]
    exact ⟨d.root.toList, by simp⟩

/-- The names of a path below a directory are those of the directory and those behind it. -/
theorem namesBelow_join {out : List String} (hout : ∀ name ∈ out, IsName name) {file : String}
    (hfile : ['/'].isPrefixOf file.toList = false) :
    d.namesBelow (join (d.pathOf (keyOf out)) file) = some (out ++ namesOf file) := by
  have hkey := isPrefixOf_keyOf hout
  have hends := isSuffixOf_keyOf hout
  have hnames := namesOf_keyOf hout
  generalize keyOf out = key at hkey hends hnames ⊢
  subst hnames
  rw [pathOf_eq_append d hkey]
  by_cases hnil : key.toList = []
  · obtain rfl := String.toList_eq_nil_iff.1 hnil
    have hpath : join (d.pathOf "" ++ "") file = d.pathOf file := by
      rw [String.append_empty, join, hfile, if_neg Bool.false_ne_true, isSuffixOf_pathOf, if_pos rfl,
        pathOf_eq_append d hfile]
    rw [hpath, namesBelow_pathOf hfile]
    rfl
  · have hopen : ['/'].isSuffixOf (d.pathOf "" ++ key).toList = false := by
      rw [Bool.eq_false_iff, Ne, List.isSuffixOf_iff_suffix] at hends ⊢
      intro hsuffix
      rw [String.toList_append] at hsuffix
      apply hends
      apply List.suffix_of_suffix_length_le hsuffix (List.suffix_append _ _)
      exact List.length_pos_iff.2 hnil
    have hlonger : ['/'].isPrefixOf (key ++ "/" ++ file).toList = false := by
      rw [String.toList_append, String.toList_append]
      cases hkeyList : key.toList with
      | nil => exact absurd hkeyList hnil
      | cons c rest =>
        rw [hkeyList] at hkey
        exact hkey
    have hpath : join (d.pathOf "" ++ key) file = d.pathOf (key ++ "/" ++ file) := by
      rw [join, hfile, if_neg Bool.false_ne_true, hopen, if_neg Bool.false_ne_true,
        pathOf_eq_append d hlonger, String.append_assoc, String.append_assoc, String.append_assoc]
    have hlist : (key ++ "/" ++ file).toList = key.toList ++ '/' :: file.toList := by simp
    rw [hpath, namesBelow_pathOf hlonger, namesOf, hlist, Text.segments_append_cons,
      List.map_append]
    rfl

/-- A path of plain names below a directory of plain names leads to the file with these names. -/
theorem Leads.eq_append {out names : List String} {file : String} (hout : ∀ name ∈ out, IsPlain name)
    (hfile : ['/'].isPrefixOf file.toList = false) (hplain : ∀ name ∈ namesOf file, IsPlain name)
    (h : Leads d (join (d.pathOf (keyOf out)) file) names) : names = out ++ namesOf file := by
  obtain ⟨start, steps, hentrance, hwalk⟩ := h.way
  have hout' : ∀ name ∈ out, IsName name := fun name hname => (hout name hname).toIsName
  have hall : ∀ name ∈ out ++ namesOf file, IsPlain name := by
    intro name hname
    rcases List.mem_append.1 hname with hname | hname
    · exact hout name hname
    · exact hplain name hname
  rw [entrance?, namesBelow_join hout' hfile] at hentrance
  obtain ⟨rfl, rfl⟩ := Prod.mk.inj (Option.some.inj hentrance)
  have hspot := eq_of_walk_plain hall hwalk
  exact Spot.below.inj hspot

end

end Waymark.Disk
