import Waymark.Proofs.App.Runs
import Waymark.Proofs.Disk.Trees
/-!
# Files that are taken away, and files that are left alone

No path leads to a file that was taken away, and every other file is as it was: the ways
to them pass through directories only, so none of them passes through what is gone.  A
file keeps its octets, too, while directories are made and while files are written that
other paths lead to.  Two paths lead to one file only if they end in the same name, so a
file in a directory is left alone if one of another name is taken away from there.

## Main results

* `isFile_removeFile` — no path leads to a file that was taken away.
* `write_keeps` — a file is as it was, or the path that was written leads to it.
* `removeFile_keeps` — a file is as it was if another one was taken away.
* `getLast?_of_lookup_join` — a file that is found in a directory has the name it is looked up with.
-/

namespace Waymark.Disk

/-! ## Names of files that are found -/

theorem isName_of_step {d : Disk} {spot : Spot} {name : String} {names : List String}
    (hspot : ∀ above, spot = .below above → ∀ other ∈ above, IsName other) (hname : IsName name)
    (h : d.step spot name = .ok (.below names)) : ∀ other ∈ names, IsName other := by
  cases spot with
  | above n =>
    rw [eq_of_step_above h]
    exact fun _ hother => nomatch hother
  | below above =>
    have habove := hspot above rfl
    rcases (exists_of_step_below h).2 with hsame | hup | ⟨hdown, -⟩
    · rw [Spot.below.inj hsame]
      exact habove
    · unfold up at hup
      split at hup
      · split at hup
        · rw [Spot.below.inj hup]
          exact fun _ hother => nomatch hother
        · nomatch hup
      · rename_i heq
        rw [Spot.below.inj hup, ← Spot.below.inj heq]
        exact fun other hother => habove other (List.dropLast_subset _ hother)
      · rename_i heq
        nomatch heq
    · rw [Spot.below.inj hdown]
      intro other hother
      rcases List.mem_append.1 hother with hother | hother
      · exact habove other hother
      · exact List.mem_singleton.1 hother ▸ hname

theorem isName_of_walk {d : Disk} {steps : List String} (hsteps : ∀ name ∈ steps, IsName name)
    {spot : Spot} (hspot : ∀ above, spot = .below above → ∀ name ∈ above, IsName name)
    {names : List String} (h : d.walk spot steps = .ok (.below names)) :
    ∀ name ∈ names, IsName name := by
  induction steps generalizing spot with
  | nil => exact hspot names (Except.ok.inj h)
  | cons step steps ih =>
    unfold walk at h
    rw [List.foldlM_cons] at h
    obtain ⟨next, hstep, hrest⟩ := exists_of_bind_eq_ok h
    apply ih (fun name hname => hsteps name (List.mem_cons_of_mem _ hname)) ?_ hrest
    rintro above rfl
    exact isName_of_step hspot (hsteps step (List.mem_cons_self ..)) hstep

theorem isName_of_entrance {d : Disk} {path : String} {start : Spot} {steps : List String}
    (h : d.entrance? path = some (start, steps)) :
    (∀ above, start = .below above → ∀ name ∈ above, IsName name) ∧
      ∀ name ∈ steps, IsName name := by
  unfold entrance? namesBelow at h
  split at h
  · rename_i below hbelow
    obtain ⟨rfl, rfl⟩ := Prod.mk.inj (Option.some.inj h)
    refine And.intro (fun above heq name hname => ?_) (fun name hname => ?_)
    · rw [← Spot.below.inj heq] at hname
      cases hname
    · split at hbelow
      · cases hbelow
      · split at hbelow
        · rw [← Option.some.inj hbelow] at hname
          exact isName_of_mem_namesOf hname
        · cases hbelow
  · split at h
    · obtain ⟨rfl, rfl⟩ := Prod.mk.inj (Option.some.inj h)
      refine And.intro (fun above heq => ?_) (fun name hname => isName_of_mem_namesOf hname)
      cases heq
    · cases h

/-- The names of a file that a path leads to can stand in a key. -/
theorem Leads.isName {d : Disk} {path : String} {names : List String} (h : Leads d path names) :
    ∀ name ∈ names, IsName name := by
  obtain ⟨start, steps, hentrance, hwalk⟩ := h.way
  obtain ⟨hstart, hsteps⟩ := isName_of_entrance hentrance
  exact isName_of_walk hsteps hstart hwalk

/-! ## Files that are taken away -/

theorem find?_clear {d : Disk} {names other : List String} {whole : Bool} {entry : DiskEntry}
    (h : (d.clear names whole).find? other = some entry) : d.find? other = some entry := by
  unfold find? at h ⊢
  split at h
  · rename_i hroot
    rw [if_pos hroot]
    exact h
  · rename_i hroot
    rw [if_neg hroot]
    have hget : (d.entries.filter _).get? (keyOf other) = some entry := h
    rw [Dict.get?_filter] at hget
    exact (Option.filter_eq_some_iff.1 hget).1

/-- What is on a disk when something was cleared was there before. -/
theorem clear_grows (d : Disk) (names : List String) (whole : Bool) :
    Grows (d.clear names whole) d :=
  ⟨rfl, fun _ => find?_clear, fun _ content h => ⟨content, find?_clear h⟩⟩

/-- What is on a disk when a file was taken away was there before. -/
theorem removeFile_grows {d d' : Disk} {path : String} (h : d.removeFile path = .ok d') :
    Grows d' d := by
  unfold removeFile at h
  obtain ⟨found, -, h⟩ := exists_of_bind_eq_ok h
  split at h
  · rw [← Except.ok.inj h]
    exact clear_grows ..
  · nomatch h
  · nomatch h

theorem isFile_iff {d : Disk} {path : String} :
    d.isFile path = true ↔ ∃ place content, d.lookup path = .ok (place, .file content) := by
  unfold isFile
  split
  · rename_i place content hlookup
    exact iff_of_true rfl ⟨place, content, hlookup⟩
  · rename_i hnone
    refine iff_of_false Bool.false_ne_true ?_
    rintro ⟨place, content, hlookup⟩
    exact hnone place content hlookup

/-- A path leads to a file only if it does on a disk that has grown. -/
theorem Grows.isFile {d d' : Disk} (h : Grows d d') {path : String}
    (hfile : d'.isFile path = false) : d.isFile path = false := by
  rw [Bool.eq_false_iff] at hfile ⊢
  intro hthere
  obtain ⟨place, content, hlookup⟩ := isFile_iff.1 hthere
  obtain ⟨content', hlookup'⟩ := h.lookup hlookup
  exact hfile (isFile_iff.2 ⟨place, content', hlookup'⟩)

/-- No path leads to a file that was taken away. -/
theorem isFile_removeFile (d : Disk) (path : String) :
    ((d.removeFile path).toOption.getD d).isFile path = false := by
  rw [Bool.eq_false_iff]
  intro hthere
  obtain ⟨place, content, hlookup⟩ := isFile_iff.1 hthere
  unfold removeFile at hlookup
  cases hfound : d.lookup path with
  | error e =>
    rw [hfound] at hlookup
    have hlookup : d.lookup path = .ok (place, .file content) := hlookup
    rw [hfound] at hlookup
    nomatch hlookup
  | ok found =>
    rw [hfound] at hlookup
    obtain ⟨place', entry⟩ := found
    cases entry with
    | directory =>
      have hlookup : d.lookup path = .ok (place, .file content) := by
        cases place' with
        | none => exact hlookup
        | some names => exact hlookup
      rw [hfound] at hlookup
      cases hlookup
    | file old =>
      obtain ⟨names, rfl, hleads, -⟩ := lookup_iff.1 hfound
      have hlookup : (d.clear names true).lookup path = .ok (place, .file content) := hlookup
      obtain ⟨names', rfl, -, hfind⟩ := lookup_iff.1 hlookup
      obtain ⟨content', hbefore⟩ := (clear_grows d names true).lookup hlookup
      -- the way to the file is the same, and at its end there is nothing any more
      obtain rfl := Option.some.inj (Prod.mk.inj (Except.ok.inj (hbefore.symm.trans hfound))).1
      have hname := hleads.isName
      unfold find? at hfind
      split at hfind
      · nomatch hfind
      · have hget : (d.entries.filter _).get? (keyOf names') = some _ := hfind
        rw [Dict.get?_filter] at hget
        have hkept := (Option.filter_eq_some_iff.1 hget).2
        simp [namesOf_keyOf hname] at hkept

/-! ## Files that are left alone -/

section
variable {d d' : Disk} {path other : String} {names : List String} {content : ByteArray}

/-- A file is as it was on a disk that has kept everything and grown. -/
theorem lookup_of_keeps (hkeeps : Keeps d d') (hgrows : Grows d d')
    (h : d.lookup path = .ok (some names, .file content)) :
    d'.lookup path = .ok (some names, .file content) := by
  obtain ⟨content', h'⟩ := hgrows.lookup h
  obtain ⟨found, hfound, -, hfind⟩ := lookup_iff.1 h
  obtain ⟨found', hfound', -, hfind'⟩ := lookup_iff.1 h'
  obtain rfl := Option.some.inj hfound
  obtain rfl := Option.some.inj hfound'
  obtain rfl := DiskEntry.file.inj (Option.some.inj ((hkeeps.find? hfind).symm.trans hfind'))
  exact h'

theorem ensureDirectory_keeps_file (h : d.ensureDirectory other = .ok d')
    (hfile : d.lookup path = .ok (some names, .file content)) :
    d'.lookup path = .ok (some names, .file content) :=
  lookup_of_keeps (ensureDirectory_keeps h) (ensureDirectory_grows h) hfile

/-- A file is as it was when a file was written, or what was written is this file. -/
theorem write_keeps {written : ByteArray} (h : d.write other written = .ok d')
    (hfile : d.lookup path = .ok (some names, .file content)) :
    d'.lookup path = .ok (some names, .file content) ∨
      d'.lookup other = .ok (some names, .file written) := by
  obtain ⟨content', hfile'⟩ := (write_grows h).lookup hfile
  obtain ⟨found, hfound, hleads, hfind⟩ := lookup_iff.1 hfile
  obtain ⟨found', hfound', hleads', hfind'⟩ := lookup_iff.1 hfile'
  obtain rfl := Option.some.inj hfound
  obtain rfl := Option.some.inj hfound'
  obtain ⟨target, hroom, rfl, htarget⟩ := exists_of_write h
  by_cases hsame : names = target
  · subst hsame
    exact Or.inr (lookup_iff.2 ⟨names, rfl, htarget, find?_put_self hroom.ne_root⟩)
  · left
    have hkey : keyOf names ≠ keyOf target := fun heq =>
      hsame ((keyOf_inj hleads.isName htarget.isName).1 heq)
    have hne : names ≠ [] := by
      rintro rfl
      nomatch hfind
    have hentry : (d.put target (.file written)).find? names = d.find? names := by
      rw [put_of_hasRoom hroom, find?, find?, if_neg hne, if_neg hne]
      exact Dict.get?_insert_ne _ _ hkey
    rw [hentry, hfind] at hfind'
    obtain rfl := DiskEntry.file.inj (Option.some.inj hfind')
    exact hfile'

/-! ## Files beside one that is taken away -/

/-- What neither lies below a file nor is the file stays where it was when the file is taken
away. -/
theorem find?_clear_of_apart {gone : List String}
    (hnames : ∀ name ∈ names, IsName name) (h : ¬gone <+: names) :
    (d.clear gone true).find? names = d.find? names := by
  unfold find?
  split
  · rfl
  · show (d.entries.filter _).get? _ = _
    have hkept : (!(isBelow (namesOf (keyOf names)) gone ||
        (true && decide (namesOf (keyOf names) = gone)))) = true := by
      rw [namesOf_keyOf hnames]
      have hbelow : isBelow names gone = false := by
        rw [Bool.eq_false_iff]
        exact fun hbelow => h (isBelow_iff.1 hbelow).2
      have hne : names ≠ gone := fun heq => h (heq ▸ List.prefix_refl _)
      simp [hbelow, hne]
    rw [Dict.get?_filter]
    cases d.entries.get? (keyOf names) with
    | none => rfl
    | some entry => rw [Option.filter_some, hkept, if_pos rfl]

/-- No way to something that is there leads through a file. -/
theorem apart_of_grounded {gone : List String} {old : ByteArray}
    (hgone : d.find? gone = some (.file old)) (h : Grounded d (.below names)) (hne : names ≠ gone) :
    ¬gone <+: names := by
  intro hstarts
  rw [h.2 gone hstarts hne.symm] at hgone
  nomatch hgone

theorem step_clear {gone : List String} {old : ByteArray} {spot next : Spot} {name : String}
    (hgone : d.find? gone = some (.file old))
    (hspot : ∀ above, spot = .below above → ∀ n ∈ above, IsName n) (hname : IsName name)
    (hgrounded : Grounded d spot) (hstep : d.step spot name = .ok next)
    (hne : next ≠ .below gone) : (d.clear gone true).step spot name = .ok next := by
  cases spot with
  | above n => exact hstep
  | below names =>
    obtain ⟨hfind, hnext⟩ := exists_of_step_below hstep
    have habove := hspot names rfl
    have hhere : names ≠ gone := by
      rintro rfl
      rw [hfind] at hgone
      nomatch hgone
    have hdir : (d.clear gone true).find? names = some .directory := by
      rw [find?_clear_of_apart habove (apart_of_grounded hgone hgrounded hhere),
        hfind]
    unfold step at hstep ⊢
    dsimp only at hstep ⊢
    rw [hfind] at hstep
    rw [hdir]
    dsimp only at hstep ⊢
    by_cases hsame : (d.clear gone true).find? (names ++ [name]) = d.find? (names ++ [name])
    · rw [hsame]
      exact hstep
    · -- then the step leads to what is gone, and that is no way to go on
      have hstarts : gone <+: names ++ [name] := by
        by_contra hnot
        refine hsame (find?_clear_of_apart ?_ hnot)
        intro n hn
        rcases List.mem_append.1 hn with hn | hn
        · exact habove n hn
        · exact List.mem_singleton.1 hn ▸ hname
      have heq : gone = names ++ [name] := by
        refine (List.prefix_concat_iff.1 hstarts).resolve_right ?_
        exact apart_of_grounded hgone hgrounded hhere
      split at hstep
      · rename_i hdot
        rw [if_pos hdot]
        exact hstep
      · rename_i hdot
        rw [if_neg hdot]
        split at hstep
        · rename_i hdots
          rw [if_pos hdots]
          exact hstep
        · rename_i hdots
          split at hstep
          · nomatch hstep
          · split at hstep
            · exact absurd ((Except.ok.inj hstep).symm.trans (congrArg Spot.below heq.symm)) hne
            · nomatch hstep

theorem walk_clear {gone : List String} {old : ByteArray} {spot next : Spot} {steps : List String}
    (hgone : d.find? gone = some (.file old)) (hsteps : ∀ n ∈ steps, IsName n)
    (hspot : ∀ above, spot = .below above → ∀ n ∈ above, IsName n) (hgrounded : Grounded d spot)
    (hwalk : d.walk spot steps = .ok next) (hne : next ≠ .below gone) :
    (d.clear gone true).walk spot steps = .ok next := by
  induction steps generalizing spot with
  | nil => exact hwalk
  | cons name steps ih =>
    unfold walk at hwalk ⊢
    rw [List.foldlM_cons] at hwalk ⊢
    obtain ⟨first, hstep, hrest⟩ := exists_of_bind_eq_ok hwalk
    have hname := hsteps name (List.mem_cons_self ..)
    have hleads : ∀ above, first = .below above → ∀ n ∈ above, IsName n := by
      rintro above rfl
      exact isName_of_step hspot hname hstep
    have hfirst : first ≠ .below gone := by
      rintro rfl
      -- the walk would go on from a file, or end there
      cases steps with
      | nil => exact hne (Except.ok.inj hrest).symm
      | cons second steps =>
        rw [List.foldlM_cons] at hrest
        obtain ⟨after, hafter, -⟩ := exists_of_bind_eq_ok hrest
        rw [(exists_of_step_below hafter).1] at hgone
        nomatch hgone
    rw [step_clear hgone hspot hname hgrounded hstep hfirst]
    exact ih (fun n hn => hsteps n (List.mem_cons_of_mem _ hn)) hleads
      (grounded_step hgrounded hstep) hrest

/-- A file is as it was if another one was taken away. -/
theorem removeFile_keeps {gone : List String} {old : ByteArray}
    (hgone : d.lookup other = .ok (some gone, .file old)) (hne : names ≠ gone)
    (hfile : d.lookup path = .ok (some names, .file content)) :
    ((d.removeFile other).toOption.getD d).lookup path = .ok (some names, .file content) := by
  obtain ⟨found, hfound, -, hold⟩ := lookup_iff.1 hgone
  obtain rfl := Option.some.inj hfound
  obtain ⟨found, hfound, hleads, hfind⟩ := lookup_iff.1 hfile
  obtain rfl := Option.some.inj hfound
  obtain ⟨start, steps, hentrance, hwalk⟩ := hleads.way
  have hground := grounded_entrance hentrance
  have hclear : (d.removeFile other).toOption.getD d = d.clear gone true := by
    unfold removeFile
    rw [hgone]
    rfl
  rw [hclear]
  refine lookup_iff.2 ⟨names, rfl, ⟨hleads.allowed, hleads.file, start, steps, ?_, ?_⟩, ?_⟩
  · rw [← (clear_grows d gone true).entrance path]
    exact hentrance
  · refine walk_clear hold (isName_of_entrance hentrance).2 (isName_of_entrance hentrance).1 hground
      hwalk ?_
    rintro heq
    exact hne (Spot.below.inj heq)
  · rw [find?_clear_of_apart hleads.isName, hfind]
    exact apart_of_grounded hold (grounded_walk hground hwalk) hne

/-! ## Names that are looked up -/

/-- The way to a name in a directory ends with this name, unless it ends at the root itself. -/
theorem steps_of_join {dir name : String} (hname : IsName name) {start : Spot}
    {steps : List String} (h : d.entrance? (join dir name) = some (start, steps)) :
    steps = [] ∨ ∃ above, steps = above ++ [name] := by
  have hrooted : ['/'].isPrefixOf name.toList = false := by
    rw [Bool.eq_false_iff, Ne, List.isPrefixOf_iff_prefix]
    exact fun hstarts => hname.noSlash (hstarts.subset (List.mem_singleton_self _))
  obtain ⟨front, hpath⟩ : ∃ front, (join dir name).toList = front ++ '/' :: name.toList := by
    rw [join, hrooted, if_neg Bool.false_ne_true]
    split
    · rename_i hslash
      obtain ⟨front, hfront⟩ := List.isSuffixOf_iff_suffix.1 hslash
      exact ⟨front, by rw [String.toList_append, ← hfront, List.append_assoc]; rfl⟩
    · exact ⟨dir.toList, by simp⟩
  have hone : (Text.segments '/' name.toList).map String.ofList = [name] := by
    rw [Text.segments_of_notMem (fun hnil => hname.ne_empty (String.toList_eq_nil_iff.1 hnil))
      hname.noSlash, List.map_singleton, String.ofList_toList]
  -- the names are those of what is left of the path behind the root
  obtain ⟨root, rest, hsplit, hsteps, hrest⟩ : ∃ root rest, (join dir name).toList = root ++ rest ∧
      steps = (Text.segments '/' rest).map String.ofList ∧
        (rest = [] ∨ ['/'] <+: rest ∨ root = [] ∨ ['/'] <:+ root) := by
    unfold entrance? namesBelow at h
    split at h
    · rename_i below hbelow
      obtain ⟨-, rfl⟩ := Prod.mk.inj (Option.some.inj h)
      split at hbelow
      · cases hbelow
      · rename_i rest hstarts
        split at hbelow
        · rename_i hrest
          refine ⟨d.root.toList, rest, Text.eq_append_of_isPrefixOf? hstarts, ?_, ?_⟩
          · rw [← Option.some.inj hbelow, namesOf, String.toList_ofList]
          · rw [List.isPrefixOf_iff_prefix, List.isSuffixOf_iff_suffix] at hrest
            exact hrest.imp_right (Or.imp_right Or.inr)
        · cases hbelow
    · split at h
      · obtain ⟨-, rfl⟩ := Prod.mk.inj (Option.some.inj h)
        exact ⟨[], (join dir name).toList, rfl, rfl, Or.inr (Or.inr (Or.inl rfl))⟩
      · cases h
  have hsame : front ++ ['/'] ++ name.toList = root ++ rest := by
    rw [← hsplit, hpath, List.append_assoc]
    rfl
  rw [hsteps]
  rcases List.append_eq_append_iff.1 hsame with ⟨more, hroot, hmore⟩ | ⟨more, hfront, hmore⟩
  · by_cases hnil : more = []
    · subst hnil
      right
      exact ⟨[], by rw [← hone, hmore]; rfl⟩
    have hnot : '/' ∉ more ∧ '/' ∉ rest := by
      have hslash := hname.noSlash
      rw [hmore, List.mem_append, not_or] at hslash
      exact hslash
    rcases hrest with rfl | hstarts | rfl | hsuffix
    · exact Or.inl rfl
    · exact absurd (hstarts.subset (List.mem_singleton_self _)) hnot.2
    · simp at hroot
    · rw [hroot] at hsuffix
      have hin : ['/'] <:+ more := by
        apply List.suffix_of_suffix_length_le hsuffix (List.suffix_append _ _)
        exact List.length_pos_iff.2 hnil
      exact absurd (hin.subset (List.mem_singleton_self _)) hnot.1
  · right
    rcases List.eq_nil_or_concat more with rfl | ⟨before, last, rfl⟩
    · exact ⟨[], by rw [hmore, List.nil_append, List.nil_append]; exact hone⟩
    · rw [List.concat_eq_append, ← List.append_assoc] at hfront
      obtain ⟨-, hlast⟩ := List.append_inj' hfront rfl
      obtain rfl := (List.cons.inj hlast).1
      refine ⟨(Text.segments '/' before).map String.ofList, ?_⟩
      rw [hmore, List.concat_eq_append, List.append_assoc, List.singleton_append,
        Text.segments_append_cons, List.map_append, hone]

/-- A file that is found in a directory has the name it is looked up with. -/
theorem getLast?_of_lookup_join {dir name : String} (hname : IsPlain name)
    (h : d.lookup (join dir name) = .ok (some names, .file content)) :
    names.getLast? = some name := by
  obtain ⟨found, hfound, hleads, hfind⟩ := lookup_iff.1 h
  obtain rfl := Option.some.inj hfound
  have hne : names ≠ [] := by
    rintro rfl
    nomatch hfind
  obtain ⟨start, steps, hentrance, hwalk⟩ := hleads.way
  rcases steps_of_join hname.toIsName hentrance with rfl | ⟨above, rfl⟩
  · obtain rfl := Except.ok.inj hwalk
    unfold entrance? at hentrance
    split at hentrance
    · exact absurd (Spot.below.inj (Prod.mk.inj (Option.some.inj hentrance)).1).symm hne
    · split at hentrance
      · nomatch (Prod.mk.inj (Option.some.inj hentrance)).1
      · nomatch hentrance
  · obtain ⟨last, -, hstep⟩ := exists_of_walk_concat hwalk
    cases last with
    | above n => exact absurd (eq_of_step_above hstep) hne
    | below dirs =>
      rw [Spot.below.inj (eq_of_step_plain hname hstep), List.getLast?_concat]

end

end Waymark.Disk
