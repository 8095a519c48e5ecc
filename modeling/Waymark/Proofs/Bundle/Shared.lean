import Waymark.Proofs.Bundle.Leads
/-!
# Modules that are copied to one file

The file of a copy is named after the key of its module, but the name says less than the
key: it has no scheme, no credentials and no fragment, and whatever may not stand in it
becomes an underscore.  The query comes after an underscore too, and a module that is
called `.js` gets no second ending.  So two names become one file if they agree character
by character, where all that becomes an underscore counts as one (`SameInName`).

A run writes each of its modules to the file of its own copy, one after the other.  It
has a file for every module exactly if no two of the modules that were asked for are named
alike; otherwise one of them is written over.  At one site, modules without a query whose
paths hold nothing but what is kept have files of their own, as long as all of them are
called `.js` or none is.

## Main results

* `map_tame_eq_iff` — when two names become one.
* `copyOf_eq_iff` — when two modules are copied to one file.
* `IsPlainAt.vendorKey_eq` — plain paths at one site are kept apart.
* `copies_share_files` — the files of a run, and when there is one for every module.
* `copies_overwritten` — two modules of a run that are written to one file.
-/

namespace Waymark.Bundle

open Url

variable {ε σ : Type}

/-! ## Names -/

/-- Whether a character is an underscore in the name of a copy. -/
def IsLost (c : Char) : Prop := c = '_' ∨ inVendorPath c = false

/-- Whether two characters are the same in the name of a copy. -/
def SameInName (c d : Char) : Prop := c = d ∨ IsLost c ∧ IsLost d

theorem tame_of_inVendorPath {c : Char} (h : inVendorPath c = true) : tame c = c := by
  rw [tame, if_pos h]

theorem tame_eq_underscore_iff {c : Char} : tame c = '_' ↔ IsLost c := by
  by_cases hkept : inVendorPath c = true
  · rw [tame_of_inVendorPath hkept, IsLost, hkept]
    simp
  · rw [tame, if_neg hkept, IsLost, Bool.eq_false_iff.2 hkept]
    simp

theorem tame_eq_iff {c d : Char} : tame c = tame d ↔ SameInName c d := by
  constructor
  · intro h
    by_cases hlost : tame c = '_'
    · exact Or.inr ⟨tame_eq_underscore_iff.1 hlost, tame_eq_underscore_iff.1 (h ▸ hlost)⟩
    · have hc : c = tame c := eq_of_tame hlost rfl
      have hd : d = tame c := eq_of_tame hlost h.symm
      exact Or.inl (hc.trans hd.symm)
  · rintro (rfl | ⟨hc, hd⟩)
    · rfl
    · rw [tame_eq_underscore_iff.2 hc, tame_eq_underscore_iff.2 hd]

/-- Two names become one if they agree up to what becomes an underscore. -/
theorem map_tame_eq_iff {s t : List Char} :
    s.map tame = t.map tame ↔ List.Forall₂ SameInName s t := by
  rw [← List.forall₂_eq_eq_eq, List.forall₂_map_left_iff, List.forall₂_map_right_iff]
  have hsame : (fun c d => tame c = tame d) = SameInName := by
    funext c d
    exact propext tame_eq_iff
  rw [hsame]

theorem isSuffix_map_tame {s : List Char} : copyExtension <:+ s.map tame ↔ copyExtension <:+ s := by
  have hkept : copyExtension.map tame = copyExtension := by decide
  constructor
  · rintro ⟨front, hs⟩
    obtain ⟨a, b, rfl, -, hb⟩ := List.map_eq_append_iff.1 hs.symm
    obtain rfl := eq_of_map_tame (by decide) hb
    exact List.suffix_append a copyExtension
  · rintro ⟨front, rfl⟩
    rw [List.map_append, hkept]
    exact List.suffix_append _ _

theorem withExtension_of_suffix {s : List Char} (h : copyExtension <:+ s) :
    withExtension s = s := by
  rw [withExtension, if_pos (List.isSuffixOf_iff_suffix.2 h)]

theorem withExtension_of_not_suffix {s : List Char} (h : ¬copyExtension <:+ s) :
    withExtension s = s ++ copyExtension := by
  rw [withExtension, if_neg (fun hends => h (List.isSuffixOf_iff_suffix.1 hends))]

/-- The extension has nothing to lose. -/
theorem withExtension_map_tame (s : List Char) :
    withExtension (s.map tame) = (withExtension s).map tame := by
  by_cases h : copyExtension <:+ s
  · rw [withExtension_of_suffix h, withExtension_of_suffix (isSuffix_map_tame.2 h)]
  · have hkept : copyExtension.map tame = copyExtension := by decide
    have hnot : ¬copyExtension <:+ s.map tame := fun hs => h (isSuffix_map_tame.1 hs)
    rw [withExtension_of_not_suffix h, withExtension_of_not_suffix hnot, List.map_append, hkept]

/-- The extension goes to what stands behind a slash. -/
theorem withExtension_slash (a s : List Char) :
    withExtension (a ++ '/' :: s) = a ++ '/' :: withExtension s := by
  have hiff : copyExtension <:+ a ++ '/' :: s ↔ copyExtension <:+ s :=
    Text.isSuffix_append_iff (by decide)
  by_cases h : copyExtension <:+ s
  · rw [withExtension_of_suffix h, withExtension_of_suffix (hiff.2 h)]
  · rw [withExtension_of_not_suffix h, withExtension_of_not_suffix (fun hs => h (hiff.1 hs)),
      List.append_assoc, List.cons_append]

/-! ## Files -/

/-- The file of a module in the directory of the copies, before anything in it is replaced. -/
def copyName (path : String) : List Char := withExtension (vendorName (vendorKey path))

theorem toList_copyOf (path : String) :
    (copyOf path).toList = vendorDirectory.toList ++ '/' :: (copyName path).map tame := by
  have hdirectory : vendorDirectory.toList.map tame = vendorDirectory.toList := by decide
  have hslash : tame '/' = '/' := by decide
  have hfile : (copyOf path).toList =
      withExtension ((vendorDirectory.toList ++ '/' :: vendorName (vendorKey path)).map tame) :=
    String.toList_ofList
  rw [hfile, List.map_append, List.map_cons, hdirectory, hslash, withExtension_slash,
    withExtension_map_tame, copyName]

/-- Two modules are copied to one file if their names agree up to what becomes an underscore. -/
theorem copyOf_eq_iff {a b : String} :
    copyOf a = copyOf b ↔ List.Forall₂ SameInName (copyName a) (copyName b) := by
  rw [← String.toList_inj, toList_copyOf, toList_copyOf, List.append_cancel_left_eq,
    List.cons_inj_right, map_tame_eq_iff]

theorem slash_mem_copyOf (path : String) : '/' ∈ (copyOf path).toList := by
  rw [toList_copyOf]
  exact List.mem_append_right _ (List.mem_cons_self ..)

/-! ## Modules of one site -/

/-- Whether a module is at a site, without a query, and its path holds nothing but what is kept in
the name of a copy; `js` says whether the path has the extension of copies. -/
def IsPlainAt (site : Url) (js : Bool) (path : String) : Prop :=
  ∃ u, Url.parse path = .ok u ∧ IsWeb u.scheme ∧
    keyed u = { site with path := u.path, query := none } ∧
    (∀ c ∈ u.path.toText, inVendorPath c = true) ∧ copyExtension.isSuffixOf u.path.toText = js

theorem map_tame_of_kept {s : List Char} (h : ∀ c ∈ s, inVendorPath c = true) : s.map tame = s :=
  (List.map_congr_left fun c hc => tame_of_inVendorPath (h c hc)).trans (List.map_id' s)

theorem withExtension_kept {s : List Char} (h : ∀ c ∈ s, inVendorPath c = true) :
    (withExtension s).map tame = withExtension s := by
  rw [← withExtension_map_tame, map_tame_of_kept h]

theorem withExtension_inj {s t : List Char}
    (hjs : copyExtension.isSuffixOf s = copyExtension.isSuffixOf t)
    (h : withExtension s = withExtension t) : s = t := by
  rw [withExtension, withExtension, hjs] at h
  split at h
  · exact h
  · exact List.append_cancel_right h

/-- With a host, the written form of a URL depends on the written form of its path. -/
theorem toText_congr_path {u : Url} {host : List Char} (hhost : u.host = some host) {p q : UrlPath}
    (h : p.toText = q.toText) :
    Url.toText { u with path := p } = Url.toText { u with path := q } := by
  rw [toText_eq, toText_eq, authority_eq (u := { u with path := p }) hhost,
    authority_eq (u := { u with path := q }) hhost, h]
  rfl

/-- The name of a module at a site is the name of the host and its path. -/
theorem copyName_of_keyed {path : String} {u site : Url} (hparse : Url.parse path = .ok u)
    (hweb : IsWeb u.scheme) (hkeyed : keyed u = { site with path := u.path, query := none }) :
    copyName path = hostName site ++ withExtension u.path.toText := by
  have hwritten := isWritten_keyed (isWritten_of_parse hparse hweb)
  have hname : vendorName (vendorKey path) = hostName site ++ u.path.toText := by
    rw [vendorKey_eq hparse, vendorName_toString hwritten, hkeyed]
    exact List.append_nil _
  obtain ⟨segments, hpath, hne, -⟩ := (isWritten_of_parse hparse hweb).path
  obtain ⟨first, segments, rfl⟩ := List.exists_cons_of_ne_nil hne
  have hroot : u.path.toText = '/' :: (first ++ segments.flatMap ('/' :: ·)) := by
    rw [hpath]
    rfl
  have hend := withExtension_slash [] (first ++ segments.flatMap ('/' :: ·))
  rw [List.nil_append, List.nil_append, ← hroot] at hend
  rw [copyName, hname, hend, hroot, withExtension_slash]

/-- Plain modules at one site that are copied to one file have one key. -/
theorem IsPlainAt.vendorKey_eq {site : Url} {js : Bool} {a b : String} (ha : IsPlainAt site js a)
    (hb : IsPlainAt site js b) (h : copyOf a = copyOf b) : vendorKey a = vendorKey b := by
  obtain ⟨u, hu, hweb, hkeyed, hkept, hjs⟩ := ha
  obtain ⟨v, hv, hweb', hkeyed', hkept', hjs'⟩ := hb
  have hname : (copyName a).map tame = (copyName b).map tame :=
    map_tame_eq_iff.2 (copyOf_eq_iff.1 h)
  rw [copyName_of_keyed hu hweb hkeyed, copyName_of_keyed hv hweb' hkeyed', List.map_append,
    List.map_append, withExtension_kept hkept, withExtension_kept hkept'] at hname
  have hpath : u.path.toText = v.path.toText :=
    withExtension_inj (hjs.trans hjs'.symm) (List.append_cancel_left hname)
  obtain ⟨host, hhost, -⟩ := (isWritten_keyed (isWritten_of_parse hu hweb)).host
  rw [hkeyed] at hhost
  rw [Bundle.vendorKey_eq hu, Bundle.vendorKey_eq hv, hkeyed, hkeyed']
  exact congrArg String.ofList
    (toText_congr_path (u := { site with path := u.path, query := none }) hhost hpath)

/-! ## The files of a run -/

/-- The modules of a run are its entry and the copies of what it asked for. -/
theorem out_of_modules {entry : Pending} {t : Trace} (hgiven : t.given.map (·.1) = t.loaded) :
    (t.modules entry).map (·.out) = entry.out :: t.loaded.map copyOf := by
  rw [Trace.modules, List.map_cons, List.map_map, ← hgiven, List.map_map]
  rfl

/-- A run that ends has asked for no module twice, and has written the entry and, in order, a copy
of each module it asked for.  No file is written twice exactly if no two of the modules have names
that agree up to what becomes an underscore.  This is when two modules are copied to one file,
wherever they are; plain ones at one site, both with the extension of copies or both without it,
are not unless they have one key. -/
theorem copies_share_files (plugin : Plugin (ExceptT ε (StateM σ))) (task : Task ε σ)
    (hentry : '/' ∉ task.entryName.toList) {fuel : Nat} {s s' : σ}
    (hrun : task.run plugin fuel s = (.ok true, s')) :
    (∃ t : Trace, task.watched plugin.lifted fuel s = (.ok true, s', t) ∧
      (t.loaded.map vendorKey).Nodup ∧
      t.written.map (·.1) = task.entryName :: t.loaded.map copyOf ∧
      ((t.written.map (·.1)).Nodup ↔
        t.loaded.Pairwise fun a b => ¬List.Forall₂ SameInName (copyName a) (copyName b))) ∧
    (∀ a b, copyOf a = copyOf b ↔ List.Forall₂ SameInName (copyName a) (copyName b)) ∧
    ∀ site js a b, IsPlainAt site js a → IsPlainAt site js b → copyOf a = copyOf b →
      vendorKey a = vendorKey b := by
  refine ⟨?_, fun _ _ => copyOf_eq_iff, fun _ _ _ _ ha hb => ha.vendorKey_eq hb⟩
  have hwatched := task.watched_eq (pluginErases_lifted plugin) fuel s
  rw [hrun] at hwatched
  have hended := task.ended_watched (notesLoads_lifted plugin) (congrArg Prod.fst hwatched)
  generalize (task.watched plugin.lifted fuel s).2.2 = t at hwatched hended
  have hfiles : t.written.map (·.1) = task.entryName :: t.loaded.map copyOf :=
    (out_of_rewritten (hended.written rfl)).trans (out_of_modules hended.given)
  refine ⟨t, hwatched, hended.sound.once, hfiles, ?_⟩
  have hnot : task.entryName ∉ t.loaded.map copyOf := by
    intro hmem
    obtain ⟨path, -, hpath⟩ := List.mem_map.1 hmem
    exact hentry (hpath ▸ slash_mem_copyOf path)
  rw [hfiles, List.nodup_cons, List.Nodup, List.pairwise_map]
  have hdiffer (a b : String) :
      copyOf a ≠ copyOf b ↔ ¬List.Forall₂ SameInName (copyName a) (copyName b) :=
    not_congr copyOf_eq_iff
  simp only [hdiffer]
  exact and_iff_right hnot

/-- A program that imports two modules of a server. -/
def pairProgram (first second : String) : String :=
  "import \"http://h/" ++ first ++ "\";import \"http://h/" ++ second ++ "\";"

/-- The modules of the server. -/
def pairTexts (first second : String) : List (String × String) :=
  [("http://h/" ++ first, "1"), ("http://h/" ++ second, "2")]

/-- The server itself. -/
def pairSite : Url := ⟨"http".toList, [], [], some ['h'], none, .rooted [], none, none⟩

theorem isPlainAt_pairSite {path : String} (name : List Char)
    (hparse : (Url.parse path).toOption = some { pairSite with path := .rooted [name] })
    (hkept : ∀ c ∈ '/' :: name, inVendorPath c = true) :
    IsPlainAt pairSite (copyExtension.isSuffixOf ('/' :: name)) path := by
  have htext : (UrlPath.rooted [name]).toText = '/' :: name := List.flatMap_singleton _ name
  exact ⟨_, eq_ok_of_toOption hparse, Or.inl rfl, rfl, htext ▸ hkept, congrArg _ htext⟩

/-- Two modules with names of their own are written to files of their own. -/
theorem copies_share_files_apart :
    (∃ t : Trace, (listTask (pairProgram "a.ts" "b.ts")).watched
        (tablePlugin (pairTexts "a.ts" "b.ts")).lifted 3 [] =
      (.ok true, [("server.js", "import \"./_vendor/h/a.ts.js\";import \"./_vendor/h/b.ts.js\";"),
        ("_vendor/h/a.ts.js", "1"), ("_vendor/h/b.ts.js", "2")], t) ∧
      t.loaded.Pairwise fun a b => ¬List.Forall₂ SameInName (copyName a) (copyName b)) ∧
    copyOf "http://h/a.ts" ≠ copyOf "http://h/b.ts" := by
  have hruns : (listTask (pairProgram "a.ts" "b.ts")).run
      (tablePlugin (pairTexts "a.ts" "b.ts")) 3 [] =
    (.ok true, [("server.js", "import \"./_vendor/h/a.ts.js\";import \"./_vendor/h/b.ts.js\";"),
      ("_vendor/h/a.ts.js", "1"), ("_vendor/h/b.ts.js", "2")]) := by decide +kernel
  obtain ⟨⟨t, hwatched, -, hfiles, hiff⟩, -, hplain⟩ := copies_share_files
    (tablePlugin (pairTexts "a.ts" "b.ts")) (listTask (pairProgram "a.ts" "b.ts")) (by decide) hruns
  have hnames : t.written.map (·.1) = ["server.js", "_vendor/h/a.ts.js", "_vendor/h/b.ts.js"] := by
    have hlast : ((listTask (pairProgram "a.ts" "b.ts")).watched
        (tablePlugin (pairTexts "a.ts" "b.ts")).lifted 3 []).2.2.written.map (·.1) =
      ["server.js", "_vendor/h/a.ts.js", "_vendor/h/b.ts.js"] := by decide +kernel
    rwa [hwatched] at hlast
  refine ⟨⟨t, hwatched, hiff.1 ?_⟩, ?_⟩
  · rw [hnames]
    decide
  · intro hcopy
    have ha : IsPlainAt pairSite false "http://h/a.ts" :=
      isPlainAt_pairSite "a.ts".toList (by decide +kernel) (Text.forall_mem_of_all (by decide))
    have hb : IsPlainAt pairSite false "http://h/b.ts" :=
      isPlainAt_pairSite "b.ts".toList (by decide +kernel) (Text.forall_mem_of_all (by decide))
    have hkeys : vendorKey "http://h/a.ts" ≠ vendorKey "http://h/b.ts" := by decide +kernel
    exact hkeys (hplain pairSite false _ _ ha hb hcopy)

/-- A module that is called as a route with a parameter is, and one that is called the same but for
an underscore, have two keys and one file: the second one is written over the first, and the
program imports it twice. -/
theorem copies_overwritten :
    vendorKey "http://h/$id.tsx" ≠ vendorKey "http://h/_id.tsx" ∧
    (listTask (pairProgram "$id.tsx" "_id.tsx")).run
        (tablePlugin (pairTexts "$id.tsx" "_id.tsx")) 3 [] =
      (.ok true,
        [("server.js", "import \"./_vendor/h/_id.tsx.js\";import \"./_vendor/h/_id.tsx.js\";"),
        ("_vendor/h/_id.tsx.js", "1"), ("_vendor/h/_id.tsx.js", "2")]) := by
  constructor
  · decide +kernel
  · decide +kernel

end Waymark.Bundle
