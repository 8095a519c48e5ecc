import Waymark.Proofs.Stylesheet.Renamed
/-!
# Which classes a scoped sheet renames and exports

A class that is renamed can be told from the sheet alone, without running through it: a dot
with a whole class name behind it, in a stretch between two of the characters that end
stretches, of which the one behind it is an opening brace, and which does not begin with `@`.
At these places, and nowhere else, the scope is put in behind the dot, and these names are the
ones that are exported.  Neither a name nor what begins one holds a character that ends a
stretch, so a class never reaches over the end of its stretch.

## Main results

* `className?_eq_some_iff` — the name of a class, whole.
* `inSelector_iff` — which places lie in a selector.
* `mem_scopeFrom` — the names that are collected are those of the renamed classes.
* `scopeClasses_renames` — the text and the exports of a scoped sheet.
-/

namespace Waymark.Stylesheet

open Text (imageOf SomewhereIn somewhereIn_cons somewhereIn_append not_somewhereIn_nil)

/-! ## Names -/

/-- A class name: a hyphen or none, a letter or an underscore, and any letters, digits, hyphens and
underscores. -/
inductive IsClassName : List Char → Prop where
  | plain {c : Char} {rest : List Char} (hc : beginsClass c = true)
      (hrest : ∀ d ∈ rest, inClass d = true) : IsClassName (c :: rest)
  | hyphen {c : Char} {rest : List Char} (hc : beginsClass c = true)
      (hrest : ∀ d ∈ rest, inClass d = true) : IsClassName ('-' :: c :: rest)

theorem inClass_of_beginsClass {c : Char} (h : beginsClass c = true) : inClass c = true := by
  unfold beginsClass at h
  unfold inClass Char.isAlphanum
  rcases Bool.or_eq_true_iff.1 h with h | h <;> simp [h]

theorem head?_dropWhile_inClass (s : List Char) :
    ∀ c ∈ (s.dropWhile inClass).head?, inClass c = false := by
  intro c hc
  have hnot := List.head?_dropWhile_not inClass s
  rw [hc] at hnot
  exact hnot

theorem takeWhile_inClass {name rest : List Char} (hname : ∀ c ∈ name, inClass c = true)
    (hrest : ∀ c ∈ rest.head?, inClass c = false) : (name ++ rest).takeWhile inClass = name := by
  rw [List.takeWhile_append_of_pos hname]
  cases rest with
  | nil => simp
  | cons c rest => simp [hrest c rfl]

/-- The name of a class is whole: no further character of names follows. -/
theorem className?_eq_some_iff {s name : List Char} :
    className? s = some name ↔
      ∃ rest, s = name ++ rest ∧ IsClassName name ∧ ∀ c ∈ rest.head?, inClass c = false := by
  have hall (s : List Char) : ∀ c ∈ s.takeWhile inClass, inClass c = true :=
    fun c hc => List.mem_takeWhile_imp hc
  constructor
  · intro h
    unfold className? at h
    split at h
    · rename_i c s
      split at h
      · rename_i hc
        obtain rfl := Option.some.inj h
        exact ⟨s.dropWhile inClass, by simp, .plain hc (hall s), head?_dropWhile_inClass s⟩
      · split at h
        · rename_i hhyphen
          obtain ⟨rfl, hnext⟩ := hhyphen
          obtain rfl := Option.some.inj h
          refine ⟨s.dropWhile inClass, by simp, ?_, head?_dropWhile_inClass s⟩
          cases s with
          | nil => nomatch hnext
          | cons d s =>
            have hd : beginsClass d = true := hnext
            rw [List.takeWhile_cons_of_pos (inClass_of_beginsClass hd)]
            exact .hyphen hd (hall s)
        · nomatch h
    · nomatch h
  · rintro ⟨rest, rfl, hname, hrest⟩
    cases hname with
    | plain hc hname =>
      rw [List.cons_append, className?, if_pos hc, takeWhile_inClass hname hrest]
    | @hyphen c name hc hname =>
      have hhyphen : ¬beginsClass '-' = true := by decide
      rw [List.cons_append, List.cons_append, className?, if_neg hhyphen,
        if_pos ⟨rfl, by simp [hc]⟩, ← List.cons_append, takeWhile_inClass
          (List.forall_mem_cons.2 ⟨inClass_of_beginsClass hc, hname⟩) hrest]

/-- A brace behind a text is no part of a name. -/
theorem className?_append_brace (s rest : List Char) :
    className? (s ++ Char.ofNat 0x7B :: rest) = className? s := by
  have htake (s : List Char) :
      (s ++ Char.ofNat 0x7B :: rest).takeWhile inClass = s.takeWhile inClass := by
    rw [List.takeWhile_append, List.takeWhile_cons_of_neg (by decide)]
    split
    · rename_i hlength
      rw [List.append_nil]
      exact (List.takeWhile_prefix _).eq_of_length hlength |>.symm
    · rfl
  have hbrace : beginsClass (Char.ofNat 0x7B) = false := by decide
  cases s with
  | nil => rfl
  | cons c s =>
    rw [List.cons_append, className?, className?, htake]
    cases s with
    | nil => simp [hbrace]
    | cons d s => rfl

/-! ## Selectors -/

/-- A place between two texts lies in a selector: the stretch around it begins behind the last
brace or semicolon before it or with the text, ends at an opening brace, and does not begin with `@`
and blanks before it. -/
def LiesInSelector (before after : List Char) : Prop :=
  ∃ front opening closing rest, before = front ++ opening ∧
    (∀ c ∈ front.getLast?, isCut c = true) ∧ (∀ c ∈ opening ++ closing, isCut c = false) ∧
    after = closing ++ Char.ofNat 0x7B :: rest ∧
    ¬['@'] <+: Text.trimStart (opening ++ closing)

/-- Which places lie in a selector. -/
theorem inSelector_iff {before after : List Char} :
    inSelector before after = true ↔ LiesInSelector before after := by
  have hstart {front : List Char} (h : ∀ c ∈ front.getLast?, isCut c = true) :
      stretchBefore front = [] := by
    rcases List.eq_nil_or_concat front with rfl | ⟨front, c, rfl⟩
    · rfl
    · rw [List.concat_eq_append] at h ⊢
      rw [List.getLast?_concat] at h
      exact stretchBefore_cut front (h c rfl)
  constructor
  · intro h
    obtain ⟨hbrace, hat⟩ := Bool.and_eq_true_iff.1 h
    obtain ⟨rest, hrest⟩ := List.head?_eq_some_iff.1 (of_decide_eq_true hbrace)
    refine ⟨before.rdropWhile fun c => !isCut c, stretchBefore before, stretchAfter after, rest,
      (List.rdropWhile_append_rtakeWhile ..).symm, ?_, ?_, ?_, ?_⟩
    · intro c hc
      by_contra hnot
      have hne : before.rdropWhile (fun c => !isCut c) ≠ [] := by
        intro hnil
        rw [hnil] at hc
        nomatch hc
      have hlast := List.rdropWhile_last_not (fun c => !isCut c) before hne
      rw [List.getLast?_eq_some_getLast hne] at hc
      rw [Option.some.inj hc] at hlast
      simp [hnot] at hlast
    · intro c hc
      rcases List.mem_append.1 hc with hc | hc
      · simpa using List.mem_rtakeWhile_imp hc
      · simpa using List.mem_takeWhile_imp hc
    · rw [stretchAfter, ← hrest, List.takeWhile_append_dropWhile]
    · rwa [Bool.not_eq_true', Bool.eq_false_iff, Ne, List.isPrefixOf_iff_prefix] at hat
  · rintro ⟨front, opening, closing, rest, rfl, hfront, hstretch, rfl, hat⟩
    rw [inSelector_append (hstart hfront) (fun c hc => hstretch c (List.mem_append_left _ hc))
      (fun c hc => hstretch c (List.mem_append_right _ hc)) (by decide), decide_eq_true rfl,
      Bool.true_and, Bool.not_eq_true', Bool.eq_false_iff, Ne, List.isPrefixOf_iff_prefix]
    exact hat

theorem isCut_of_end {c : Char} (h : c = Char.ofNat 0x7D ∨ c = ';') :
    isCut c = true ∧ c ≠ Char.ofNat 0x7B := by
  rcases h with rfl | rfl <;> decide

/-- Text that ends at a closing brace or a semicolon is no selector. -/
theorem inSelector_of_end (before after : List Char) {part : List Char} {c : Char}
    (hpart : ∀ d ∈ part, isCut d = false) (hc : c = Char.ofNat 0x7D ∨ c = ';') :
    inSelector before (part ++ c :: after) = false := by
  obtain ⟨hcut, hbrace⟩ := isCut_of_end hc
  have hpos : ∀ d ∈ part, (!isCut d) = true := fun d hd => by rw [hpart d hd]; rfl
  rw [inSelector, List.dropWhile_append_of_pos hpos, List.dropWhile_cons_of_neg (by simp [hcut]),
    List.head?_cons]
  exact Bool.and_eq_false_imp.2 fun heq => absurd (Option.some.inj (of_decide_eq_true heq)) hbrace

/-- A class of a sheet is renamed that stands between two texts: behind a dot comes its whole name,
and the dot lies in a selector. -/
structure IsRenamed (before name after : List Char) : Prop where
  isName : IsClassName name
  whole : ∀ c ∈ after.head?, inClass c = false
  selector : LiesInSelector before ('.' :: (name ++ after))

/-- A class of this name is renamed at a character. -/
def Renames (name before : List Char) (c : Char) (after : List Char) : Prop :=
  inSelector before (c :: after) = true ∧ c = '.' ∧ className? after = some name

theorem renames_iff {name before after : List Char} {c : Char} :
    Renames name before c after ↔
      c = '.' ∧ ∃ rest, after = name ++ rest ∧ IsRenamed before name rest := by
  constructor
  · rintro ⟨hselector, rfl, hname⟩
    obtain ⟨rest, rfl, hisName, hwhole⟩ := className?_eq_some_iff.1 hname
    exact ⟨rfl, rest, rfl, hisName, hwhole, inSelector_iff.1 hselector⟩
  · rintro ⟨rfl, rest, rfl, h⟩
    exact ⟨inSelector_iff.2 h.selector, rfl, className?_eq_some_iff.2 ⟨rest, rfl, h.isName, h.whole⟩⟩

/-- Where a class is renamed, the scope is put in behind the dot. -/
theorem putClass_of_renames {scope name before after : List Char} {c : Char}
    (h : Renames name before c after) : putClass scope before c after = '.' :: (scope ++ ['_']) := by
  obtain ⟨hselector, rfl, hname⟩ := h
  rw [putClass, if_pos hselector, putDot, if_pos ⟨rfl, by rw [hname]; rfl⟩]

/-- Anywhere else a character is written as it is. -/
theorem putClass_of_not_renames {scope before after : List Char} {c : Char}
    (h : ∀ name, ¬Renames name before c after) : putClass scope before c after = [c] := by
  unfold putClass putDot
  split
  · rename_i hselector
    apply if_neg
    rintro ⟨rfl, hsome⟩
    obtain ⟨name, hname⟩ := Option.isSome_iff_exists.1 hsome
    exact h name ⟨hselector, rfl, hname⟩
  · rfl

/-! ## Collected names -/

/-- The names of a stretch are those behind its dots. -/
theorem mem_renameClasses {scope name : List Char} (before segment rest : List Char) :
    name ∈ (renameClasses scope segment).2 ↔
      SomewhereIn (fun _ c after => c = '.' ∧ className? after = some name) before segment
        (Char.ofNat 0x7B :: rest) := by
  fun_induction renameClasses scope segment generalizing before with
  | case1 =>
    constructor
    · intro h
      cases h
    · intro h
      exact absurd h (not_somewhereIn_nil _ _)
  | case2 c s found h text names hrest ih =>
    split at h
    · rename_i hdot
      obtain ⟨⟨tail, rfl⟩, hnodot⟩ := isPrefix_of_className? h
      rw [List.drop_left] at hrest ih
      rw [hrest] at ih
      have hwithin : ¬SomewhereIn (fun _ c after => c = '.' ∧ className? after = some name)
          (before ++ [c]) found (tail ++ Char.ofNat 0x7B :: rest) := by
        rintro ⟨front, d, back, rfl, rfl, -⟩
        exact hnodot (by simp)
      have hhere : (c = '.' ∧ className? (found ++ tail ++ Char.ofNat 0x7B :: rest) = some name) ↔
          name = found := by
        rw [className?_append_brace, h, Option.some_inj]
        exact ⟨fun hfound => hfound.2.symm, fun hfound => ⟨hdot, hfound.symm⟩⟩
      rw [List.mem_cons, somewhereIn_cons, somewhereIn_append, or_iff_right hwithin, hhere]
      exact or_congr_right (ih _)
    · cases h
  | case3 c s h text names hrest ih =>
    rw [hrest] at ih
    rw [somewhereIn_cons, ih (before ++ [c]), or_iff_right]
    rintro ⟨rfl, hname⟩
    rw [dif_pos rfl] at h
    rw [className?_append_brace, h] at hname
    cases hname

/-- In front of a brace the names of a stretch are collected, unless it begins with `@`. -/
theorem mem_scopeSegment {scope name before segment : List Char}
    (hbefore : stretchBefore before = []) (hsegment : ∀ c ∈ segment, isCut c = false)
    (rest : List Char) :
    name ∈ (scopeSegment scope segment).2 ↔
      SomewhereIn (Renames name) before segment (Char.ofNat 0x7B :: rest) := by
  unfold scopeSegment
  split
  · rename_i hat
    constructor
    · intro h
      nomatch h
    · rintro ⟨front, c, back, rfl, hselector, -⟩
      rw [inSelector_brace hbefore hsegment, hat] at hselector
      nomatch hselector
  · rename_i hat
    rw [mem_renameClasses before segment rest]
    constructor
    · rintro ⟨front, c, back, rfl, h⟩
      refine ⟨front, c, back, rfl, ?_, h⟩
      rw [inSelector_brace hbefore hsegment, Bool.eq_false_iff.2 hat]
      rfl
    · rintro ⟨front, c, back, rfl, -, h⟩
      exact ⟨front, c, back, rfl, h⟩

/-- The names that are collected are those of the renamed classes. -/
theorem mem_scopeFrom {scope name before segment : List Char} (hbefore : stretchBefore before = [])
    (hsegment : ∀ c ∈ segment, isCut c = false) (s : List Char) :
    name ∈ (scopeFrom scope segment s).2 ↔
      SomewhereIn (Renames name) before (segment ++ s) [] := by
  induction s generalizing before segment with
  | nil =>
    constructor
    · intro h
      cases h
    · rw [List.append_nil]
      rintro ⟨front, c, back, rfl, hselector, -⟩
      rw [List.append_nil, inSelector_of_noCut _
        fun d hd => hsegment d (List.mem_append_right _ hd)] at hselector
      cases hselector
  | cons c s ih =>
    have hrest (hc : isCut c = true) : name ∈ (scopeFrom scope [] s).2 ↔
        SomewhereIn (Renames name) (before ++ segment ++ [c]) s [] :=
      ih (stretchBefore_cut _ hc) (by simp)
    have hcut (hc : isCut c = true) : ¬Renames name (before ++ segment) c (s ++ []) := by
      rintro ⟨-, rfl, -⟩
      exact absurd hc (by decide)
    unfold scopeFrom
    by_cases hbrace : c = Char.ofNat 0x7B
    · subst hbrace
      rw [if_pos rfl, somewhereIn_append, somewhereIn_cons, or_iff_right (hcut (by decide)),
        ← hrest (by decide), List.append_nil, ← mem_scopeSegment hbefore hsegment]
      exact List.mem_append
    · rw [if_neg hbrace]
      by_cases hend : c = Char.ofNat 0x7D ∨ c = ';'
      · have hc : isCut c = true := (isCut_of_end hend).1
        have hkept : ¬SomewhereIn (Renames name) before segment (c :: s ++ []) := by
          rintro ⟨front, d, back, rfl, hselector, -⟩
          rw [List.cons_append, ← List.cons_append, inSelector_of_end _ _
            (fun e he => hsegment e (List.mem_append_right _ he)) hend] at hselector
          cases hselector
        rw [if_pos hend, somewhereIn_append, or_iff_right hkept, somewhereIn_cons,
          or_iff_right (hcut hc), ← hrest hc]
      · have hc : isCut c = false := by
          obtain ⟨hclose, hsemicolon⟩ := not_or.1 hend
          simp [isCut, hbrace, hclose, hsemicolon]
        have hlonger : ∀ d ∈ segment ++ [c], isCut d = false := by
          intro d hd
          rcases List.mem_append.1 hd with hd | hd
          · exact hsegment d hd
          · exact List.mem_singleton.1 hd ▸ hc
        rw [if_neg hend, ih hbefore hlonger, List.append_assoc, List.singleton_append]

/-! ## Scoped sheets -/

theorem imageOf_putClass_of_end (scope before after : List Char) {part : List Char} {c : Char}
    (hpart : ∀ d ∈ part, isCut d = false) (hc : c = Char.ofNat 0x7D ∨ c = ';') :
    imageOf (putClass scope) before (part ++ [c]) after = part ++ [c] := by
  have hkept : imageOf (putClass scope) before part (c :: after) = part := by
    apply imageOf_putClass_of_not
    rintro front d back rfl
    rw [← List.cons_append]
    exact inSelector_of_end _ _ (fun e he => hpart e (List.mem_append_right _ he)) hc
  have hend : putClass scope (before ++ part) c ([] ++ after) = [c] := by
    apply putClass_of_not_renames
    rintro name ⟨-, rfl, -⟩
    rcases hc with hc | hc
    · exact absurd hc (by decide)
    · exact absurd hc (by decide)
  rw [Text.imageOf_append, Text.imageOf_cons, List.singleton_append, hkept, hend]
  rfl

/-- The exports of a sheet map every name that was collected. -/
theorem get?_scopeClasses {scope css name value : String} :
    (scopeClasses scope css).2.get? name = some value ↔
      name.toList ∈ (scopeFrom scope.toList [] css.toList).2 ∧ value = scope ++ "_" ++ name := by
  have hentry {n v : String} (h : (n, v) ∈ (scopeFrom scope.toList [] css.toList).2.map
      fun n => (String.ofList n, scope ++ "_" ++ String.ofList n)) :
      n.toList ∈ (scopeFrom scope.toList [] css.toList).2 ∧ v = scope ++ "_" ++ n := by
    obtain ⟨chars, hmem, heq⟩ := List.mem_map.1 h
    obtain ⟨rfl, rfl⟩ := Prod.mk.inj heq
    rw [String.toList_ofList]
    exact ⟨hmem, rfl⟩
  constructor
  · intro h
    exact hentry (Dict.mem_of_get?_ofList h)
  · rintro ⟨hmem, rfl⟩
    have hkey : name ∈ (scopeClasses scope css).2.keys := by
      refine Dict.mem_keys_ofList.2 (List.mem_map.2 ⟨_, List.mem_map_of_mem hmem, ?_⟩)
      exact String.ofList_toList
    obtain ⟨⟨key, value⟩, hlisted, rfl⟩ := List.mem_map.1 hkey
    have hget := Dict.mem_entries_iff.1 hlisted
    rw [hget, (hentry (Dict.mem_of_get?_ofList hget)).2]

/-- A scoped sheet is written character by character: behind the dot of a class that is renamed
comes the scope, and any other character is written as it is, so that text that ends at a closing
brace or a semicolon is kept.  What is exported are the names of the classes that were renamed, each
with the scope in front. -/
theorem scopeClasses_renames (scope css : String) :
    (scopeClasses scope css).1.toList = imageOf (putClass scope.toList) [] css.toList [] ∧
    (∀ before name after, IsRenamed before name after →
      putClass scope.toList before '.' (name ++ after) = '.' :: (scope.toList ++ ['_'])) ∧
    (∀ before c after,
      (∀ name rest, c = '.' → after = name ++ rest → ¬IsRenamed before name rest) →
        putClass scope.toList before c after = [c]) ∧
    (∀ before part c after, (∀ d ∈ part, isCut d = false) → c = Char.ofNat 0x7D ∨ c = ';' →
      imageOf (putClass scope.toList) before (part ++ [c]) after = part ++ [c]) ∧
    ∀ name value, (scopeClasses scope css).2.get? name = some value ↔
      value = scope ++ "_" ++ name ∧
        ∃ before after, css.toList = before ++ '.' :: (name.toList ++ after) ∧
          IsRenamed before name.toList after := by
  have hstart : stretchBefore [] = [] := rfl
  refine ⟨?_, ?_, ?_, ?_, ?_⟩
  · rw [← List.nil_append css.toList, ← scopeFrom_eq scope.toList hstart (by simp)]
    exact String.toList_ofList
  · intro before name after h
    exact putClass_of_renames (renames_iff.2 ⟨rfl, after, rfl, h⟩)
  · intro before c after h
    apply putClass_of_not_renames
    intro name hname
    obtain ⟨hdot, rest, hrest, hrenamed⟩ := renames_iff.1 hname
    exact h name rest hdot hrest hrenamed
  · intro before part c after hpart hc
    exact imageOf_putClass_of_end _ _ _ hpart hc
  · intro name value
    rw [get?_scopeClasses, mem_scopeFrom hstart (by simp), List.nil_append, and_comm]
    refine and_congr_right fun _ => ⟨?_, ?_⟩
    · rintro ⟨before, c, after, hcss, h⟩
      rw [List.nil_append, List.append_nil] at h
      obtain ⟨rfl, rest, rfl, hrenamed⟩ := renames_iff.1 h
      exact ⟨before, rest, hcss, hrenamed⟩
    · rintro ⟨before, after, hcss, h⟩
      refine ⟨before, '.', _, hcss, ?_⟩
      rw [List.nil_append, List.append_nil]
      exact renames_iff.2 ⟨rfl, after, rfl, h⟩

/-- The prelude of a media query is no selector, but what it holds is. -/
example : (scopeClasses "card" ".a\x7bw:.5em\x7d@media (w:.x)\x7b.-b .c:not(.1)\x7b\x7d\x7d.d").1 =
    ".card_a\x7bw:.5em\x7d@media (w:.x)\x7b.card_-b .card_c:not(.1)\x7b\x7d\x7d.d" := by
  decide +kernel

end Waymark.Stylesheet
