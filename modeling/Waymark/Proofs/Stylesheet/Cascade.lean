import Waymark.Proofs.App.Runs
import Waymark.Proofs.Stylesheet.Bundled
import Waymark.Proofs.Stylesheet.Stretches
/-!
# The cascade of a bundle

Where two style rules conflict, the one that stands last wins.  In sheets that are not
bundled a sheet that is imported twice stands in two places, and the last of them counts.
In a bundle it stands in the first.

So a rule wins in a bundle if the other one comes first in the sheets as they are imported.
It wins there as well unless the rule that comes first is also the one that comes last,
which takes a sheet that is imported before and behind another one.

## Main results

* `overrides_eraseDups_iff` — in a bundle, the rule wins that does not come first.
* `bundleSheet_cascade` — the text of a bundle, and which rules win in it.
* `overridden_by_first_import` — a bundle in which another rule wins than in its sheets.
-/

namespace Waymark

namespace Stylesheet

/-! ## Rules that win -/

/-- A style rule: the stretch it stands in, and where it begins in its text. -/
structure StyleRule where
  stretch : Stretch
  start : Nat
  deriving DecidableEq, Repr

/-- Which of two stretches comes first. -/
def firstOf (l : List Stretch) (x y : Stretch) : Option Stretch :=
  l.find? fun z => z = x ∨ z = y

/-- Which of two stretches comes last. -/
def lastOf (l : List Stretch) (x y : Stretch) : Option Stretch :=
  l.reverse.find? fun z => z = x ∨ z = y

/-- Whether a rule wins over another one that it conflicts with: it stands behind it. -/
def Overrides (l : List Stretch) (r r' : StyleRule) : Prop :=
  if r.stretch = r'.stretch then r'.start < r.start
  else lastOf l r.stretch r'.stretch = some r.stretch

instance (l : List Stretch) (r r' : StyleRule) : Decidable (Overrides l r r') := by
  unfold Overrides
  infer_instance

theorem find?_eraseDups {α : Type} [DecidableEq α] (p : α → Bool) (l : List α) :
    l.eraseDups.find? p = l.find? p := by
  match l with
  | [] => rfl
  | z :: l =>
    have hshorter : (l.filter fun b => !b == z).length < (z :: l).length :=
      Nat.lt_succ_of_le (List.length_filter_le _ _)
    rw [List.eraseDups_cons, List.find?_cons, List.find?_cons]
    cases hz : p z with
    | true => rfl
    | false =>
      have hrest := find?_eraseDups p (l.filter fun b => !b == z)
      rw [List.find?_filter] at hrest
      dsimp only
      rw [hrest]
      congr 1
      funext b
      by_cases hb : b = z <;> simp [hb, hz]
termination_by l.length
decreasing_by exact hshorter

theorem nodup_eraseDups {α : Type} [DecidableEq α] (l : List α) : l.eraseDups.Nodup := by
  match l with
  | [] => exact List.nodup_nil
  | z :: l =>
    have hshorter : (l.filter fun b => !b == z).length < (z :: l).length :=
      Nat.lt_succ_of_le (List.length_filter_le _ _)
    rw [List.eraseDups_cons, List.nodup_cons]
    exact ⟨by simp, nodup_eraseDups _⟩
termination_by l.length
decreasing_by exact hshorter

variable {l : List Stretch} {x y : Stretch}

theorem firstOf_eq (hx : x ∈ l) : firstOf l x y = some x ∨ firstOf l x y = some y := by
  cases hfind : firstOf l x y with
  | none =>
    have hnone := List.find?_eq_none.1 hfind x hx
    rw [decide_eq_true (Or.inl rfl)] at hnone
    exact absurd rfl hnone
  | some z =>
    unfold firstOf at hfind
    have hz := List.find?_some hfind
    exact (of_decide_eq_true hz).imp (congrArg some) (congrArg some)

theorem lastOf_eq (hx : x ∈ l) : lastOf l x y = some x ∨ lastOf l x y = some y :=
  firstOf_eq (l := l.reverse) (List.mem_reverse.2 hx)

/-- The one of two that comes last is the one that does not come first, unless one is both. -/
theorem lastOf_iff_firstOf (hxy : x ≠ y) (hx : x ∈ l) :
    (lastOf l x y = some x ↔ firstOf l x y = some y) ↔ firstOf l x y ≠ lastOf l x y := by
  rcases firstOf_eq (y := y) hx with hfirst | hfirst <;>
    rcases lastOf_eq (y := y) hx with hlast | hlast <;>
      simp [hfirst, hlast, hxy, hxy.symm]

/-- Where each stretch stands once, none of two comes first and last. -/
theorem firstOf_ne_lastOf (hl : l.Nodup) (hxy : x ≠ y) (hx : x ∈ l) (hy : y ∈ l) :
    firstOf l x y ≠ lastOf l x y := by
  induction l with
  | nil => nomatch hx
  | cons z l ih =>
    obtain ⟨hz, hl⟩ := List.nodup_cons.1 hl
    have hlast {w : Stretch} (hw : w ∈ l) (hwxy : w = x ∨ w = y) :
        lastOf (z :: l) x y = lastOf l x y := by
      unfold lastOf
      rw [List.reverse_cons, List.find?_append, Option.or_of_isSome]
      exact List.find?_isSome.2 ⟨w, List.mem_reverse.2 hw, decide_eq_true hwxy⟩
    by_cases hzxy : z = x ∨ z = y
    · -- the other one stands behind, and so does the last of the two, which is not this one
      obtain ⟨w, hw, hwxy⟩ : ∃ w ∈ l, w = x ∨ w = y := by
        rcases hzxy with rfl | rfl
        · exact ⟨y, (List.mem_cons.1 hy).resolve_left hxy.symm, Or.inr rfl⟩
        · exact ⟨x, (List.mem_cons.1 hx).resolve_left hxy, Or.inl rfl⟩
      have hfirst : firstOf (z :: l) x y = some z := List.find?_cons_of_pos (decide_eq_true hzxy)
      rw [hfirst, hlast hw hwxy]
      exact fun h => hz (List.mem_reverse.1 (List.mem_of_find?_eq_some h.symm))
    · have hfirst : firstOf (z :: l) x y = firstOf l x y :=
        List.find?_cons_of_neg (by simpa using hzxy)
      obtain ⟨hzx, hzy⟩ := not_or.1 hzxy
      have hx := (List.mem_cons.1 hx).resolve_left (Ne.symm hzx)
      rw [hfirst, hlast hx (Or.inl rfl)]
      exact ih hl hx ((List.mem_cons.1 hy).resolve_left (Ne.symm hzy))

theorem overrides_eraseDups_iff {r r' : StyleRule} (hr : r.stretch ∈ l) (hr' : r'.stretch ∈ l) :
    Overrides l.eraseDups r r' ↔
      if r.stretch = r'.stretch then r'.start < r.start
      else firstOf l r.stretch r'.stretch = some r'.stretch := by
  unfold Overrides
  split
  · rfl
  · rename_i hne
    have hfirst : firstOf l.eraseDups r.stretch r'.stretch = firstOf l r.stretch r'.stretch :=
      find?_eraseDups _ l
    rw [← hfirst]
    exact (lastOf_iff_firstOf hne (List.mem_eraseDups.2 hr)).2
      (firstOf_ne_lastOf (nodup_eraseDups l) hne (List.mem_eraseDups.2 hr)
        (List.mem_eraseDups.2 hr'))

/-- In a bundle the same rule wins, unless one of the two comes first and last. -/
theorem overrides_eraseDups_iff_overrides {r r' : StyleRule} (hr : r.stretch ∈ l)
    (hr' : r'.stretch ∈ l) :
    (Overrides l.eraseDups r r' ↔ Overrides l r r') ↔
      r.stretch = r'.stretch ∨
        firstOf l r.stretch r'.stretch ≠ lastOf l r.stretch r'.stretch := by
  rw [overrides_eraseDups_iff hr hr', Overrides]
  by_cases hsame : r.stretch = r'.stretch
  · simp [hsame]
  · rw [if_neg hsame, if_neg hsame, ← lastOf_iff_firstOf hsame hr, or_iff_right hsame]
    exact Iff.comm

end Stylesheet

namespace Pipeline

open Stylesheet

/-! ## Bundles -/

/-- The stretches of a sheet and of all that it imports, every import followed where it stands. -/
def sheetStretches (d : Disk) (s : Specifier) (source : String) : List Stretch :=
  stretchesFrom (stretchesBelow (readSheet d) (d.sheets.erase (Specifier.stripQuery s))) s
    (Specifier.stripQuery s) 0 [] (rules source.toList)

/-- Where all sheets of its tree can be read, a sheet is bundled: neither scoped nor minified, the
bundle is the text of the stretches in the order of their first places.  Of two rules in different
stretches the one wins that does not come first; that is the same one as in the sheets themselves,
exactly unless one of the two comes first and last. -/
theorem bundleSheet_cascade (d : Disk) (s : Specifier) (source : String)
    (hread : ∀ t ∈ sheetTree d s source,
      t = Specifier.stripQuery s ∨ ∃ text, readSheet d t = .ok text) :
    ∃ out, bundleSheet d ⟨false, false⟩ s source = .ok out ∧
      out.code =
        String.ofList ((sheetStretches d s source).eraseDups.flatMap Stretch.text) ∧
      ∀ r r' : StyleRule, r.stretch ∈ sheetStretches d s source →
        r'.stretch ∈ sheetStretches d s source →
        (Overrides (sheetStretches d s source).eraseDups r r' ↔
          if r.stretch = r'.stretch then r'.start < r.start
          else firstOf (sheetStretches d s source) r.stretch r'.stretch = some r'.stretch) ∧
        ((Overrides (sheetStretches d s source).eraseDups r r' ↔
            Overrides (sheetStretches d s source) r r') ↔
          r.stretch = r'.stretch ∨
            firstOf (sheetStretches d s source) r.stretch r'.stretch ≠
              lastOf (sheetStretches d s source) r.stretch r'.stretch) := by
  have hsettled := settled_start d (Specifier.stripQuery s)
  obtain ⟨reads, hrun⟩ := exists_inlines_start d s source
  cases hresult : inline (readSheet d) (d.fileCount + 1) s source.toList
      ⟨[Specifier.stripQuery s], []⟩ with
  | error e =>
    rw [hresult] at hrun
    obtain ⟨before, after, htree, -, hnew, herror, -⟩ := hrun.stops hsettled
    have hmem : e.specifier ∈ sheetTree d s source := by
      rw [sheetTree, htree]
      simp
    rcases hread _ hmem with heq | ⟨text, htext⟩
    · exact absurd (List.mem_singleton.2 heq) hnew
    · rw [herror] at htext
      cases htext
  | ok behind =>
    obtain ⟨text, m⟩ := behind
    rw [hresult] at hrun
    have hput : PutIn (readSheet d) (d.sheets.erase (Specifier.stripQuery s))
        ⟨[Specifier.stripQuery s], []⟩ [] := by
      refine ⟨hsettled, ?_, by simp⟩
      intro t ht hmem
      rw [List.mem_singleton.1 ht] at hmem
      exact absurd hmem (Finset.notMem_erase _ _)
    obtain ⟨htext, -⟩ := hrun.stretches [] 0 hput (Finset.notMem_erase _ _)
      (List.mem_singleton_self _) (by simp)
    rw [fresh_unseen, List.nil_append] at htext
    refine ⟨⟨String.ofList text, Dict.empty, m.deps⟩, ?_, congrArg String.ofList htext,
      fun r r' hr hr' =>
        ⟨overrides_eraseDups_iff hr hr', overrides_eraseDups_iff_overrides hr hr'⟩⟩
    unfold bundleSheet bundle
    dsimp only
    rw [hresult]
    rfl

/-- A disk with two sheets of one rule each. -/
def coloursDisk : Disk :=
  ⟨"/app", Dict.ofList [("b.css", .file "p\x7bcolor:red\x7d".toUTF8),
    ("c.css", .file "p\x7bcolor:blue\x7d".toUTF8)]⟩

/-- Two sheets that are imported once each: the rule of the second one wins, as in the sheets. -/
theorem bundleSheet_cascade_apart :
    let source := "@import \"b.css\";@import \"c.css\";"
    let red : StyleRule := ⟨⟨"./b.css", 0, "p\x7bcolor:red\x7d".toList⟩, 0⟩
    let blue : StyleRule := ⟨⟨"./c.css", 0, "p\x7bcolor:blue\x7d".toList⟩, 0⟩
    ∃ out, bundleSheet coloursDisk ⟨false, false⟩ "./a.css" source = .ok out ∧
      out.code = "p\x7bcolor:red\x7dp\x7bcolor:blue\x7d" ∧
      (Overrides (sheetStretches coloursDisk "./a.css" source).eraseDups blue red ↔
        Overrides (sheetStretches coloursDisk "./a.css" source) blue red) := by
  intro source red blue
  have htree : sheetTree coloursDisk "./a.css" source = ["./b.css", "./c.css"] := by
    decide +kernel
  have hb : (readSheet coloursDisk "./b.css").toOption = some "p\x7bcolor:red\x7d" := by
    decide +kernel
  have hc : (readSheet coloursDisk "./c.css").toOption = some "p\x7bcolor:blue\x7d" := by
    decide +kernel
  obtain ⟨out, hout, hcode, hrules⟩ := bundleSheet_cascade coloursDisk "./a.css" source
    (by
      intro t ht
      rw [htree] at ht
      rcases List.mem_cons.1 ht with rfl | ht
      · exact Or.inr ⟨_, eq_ok_of_toOption hb⟩
      · rw [List.mem_singleton.1 ht]
        exact Or.inr ⟨_, eq_ok_of_toOption hc⟩)
  refine ⟨out, hout, hcode.trans (by decide +kernel), ?_⟩
  exact (hrules blue red (by decide +kernel) (by decide +kernel)).2.2
    (Or.inr (by decide +kernel))

/-- A sheet that is imported before and behind another one: its rule wins in the sheets, and the
other one in the bundle.  And what stands behind the name in an import is lost with it. -/
theorem overridden_by_first_import :
    let source := "@import \"b.css\";@import \"c.css\";@import \"b.css\";"
    let red : StyleRule := ⟨⟨"./b.css", 0, "p\x7bcolor:red\x7d".toList⟩, 0⟩
    let blue : StyleRule := ⟨⟨"./c.css", 0, "p\x7bcolor:blue\x7d".toList⟩, 0⟩
    Overrides (sheetStretches coloursDisk "./a.css" source) red blue ∧
      Overrides (sheetStretches coloursDisk "./a.css" source).eraseDups blue red ∧
      (bundleSheet coloursDisk ⟨false, false⟩ "./a.css" source).toOption.map Output.code =
        some "p\x7bcolor:red\x7dp\x7bcolor:blue\x7d" ∧
      (bundleSheet coloursDisk ⟨false, false⟩ "./a.css"
          "@import \"b.css\" print;").toOption.map Output.code = some "p\x7bcolor:red\x7d" := by
  decide +kernel

end Pipeline
end Waymark
