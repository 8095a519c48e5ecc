import Waymark.Graph
/-!
# Versions only move on

A graph is made once, empty or from the records of an earlier build, and then
marked and updated in any order, at any readings of the wall clock.  The readings
may stall or go back; the graph's own clock does not.

Everything here rests on what a single call can do, `perform_cases`: it changes
nothing, or it writes one record with the next version and sets the clock to that
version.  The clock is therefore at or above every version the graph knows of, and
each version handed out lies above it.

The one way out is the end of the clock: after `Version.last` there is no later
version.  All results are about graphs that have not come that far.

## Main results

* `perform_follows` — what one call does to a sound graph.
* `handed_ascend_of_madeOf` — in a run every version handed out is above all before it, and each
  call does what it says and no more.
-/

namespace Waymark.Graph

/-! ## Calls -/

/-- What is done to one module of a graph. -/
inductive Edit where
  | mark (s : Specifier) (deps : List Specifier) (inlineCss : Option String)
  | update (s : Specifier)
  deriving DecidableEq, Repr

/-- The module that is marked or updated. -/
def Edit.specifier : Edit → Specifier
  | .mark s _ _ => s
  | .update s => s

/-- A change of one module, at a reading of the wall clock. -/
structure Call where
  now : Version
  edit : Edit
  deriving DecidableEq, Repr

/-- The graph after a call. -/
def perform (g : Graph) (c : Call) : Graph :=
  match c.edit with
  | .mark s deps css => g.mark c.now s deps css
  | .update s => g.update c.now s

/-- The version of the record that a call gives back.  An update of an unknown module gives back
none. -/
def handed (g : Graph) (c : Call) : Option Version :=
  ((g.perform c).get? c.edit.specifier).map (·.version)

/-- The graph after some calls. -/
def performAll (g : Graph) (calls : List Call) : Graph := calls.foldl perform g

/-- The versions that some calls hand out, in order. -/
def handedAll : Graph → List Call → List Version
  | _, [] => []
  | g, c :: calls => (g.handed c).toList ++ handedAll (g.perform c) calls

@[simp] theorem performAll_nil (g : Graph) : g.performAll [] = g := rfl

@[simp] theorem performAll_cons (g : Graph) (c : Call) (calls : List Call) :
    g.performAll (c :: calls) = (g.perform c).performAll calls := rfl

theorem performAll_append (g : Graph) (before after : List Call) :
    g.performAll (before ++ after) = (g.performAll before).performAll after :=
  List.foldl_append ..

theorem handedAll_append (g : Graph) (before after : List Call) :
    g.handedAll (before ++ after) =
      g.handedAll before ++ (g.performAll before).handedAll after := by
  induction before generalizing g with
  | nil => rfl
  | cons c before ih => simp [handedAll, ih]

/-! ## Sound graphs -/

/-- What a graph was made of: nothing, or the records of an earlier build. -/
inductive MadeOf : Graph → List ModuleRecord → Prop where
  | new (now : Version) : MadeOf (new now) []
  | ofRecords (now : Version) (records : List ModuleRecord) :
      MadeOf (ofRecords now records) records

/-- What holds of a graph between any two calls. -/
structure Sound (g : Graph) : Prop where
  specifier_eq : ∀ {k : Specifier} {r : ModuleRecord}, g.get? k = some r → r.specifier = k
  version_le : ∀ {k : Specifier} {r : ModuleRecord}, g.get? k = some r → r.version ≤ g.clock
  initial_le : g.initial ≤ g.clock

theorem le_max_left (a b : Version) : a ≤ max a b := by
  show a ≤ if a ≤ b then b else a
  split
  · assumption
  · exact UInt64.le_refl a

theorem le_max_right (a b : Version) : b ≤ max a b := by
  show b ≤ if a ≤ b then b else a
  split
  · exact UInt64.le_refl b
  · rename_i h
    exact (UInt64.le_total a b).resolve_left h

/-- The latest of some versions is one of them. -/
theorem max_eq_or (a b : Version) : max a b = a ∨ max a b = b := by
  show (if a ≤ b then b else a) = a ∨ (if a ≤ b then b else a) = b
  split
  · exact Or.inr rfl
  · exact Or.inl rfl

theorem foldl_latest (now : Version) (records : List ModuleRecord) :
    now ≤ records.foldl (fun latest r => max latest r.version) now ∧
      ∀ r ∈ records, r.version ≤ records.foldl (fun latest r => max latest r.version) now := by
  induction records generalizing now with
  | nil => exact ⟨UInt64.le_refl now, by simp⟩
  | cons r records ih =>
    obtain ⟨hstart, hrest⟩ := ih (max now r.version)
    refine ⟨UInt64.le_trans (le_max_left now r.version) hstart, ?_⟩
    intro r' hr'
    rcases List.mem_cons.1 hr' with rfl | hmem
    · exact UInt64.le_trans (le_max_right now r'.version) hstart
    · exact hrest r' hmem

/-- The clock of a new graph shows its initial version or one it was made of. -/
theorem foldl_latest_mem (now : Version) (records : List ModuleRecord) :
    records.foldl (fun latest r => max latest r.version) now ∈
      now :: records.map (·.version) := by
  induction records generalizing now with
  | nil => simp
  | cons r records ih =>
    rw [List.foldl_cons, List.map_cons]
    rcases List.mem_cons.1 (ih (max now r.version)) with h | h
    · rw [h]
      rcases max_eq_or now r.version with hmax | hmax
      · rw [hmax]
        exact List.mem_cons_self ..
      · rw [hmax]
        exact List.mem_cons_of_mem _ (List.mem_cons_self ..)
    · exact List.mem_cons_of_mem _ (List.mem_cons_of_mem _ h)

theorem MadeOf.sound {g : Graph} {built : List ModuleRecord} (h : MadeOf g built) :
    Sound g := by
  cases h with
  | new now =>
    exact ⟨fun h => (nomatch h), fun h => (nomatch h), UInt64.le_refl now⟩
  | ofRecords now =>
    have hmem : ∀ {k : Specifier} {r : ModuleRecord},
        (Graph.ofRecords now built).get? k = some r → r ∈ built ∧ r.specifier = k := by
      intro k r hr
      obtain ⟨r', hr', heq⟩ := List.mem_map.1 (Dict.mem_of_get?_ofList hr)
      obtain ⟨rfl, rfl⟩ := Prod.mk.inj heq
      exact ⟨hr', rfl⟩
    exact ⟨fun h => (hmem h).2, fun h => (foldl_latest now built).2 _ (hmem h).1,
      (foldl_latest now built).1⟩

/-- Every version a graph was made of lies at or below its clock. -/
theorem MadeOf.version_le {g : Graph} {built : List ModuleRecord} (h : MadeOf g built)
    {r : ModuleRecord} (hr : r ∈ built) : r.version ≤ g.clock := by
  cases h with
  | new now => simp at hr
  | ofRecords now => exact (foldl_latest now built).2 r hr

theorem MadeOf.clock_mem {g : Graph} {built : List ModuleRecord} (h : MadeOf g built) :
    g.clock ∈ g.initial :: built.map (·.version) := by
  cases h with
  | new now => exact List.mem_cons_self ..
  | ofRecords now => exact foldl_latest_mem now built

/-! ## One call -/

/-- What a call can do: nothing, if it updates a module without record, or else write one record
with the next version, to which the clock moves. -/
theorem perform_cases {g : Graph} (hg : Sound g) (c : Call) :
    (g.get? c.edit.specifier = none ∧ c.edit = .update c.edit.specifier ∧ g.perform c = g) ∨
    ∃ r : ModuleRecord, r.specifier = c.edit.specifier ∧ r.version = g.nextVersion c.now ∧
      g.perform c = { g with records := g.records.insert r.specifier r, clock := r.version } ∧
      match c.edit with
      | .mark _ deps css => r.deps = deps ∧ r.inlineCss = css
      | .update s => ∃ old, g.get? s = some old ∧ r = { old with version := r.version } := by
  obtain ⟨now, edit⟩ := c
  cases edit with
  | mark s deps css => exact Or.inr ⟨⟨s, g.nextVersion now, deps, css⟩, rfl, rfl, rfl, rfl, rfl⟩
  | update s =>
    cases hs : g.get? s with
    | none => exact Or.inl ⟨hs, rfl, update_of_none now hs⟩
    | some old =>
      have hold : old.specifier = s := hg.specifier_eq hs
      refine Or.inr ⟨{ old with version := g.nextVersion now }, hold, rfl, ?_, old, hs, rfl⟩
      show g.update now s = _
      simp [update, hs, hold]

/-- The graph `g'` after a call `c` on `g`. -/
structure Follows (g : Graph) (c : Call) (g' : Graph) : Prop where
  /-- Each record stands under its own specifier, with a version not above the clock. -/
  records : ∀ k r, g'.get? k = some r → r.specifier = k ∧ r.version ≤ g'.clock
  /-- No key is lost. -/
  keys : ∀ k, (g.get? k).isSome → (g'.get? k).isSome
  /-- Records of other modules are what they were. -/
  others : ∀ k, k ≠ c.edit.specifier → g'.get? k = g.get? k
  initial : g'.initial = g.initial
  /-- A mark stores what it was given, under the version it hands out. -/
  marked : ∀ s deps css, c.edit = .mark s deps css →
    ∃ v, g.handed c = some v ∧ g'.get? s = some ⟨s, v, deps, css⟩
  /-- An update changes nothing of a record but its version, which it hands out. -/
  updated : ∀ s r, c.edit = .update s → g.get? s = some r →
    ∃ v, g.handed c = some v ∧ g'.get? s = some { r with version := v }
  /-- Without a record there is nothing to update. -/
  missed : ∀ s, c.edit = .update s → g.get? s = none → g.handed c = none ∧ g' = g

theorem get?_insert_records (g : Graph) (r : ModuleRecord) (clock : Version) (k : Specifier) :
    ({ g with records := g.records.insert r.specifier r, clock } : Graph).get? k =
      if k = r.specifier then some r else g.get? k :=
  Dict.get?_insert ..

theorem lt_nextVersion {g : Graph} (now : Version) (h : g.clock < Version.last) :
    g.clock < g.nextVersion now :=
  Version.lt_max_add_one now h

theorem clock_le_perform {g : Graph} (hg : Sound g) (c : Call) (h : g.clock < Version.last) :
    g.clock ≤ (g.perform c).clock := by
  rcases perform_cases hg c with ⟨_, _, hsame⟩ | ⟨r, _, hv, hp, _⟩
  · rw [hsame]
    exact UInt64.le_refl _
  · rw [hp]
    show g.clock ≤ r.version
    rw [hv]
    exact UInt64.le_of_lt (lt_nextVersion c.now h)

theorem initial_perform {g : Graph} (hg : Sound g) (c : Call) :
    (g.perform c).initial = g.initial := by
  rcases perform_cases hg c with ⟨_, _, hsame⟩ | ⟨r, _, _, hp, _⟩
  · rw [hsame]
  · rw [hp]

theorem Sound.perform {g : Graph} (hg : Sound g) (c : Call) (h : g.clock < Version.last) :
    Sound (g.perform c) := by
  have hclock := clock_le_perform hg c h
  have hinit : (g.perform c).initial ≤ (g.perform c).clock := by
    rw [initial_perform hg]
    exact UInt64.le_trans hg.initial_le hclock
  rcases perform_cases hg c with ⟨_, _, hsame⟩ | ⟨r, _, _, hp, _⟩
  · rw [hsame]
    exact hg
  · -- The record written is the only one that has to be looked at anew.
    have hget : ∀ k, (g.perform c).get? k = if k = r.specifier then some r else g.get? k := by
      intro k
      rw [hp]
      exact get?_insert_records ..
    refine ⟨?_, ?_, hinit⟩
    · intro k r' hr'
      rw [hget] at hr'
      split at hr'
      · rename_i hk
        obtain rfl := Option.some.inj hr'
        exact hk.symm
      · exact hg.specifier_eq hr'
    · intro k r' hr'
      rw [hget] at hr'
      split at hr'
      · obtain rfl := Option.some.inj hr'
        rw [hp]
        exact UInt64.le_refl _
      · exact UInt64.le_trans (hg.version_le hr') hclock

/-- A version handed out lies above the clock, which then shows it. -/
theorem handed_spec {g : Graph} (hg : Sound g) {c : Call} (h : g.clock < Version.last)
    {v : Version} (hv : g.handed c = some v) : g.clock < v ∧ (g.perform c).clock = v := by
  rcases perform_cases hg c with ⟨hnone, _, hsame⟩ | ⟨r, hs, hr, hp, _⟩
  · rw [handed, hsame, hnone] at hv
    simp at hv
  · rw [handed, hp, get?_insert_records, if_pos hs.symm] at hv
    obtain rfl : r.version = v := Option.some.inj hv
    refine ⟨?_, by rw [hp]⟩
    rw [hr]
    exact lt_nextVersion c.now h

theorem perform_follows {g : Graph} (hg : Sound g) (c : Call) (h : g.clock < Version.last) :
    Follows g c (g.perform c) := by
  have hsound := hg.perform c h
  have hrecords : ∀ k r, (g.perform c).get? k = some r →
      r.specifier = k ∧ r.version ≤ (g.perform c).clock :=
    fun k r hr => ⟨hsound.specifier_eq hr, hsound.version_le hr⟩
  rcases perform_cases hg c with ⟨hnone, hupd, hsame⟩ | ⟨r, hs, hv, hp, hr⟩
  · refine ⟨hrecords, ?_, ?_, initial_perform hg c, ?_, ?_, ?_⟩
    · intro k hk
      rw [hsame]
      exact hk
    · intro k _
      rw [hsame]
    · intro s deps css hmark
      rw [hupd] at hmark
      nomatch hmark
    · intro s r hedit hr
      rw [hedit] at hnone
      rw [show g.get? s = none from hnone] at hr
      nomatch hr
    · intro s _ _
      exact ⟨by rw [handed, hsame, hnone]; rfl, hsame⟩
  · have hget : ∀ k, (g.perform c).get? k = if k = r.specifier then some r else g.get? k := by
      intro k
      rw [hp]
      exact get?_insert_records ..
    have hhanded : g.handed c = some r.version := by
      rw [handed, hget, if_pos hs.symm]
      rfl
    refine ⟨hrecords, ?_, ?_, initial_perform hg c, ?_, ?_, ?_⟩
    · intro k hk
      rw [hget]
      split
      · rfl
      · exact hk
    · intro k hk
      rw [hget, if_neg (hs ▸ hk)]
    · intro s deps css hmark
      rw [hmark] at hs hr
      obtain rfl : r.specifier = s := hs
      obtain ⟨rfl, rfl⟩ := hr
      exact ⟨r.version, hhanded, by rw [hget, if_pos rfl]⟩
    · intro s old hedit hold
      rw [hedit] at hs hr
      obtain rfl : r.specifier = s := hs
      obtain ⟨old', hold', heq⟩ := hr
      rw [hold] at hold'
      obtain rfl := Option.some.inj hold'
      exact ⟨r.version, hhanded, by rw [hget, if_pos rfl, ← heq]⟩
    · intro s hedit hnone
      rw [hedit] at hr
      obtain ⟨old, hold, _⟩ := hr
      rw [hnone] at hold
      nomatch hold

/-! ## Runs -/

/-- A run that hands out no last version leaves a sound graph behind, whose clock has not gone
back. -/
theorem Sound.performAll {g : Graph} (hg : Sound g) (h : g.clock < Version.last)
    (calls : List Call) (hlast : ∀ v ∈ g.handedAll calls, v < Version.last) :
    Sound (g.performAll calls) ∧ g.clock ≤ (g.performAll calls).clock ∧
      (g.performAll calls).clock < Version.last := by
  induction calls generalizing g with
  | nil => exact ⟨hg, UInt64.le_refl _, h⟩
  | cons c calls ih =>
    have hclock : (g.perform c).clock < Version.last := by
      cases hv : g.handed c with
      | none =>
        rcases perform_cases hg c with ⟨_, _, hsame⟩ | ⟨r, hs, _, hp, _⟩
        · rw [hsame]
          exact h
        · rw [handed, hp, get?_insert_records, if_pos hs.symm] at hv
          nomatch hv
      | some v =>
        rw [(handed_spec hg h hv).2]
        exact hlast v (by simp [handedAll, hv])
    obtain ⟨hsound, hle, hlt⟩ := ih (hg.perform c h) hclock
      fun v hv => hlast v (by simp [handedAll, hv])
    exact ⟨hsound, UInt64.le_trans (clock_le_perform hg c h) hle, hlt⟩

/-- In a run every version handed out lies above the clock it began with and above all versions
handed out before. -/
theorem handedAll_ascend {g : Graph} (hg : Sound g) (h : g.clock < Version.last)
    (calls : List Call) (hlast : ∀ v ∈ g.handedAll calls, v < Version.last) :
    (∀ v ∈ g.handedAll calls, g.clock < v) ∧ (g.handedAll calls).Pairwise (· < ·) := by
  induction calls generalizing g with
  | nil => exact ⟨by simp [handedAll], List.Pairwise.nil⟩
  | cons c calls ih =>
    obtain ⟨hsound, hle, hlt⟩ := hg.performAll h [c] fun v hv =>
      hlast v (by simp only [handedAll, List.append_nil] at hv; simp [handedAll, hv])
    obtain ⟨habove, hascend⟩ := ih hsound hlt fun v hv => hlast v (by
      simp only [performAll_cons, performAll_nil] at hv
      simp [handedAll, hv])
    simp only [performAll_cons, performAll_nil] at hle habove hascend
    cases hv : g.handed c with
    | none =>
      simp only [handedAll, hv, Option.toList_none, List.nil_append]
      exact ⟨fun v hmem => UInt64.lt_of_le_of_lt hle (habove v hmem), hascend⟩
    | some v =>
      obtain ⟨hclock, hshown⟩ := handed_spec hg h hv
      rw [hshown] at habove
      simp only [handedAll, hv, Option.toList_some, List.cons_append, List.nil_append]
      refine ⟨?_, List.pairwise_cons.2 ⟨habove, hascend⟩⟩
      intro w hw
      rcases List.mem_cons.1 hw with rfl | hmem
      · exact hclock
      · exact UInt64.lt_trans hclock (habove w hmem)

/-- A graph that some calls have been made on since it was made.  No call was made when the clock
showed the last version. -/
inductive Reachable : Graph → Prop where
  | made {g : Graph} {built : List ModuleRecord} (h : MadeOf g built) : Reachable g
  | perform {g : Graph} (h : Reachable g) (hroom : g.clock < Version.last) (c : Call) :
      Reachable (g.perform c)

theorem Reachable.sound {g : Graph} (h : Reachable g) : Sound g := by
  induction h with
  | made h => exact h.sound
  | perform _ hroom c ih => exact ih.perform c hroom

/-- As long as no version reaches the last one, every version handed out in a run lies above the
initial version, above the versions the graph was made of and above all handed out before; and
every call of the run does what `Follows` says.  Of the wall clock nothing is asked. -/
theorem handed_ascend_of_madeOf {g : Graph} {built : List ModuleRecord} (hg : MadeOf g built)
    (calls : List Call)
    (hlast : ∀ v ∈ g.initial :: built.map (·.version) ++ g.handedAll calls, v < Version.last) :
    (∀ v ∈ g.handedAll calls, g.initial < v ∧ ∀ r ∈ built, r.version < v) ∧
      (g.handedAll calls).Pairwise (· < ·) ∧
      ∀ before c after, calls = before ++ c :: after →
        Follows (g.performAll before) c (g.performAll (before ++ [c])) := by
  have hsound := hg.sound
  have hroom : g.clock < Version.last :=
    hlast _ (List.mem_append_left _ hg.clock_mem)
  have hhanded : ∀ v ∈ g.handedAll calls, v < Version.last :=
    fun v hv => hlast v (List.mem_append_right _ hv)
  obtain ⟨habove, hascend⟩ := handedAll_ascend hsound hroom calls hhanded
  refine ⟨?_, hascend, ?_⟩
  · intro v hv
    have hclock := habove v hv
    exact ⟨UInt64.lt_of_le_of_lt hsound.initial_le hclock,
      fun r hr => UInt64.lt_of_le_of_lt (hg.version_le hr) hclock⟩
  · intro before c after hcalls
    obtain ⟨hs, _, hlt⟩ := hsound.performAll hroom before fun v hv =>
      hhanded v (by rw [hcalls, handedAll_append]; exact List.mem_append_left _ hv)
    rw [performAll_append]
    exact perform_follows hs c hlt

/-- A run on a restored graph whose wall clock is behind, then ahead, then behind again. -/
theorem handed_ascend_restored :
    let built : List ModuleRecord := [⟨"./a.ts", 9, ["./b.ts"], none⟩]
    let g := ofRecords 7 built
    let calls : List Call := [⟨3, .mark "./b.ts" [] (some ".x")⟩, ⟨20, .update "./a.ts"⟩,
      ⟨30, .update "./gone.ts"⟩, ⟨5, .mark "./b.ts" ["./a.ts"] none⟩]
    (∀ v ∈ g.initial :: built.map (·.version) ++ g.handedAll calls, v < Version.last) ∧
      g.handedAll calls = [10, 20, 21] ∧
      (∀ v ∈ g.handedAll calls, g.initial < v ∧ ∀ r ∈ built, r.version < v) ∧
      (g.handedAll calls).Pairwise (· < ·) := by
  intro built g calls
  have hall : (g.initial :: built.map (·.version) ++ g.handedAll calls).all
      (fun v => decide (v < Version.last)) = true := by decide +kernel
  have hlast : ∀ v ∈ g.initial :: built.map (·.version) ++ g.handedAll calls,
      v < Version.last := fun v hv => of_decide_eq_true (List.all_eq_true.1 hall v hv)
  have h := handed_ascend_of_madeOf (.ofRecords 7 built) calls hlast
  exact ⟨hlast, by decide +kernel, h.1, h.2.1⟩

end Waymark.Graph
