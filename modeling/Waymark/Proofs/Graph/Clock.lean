import Waymark.Proofs.Graph.Restored
/-!
# Where the clock of a restored graph ends

A graph that is restored takes its clock from outside: it starts at the latest version of the
snapshot, and a snapshot may hold any version of 64 bits.  The version after the clock is the
clock plus one, in 64 bits, or the reading of the wall clock if that is later.

So there is one clock that has no version after it, the last one.  From there the sum wraps to
zero and what is handed out is the bare reading of the wall clock, however early that is.
From every other clock a version is handed out that lies above all the graph knows of.

## Main results

* `toNat_nextVersion_iff` — where the next version is the one that arithmetic asks for.
* `clock_ofRecords_lt_iff` — the clock of a restored graph is the latest version it was made of.
* `handed_later_iff` — when the first version handed out lies above all versions of a snapshot.
* `handed_wraps` — a snapshot after which an earlier version is handed out.
-/

namespace Waymark

namespace Version

theorem le_last (v : Version) : v ≤ last := by
  rw [UInt64.le_iff_toNat_le]
  exact Nat.le_of_lt_succ v.toNat_lt_size

theorem eq_last_of_not_lt {v : Version} (h : ¬v < last) : v = last :=
  UInt64.le_antisymm (le_last v) (UInt64.not_lt.1 h)

/-- The number after the last version is no number of 64 bits. -/
theorem toNat_last_add_one : last.toNat + 1 = UInt64.size := rfl

theorem toNat_max (a b : Version) : (max a b).toNat = max a.toNat b.toNat := by
  show (if a ≤ b then b else a).toNat = _
  split
  · rename_i h
    exact (Nat.max_eq_right (UInt64.le_iff_toNat_le.1 h)).symm
  · rename_i h
    exact (Nat.max_eq_left (UInt64.le_iff_toNat_le.1 (UInt64.le_of_lt (UInt64.not_le.1 h)))).symm

end Version

namespace Graph

/-! ## The next version -/

/-- After the last version comes the reading of the wall clock as it is. -/
theorem nextVersion_of_last {g : Graph} (h : g.clock = Version.last) (now : Version) :
    g.nextVersion now = now := by
  have hwraps : Version.last + 1 = 0 := rfl
  rw [nextVersion, h, hwraps]
  show (if now ≤ 0 then 0 else now) = now
  split
  · rename_i hzero
    exact (UInt64.le_zero_iff.1 hzero).symm
  · rfl

/-- The next version is the number after the clock, or a later reading of the wall clock, exactly
if the clock has not come to its end. -/
theorem toNat_nextVersion_iff (g : Graph) (now : Version) :
    (g.nextVersion now).toNat = max now.toNat (g.clock.toNat + 1) ↔ g.clock < Version.last := by
  constructor
  · intro h
    by_contra hlast
    have hclock := Version.eq_last_of_not_lt hlast
    rw [nextVersion_of_last hclock, hclock, Version.toNat_last_add_one] at h
    exact absurd (h ▸ Nat.le_max_right ..) (Nat.not_le.2 now.toNat_lt_size)
  · intro h
    have hroom : g.clock.toNat + 1 < UInt64.size :=
      Nat.lt_of_le_of_lt (UInt64.lt_iff_toNat_lt.1 h) Version.last.toNat_lt_size
    rw [nextVersion, Version.toNat_max, UInt64.toNat_add]
    exact congrArg (max now.toNat) (Nat.mod_eq_of_lt hroom)

/-! ## Restored graphs -/

section
variable {loaded : Version} {records : List ModuleRecord}

/-- The clock of a restored graph lies below a version exactly if all do that it was made of. -/
theorem clock_ofRecords_lt_iff {v : Version} :
    (ofRecords loaded records).clock < v ↔ loaded < v ∧ ∀ r ∈ records, r.version < v := by
  obtain ⟨hloaded, hrecords⟩ := foldl_latest loaded records
  constructor
  · intro h
    exact ⟨UInt64.lt_of_le_of_lt hloaded h, fun r hr => UInt64.lt_of_le_of_lt (hrecords r hr) h⟩
  · rintro ⟨hstart, hall⟩
    have hmem : (ofRecords loaded records).clock ∈ loaded :: records.map (·.version) :=
      foldl_latest_mem loaded records
    rcases List.mem_cons.1 hmem with heq | hmem
    · rwa [heq]
    · obtain ⟨r, hr, heq⟩ := List.mem_map.1 hmem
      rw [← heq]
      exact hall r hr

theorem get?_ofRecords_eq_none_iff {k : Specifier} :
    (ofRecords loaded records).get? k = none ↔ ∀ r ∈ records, r.specifier ≠ k := by
  constructor
  · intro h r hr hk
    have hkey : k ∈ (ofRecords loaded records).records.keys := by
      rw [ofRecords, Dict.mem_keys_ofList, List.map_map]
      exact List.mem_map.2 ⟨r, hr, hk⟩
    obtain ⟨⟨k', r'⟩, hentry, rfl⟩ := List.mem_map.1 hkey
    have hget : (ofRecords loaded records).get? k' = some r' := Dict.mem_entries_iff.1 hentry
    rw [h] at hget
    cases hget
  · intro h
    cases hget : (ofRecords loaded records).get? k with
    | none => rfl
    | some r =>
      obtain ⟨r', hr', heq⟩ := List.mem_map.1 (Dict.mem_of_get?_ofList hget)
      exact absurd (congrArg Prod.fst heq) (h r' hr')

end

/-- A call hands out the next version, unless it updates a module without record. -/
theorem handed_cases {g : Graph} (hg : Sound g) (c : Call) :
    ((∃ k, c.edit = .update k ∧ g.get? k = none) ∧ g.handed c = none) ∨
      ((∀ k, c.edit = .update k → g.get? k ≠ none) ∧
        g.handed c = some (g.nextVersion c.now)) := by
  rcases perform_cases hg c with ⟨hnone, hupdate, hsame⟩ | ⟨r, hs, hv, hp, hr⟩
  · left
    refine ⟨⟨c.edit.specifier, hupdate, hnone⟩, ?_⟩
    rw [handed, hsame, hnone]
    rfl
  · right
    constructor
    · intro k hk
      rw [hk] at hr
      obtain ⟨old, hold, -⟩ := hr
      rw [hold]
      exact Option.some_ne_none old
    · rw [handed, hp, get?_insert_records, if_pos hs.symm, ← hv]
      rfl

/-- Every snapshot is read from some text, so a graph may be restored at any version.  The first
call on it hands out a version, unless it updates a module that the snapshot does not hold.  This
version is the number after the clock, or a later reading of the wall clock, exactly if neither
the snapshot nor the reading at which it was restored is the last version there is.  Then it lies
above all versions of the snapshot; otherwise it does so only if the wall clock is beyond them by
itself, which is never so where the snapshot holds the last version. -/
theorem handed_later_iff (s : Snapshot) (loaded : Version) (c : Call) :
    (∃ text, Snapshot.parse text = some s) ∧
    ((s.toGraph loaded).handed c = none ↔
      ∃ k, c.edit = .update k ∧ ∀ r ∈ s.modules, r.specifier ≠ k) ∧
    ∀ v, (s.toGraph loaded).handed c = some v →
      (v.toNat = max c.now.toNat ((s.toGraph loaded).clock.toNat + 1) ↔
        loaded < Version.last ∧ ∀ r ∈ s.modules, r.version < Version.last) ∧
      ((∀ r ∈ s.modules, r.version < v) ↔
        (loaded < Version.last ∧ ∀ r ∈ s.modules, r.version < Version.last) ∨
          ∀ r ∈ s.modules, r.version < c.now) := by
  have hsound : Sound (s.toGraph loaded) := (MadeOf.ofRecords loaded s.modules).sound
  have hroom : (s.toGraph loaded).clock < Version.last ↔
      loaded < Version.last ∧ ∀ r ∈ s.modules, r.version < Version.last := clock_ofRecords_lt_iff
  refine ⟨⟨s.render, Snapshot.parse_render s⟩, ?_, ?_⟩
  · rcases handed_cases hsound c with ⟨⟨k, hk, hnone⟩, hhanded⟩ | ⟨hknown, hhanded⟩
    · exact iff_of_true hhanded ⟨k, hk, get?_ofRecords_eq_none_iff.1 hnone⟩
    · rw [hhanded]
      refine iff_of_false (Option.some_ne_none _) ?_
      rintro ⟨k, hk, hall⟩
      exact hknown k hk (get?_ofRecords_eq_none_iff.2 hall)
  · intro v hv
    obtain rfl : (s.toGraph loaded).nextVersion c.now = v := by
      rcases handed_cases hsound c with ⟨-, hnone⟩ | ⟨-, hhanded⟩
      · exact nomatch hnone.symm.trans hv
      · exact Option.some.inj (hhanded.symm.trans hv)
    rw [← hroom]
    refine ⟨toNat_nextVersion_iff _ _, ?_⟩
    by_cases h : (s.toGraph loaded).clock < Version.last
    · -- short of the end the clock is passed, and with it all that it was made of
      refine iff_of_true ?_ (Or.inl h)
      exact (clock_ofRecords_lt_iff.1 (lt_nextVersion c.now h)).2
    · rw [nextVersion_of_last (Version.eq_last_of_not_lt h)]
      exact (or_iff_right h).symm

/-- A snapshot of two modules that was restored while the wall clock was behind it: the first mark
comes after both. -/
theorem handed_later_iff_behind :
    let s : Snapshot := ⟨[⟨"./a.ts", 9, [], none⟩, ⟨"./b.ts", 40, ["./a.ts"], none⟩]⟩
    (s.toGraph 7).handed ⟨8, .mark "./a.ts" [] none⟩ = some 41 ∧
      ∀ r ∈ s.modules, r.version < 41 := by
  intro s
  have hhanded : (s.toGraph 7).handed ⟨8, .mark "./a.ts" [] none⟩ = some 41 := by decide +kernel
  have hroom : (7 : Version) < Version.last ∧ ∀ r ∈ s.modules, r.version < Version.last := by
    decide +kernel
  obtain ⟨-, -, hlater⟩ := handed_later_iff s 7 ⟨8, .mark "./a.ts" [] none⟩
  exact ⟨hhanded, (hlater 41 hhanded).2.2 (Or.inl hroom)⟩

/-- The text of a snapshot that holds the last version. -/
def lastText : String :=
  "export default \x7b\"modules\":[" ++
    "\x7b\"specifier\":\"./a.ts\",\"version\":18446744073709551615\x7d]\x7d;"

/-- It is accepted, and the first version handed out after it is the reading of the wall clock,
before the one that the snapshot holds. -/
theorem handed_wraps :
    ∃ s, Snapshot.parse lastText = some s ∧
      s.modules = [⟨"./a.ts", Version.last, [], none⟩] ∧
      (s.toGraph 1700000000000).handed ⟨1700000000000, .mark "./b.ts" [] none⟩ =
        some 1700000000000 ∧
      (1700000000000 : Version) < Version.last := by
  refine ⟨⟨[⟨"./a.ts", Version.last, [], none⟩]⟩, ?_, rfl, ?_, ?_⟩
  · decide +kernel
  · decide +kernel
  · decide +kernel

end Graph
end Waymark
