import Waymark.ImportMap
import Waymark.Proofs.Text.Pieces
/-!
# Which entry of an import map decides

A map is searched on two levels, and on both the longest wins: of the scopes that an importer
begins with the longest that has something to say, and in a table the longest key in front of
the specifier, unless the specifier itself is a key.  Two keys of one length that both begin
the same text are the same key, so there are no ties, and it does not matter that one level
takes the last of the longest and the other the first.

A scope that says nothing of a specifier lets the next one speak, and the general table
speaks last.  What does not apply has no part in this.

## Main results

* `resolveIn_eq_some_iff` — the entry of one table that decides.
* `resolve_eq_some_iff` — the table that decides.
* `resolve_congr` — maps that agree on what applies mean the same.
* `resolve_finds` — all of it.
-/

namespace Waymark.ImportMap

/-! ## Keys -/

/-- A key applies to a specifier: it is the specifier, or it ends in a slash and begins it. -/
def Applies (key specifier : String) : Prop :=
  key = specifier ∨ isPrefixKey key = true ∧ key.toList <+: specifier.toList

/-- What a table makes of a specifier: an exact key wins, and else the longest one that ends in a
slash and begins it, whose target is put in its place. -/
inductive Hit (table : Dict String) (specifier : String) : String → Prop where
  | exact {target : String} (hkey : table.get? specifier = some target) :
      Hit table specifier target
  | below {key target rest : String} (hexact : table.get? specifier = none)
      (hkey : table.get? key = some target) (hslash : isPrefixKey key = true)
      (hspecifier : specifier = key ++ rest)
      (hlongest : ∀ other value, table.get? other = some value → isPrefixKey other = true →
        other.toList <+: specifier.toList → other.length ≤ key.length) :
      Hit table specifier (target ++ rest)

theorem eq_of_isPrefix {a b text : String} (ha : a.toList <+: text.toList)
    (hb : b.toList <+: text.toList) (hlength : a.length = b.length) : a = b := by
  rw [← String.length_toList, ← String.length_toList] at hlength
  have hbegins := List.prefix_of_prefix_length_le ha hb (Nat.le_of_eq hlength)
  exact String.toList_inj.1 (hbegins.eq_of_length hlength)

theorem afterKey?_eq_some_iff {key specifier rest : String} :
    afterKey? key specifier = some rest ↔ specifier = key ++ rest := by
  unfold afterKey?
  constructor
  · intro h
    obtain ⟨after, hafter, rfl⟩ := Option.map_eq_some_iff.1 h
    apply String.toList_inj.1
    rw [String.toList_append, String.toList_ofList]
    exact Text.eq_append_of_isPrefixOf? hafter
  · rintro rfl
    rw [String.toList_append, Text.isPrefixOf?_append, Option.map_some, String.ofList_toList]

/-! ## The longest entry -/

section
variable {α : Type}

/-- Of a first entry and others the longest one is found. -/
theorem exists_foldl_longer (best : String × α) (es : List (String × α)) :
    ∃ e, es.foldl longer (some best) = some e ∧ e ∈ best :: es ∧
      ∀ e' ∈ best :: es, e'.1.length ≤ e.1.length := by
  induction es generalizing best with
  | nil => exact ⟨best, rfl, List.mem_cons_self .., by simp⟩
  | cons next es ih =>
    by_cases hle : best.1.length ≤ next.1.length
    · have hstep : longer (some best) next = some next := if_pos hle
      obtain ⟨e, hfound, hmem, hmax⟩ := ih next
      rw [List.foldl_cons, hstep]
      refine ⟨e, hfound, List.mem_cons_of_mem _ hmem, ?_⟩
      intro e' he'
      rcases List.mem_cons.1 he' with rfl | he'
      · exact Nat.le_trans hle (hmax next (List.mem_cons_self ..))
      · exact hmax e' he'
    · have hstep : longer (some best) next = some best := if_neg hle
      obtain ⟨e, hfound, hmem, hmax⟩ := ih best
      have hbest := hmax best (List.mem_cons_self ..)
      rw [List.foldl_cons, hstep]
      refine ⟨e, hfound, ?_, ?_⟩
      · rcases List.mem_cons.1 hmem with rfl | hmem
        · exact List.mem_cons_self ..
        · exact List.mem_cons_of_mem _ (List.mem_cons_of_mem _ hmem)
      · intro e' he'
        rcases List.mem_cons.1 he' with rfl | he'
        · exact hbest
        · rcases List.mem_cons.1 he' with rfl | he'
          · omega
          · exact hmax e' (List.mem_cons_of_mem _ he')

theorem exists_longest {es : List (String × α)} (hne : es ≠ []) :
    ∃ e, longest es = some e ∧ e ∈ es ∧ ∀ e' ∈ es, e'.1.length ≤ e.1.length := by
  obtain ⟨best, es, rfl⟩ := List.exists_cons_of_ne_nil hne
  exact exists_foldl_longer best es

end

/-! ## One table -/

variable {table : Dict String} {specifier : String}

/-- The entries whose key ends in a slash and begins a specifier, each with what it makes of it. -/
def candidates (table : Dict String) (specifier : String) : List (String × String) :=
  table.entries.filterMap fun (key, target) =>
    if isPrefixKey key then (afterKey? key specifier).map fun rest => (key, target ++ rest)
    else none

theorem mem_candidates {key result : String} :
    (key, result) ∈ candidates table specifier ↔
      isPrefixKey key = true ∧ ∃ target rest, table.get? key = some target ∧
        specifier = key ++ rest ∧ result = target ++ rest := by
  rw [candidates, List.mem_filterMap]
  constructor
  · rintro ⟨⟨other, target⟩, hmem, h⟩
    dsimp only at h
    split at h
    · rename_i hslash
      obtain ⟨rest, hrest, heq⟩ := Option.map_eq_some_iff.1 h
      obtain ⟨rfl, rfl⟩ := Prod.mk.inj heq
      exact ⟨hslash, target, rest, Dict.mem_entries_iff.1 hmem, afterKey?_eq_some_iff.1 hrest, rfl⟩
    · nomatch h
  · rintro ⟨hslash, target, rest, hkey, hrest, rfl⟩
    refine ⟨(key, target), Dict.mem_entries_iff.2 hkey, ?_⟩
    dsimp only
    rw [if_pos hslash, afterKey?_eq_some_iff.2 hrest]
    rfl

theorem resolveIn_of_get?_eq_none (h : table.get? specifier = none) :
    resolveIn table specifier = (longest (candidates table specifier)).map (·.2) := by
  rw [resolveIn, h]
  rfl

/-- The entry of one table that decides. -/
theorem resolveIn_eq_some_iff {target : String} :
    resolveIn table specifier = some target ↔ Hit table specifier target := by
  constructor
  · intro h
    cases hexact : table.get? specifier with
    | some exact =>
      rw [resolveIn_of_get? hexact] at h
      exact Option.some.inj h ▸ .exact hexact
    | none =>
      rw [resolveIn_of_get?_eq_none hexact] at h
      obtain ⟨⟨key, result⟩, hfound, rfl⟩ := Option.map_eq_some_iff.1 h
      have hne : candidates table specifier ≠ [] := fun hnil => by
        rw [hnil] at hfound
        nomatch hfound
      obtain ⟨e, he, hmem, hmax⟩ := exists_longest hne
      obtain rfl := Option.some.inj (hfound.symm.trans he)
      obtain ⟨hslash, target, rest, hkey, hrest, rfl⟩ := mem_candidates.1 hmem
      refine .below hexact hkey hslash hrest ?_
      rintro other value hother hotherSlash ⟨more, hmore⟩
      refine hmax (other, value ++ String.ofList more) (mem_candidates.2 ⟨hotherSlash, value,
        String.ofList more, hother, ?_, rfl⟩)
      exact String.toList_inj.1 (by rw [String.toList_append, String.toList_ofList, hmore])
  · intro h
    cases h with
    | exact hkey => exact resolveIn_of_get? hkey
    | @below key target rest hexact hkey hslash hspecifier hlongest =>
      have hmem : (key, target ++ rest) ∈ candidates table specifier :=
        mem_candidates.2 ⟨hslash, target, rest, hkey, hspecifier, rfl⟩
      obtain ⟨⟨other, result⟩, hfound, hotherMem, hmax⟩ :=
        exists_longest (List.ne_nil_of_mem hmem)
      obtain ⟨hotherSlash, value, more, hother, hmore, rfl⟩ := mem_candidates.1 hotherMem
      have hkeyPrefix : key.toList <+: specifier.toList :=
        ⟨rest.toList, by rw [hspecifier, String.toList_append]⟩
      have hotherPrefix : other.toList <+: specifier.toList :=
        ⟨more.toList, by rw [hmore, String.toList_append]⟩
      -- of one length, they are one key
      have hlength : other.length = key.length :=
        Nat.le_antisymm (hlongest other value hother hotherSlash hotherPrefix) (hmax _ hmem)
      obtain rfl := eq_of_isPrefix hotherPrefix hkeyPrefix hlength
      obtain rfl := Option.some.inj (hother.symm.trans hkey)
      have hrest : rest = more := by
        have htexts := congrArg String.toList (hspecifier.symm.trans hmore)
        rw [String.toList_append, String.toList_append] at htexts
        exact String.toList_inj.1 (List.append_cancel_left htexts)
      rw [resolveIn_of_get?_eq_none hexact, hfound, hrest]
      rfl

/-- The key of a hit applies. -/
theorem Hit.exists_key {target : String} (h : Hit table specifier target) :
    ∃ key value, table.get? key = some value ∧ Applies key specifier := by
  cases h with
  | exact hkey => exact ⟨specifier, _, hkey, Or.inl rfl⟩
  | @below key value rest _ hkey hslash hspecifier _ =>
    exact ⟨key, value, hkey, Or.inr ⟨hslash, rest.toList, by
      rw [hspecifier, String.toList_append]⟩⟩

/-- A table has a hit as soon as one of its keys applies. -/
theorem exists_hit {key value : String} (hkey : table.get? key = some value)
    (happlies : Applies key specifier) : ∃ target, Hit table specifier target := by
  cases hexact : table.get? specifier with
  | some target => exact ⟨target, .exact hexact⟩
  | none =>
    rcases happlies with rfl | ⟨hslash, more, hmore⟩
    · rw [hexact] at hkey
      nomatch hkey
    · have hmem : (key, value ++ String.ofList more) ∈ candidates table specifier :=
        mem_candidates.2 ⟨hslash, value, String.ofList more, hkey,
          String.toList_inj.1 (by rw [String.toList_append, String.toList_ofList, hmore]), rfl⟩
      obtain ⟨⟨_, result⟩, hfound, -, -⟩ := exists_longest (List.ne_nil_of_mem hmem)
      refine ⟨result, resolveIn_eq_some_iff.1 ?_⟩
      rw [resolveIn_of_get?_eq_none hexact, hfound]
      rfl

/-- Tables that agree on the keys that apply have the same hits. -/
theorem Hit.congr {table' : Dict String}
    (hagree : ∀ key, Applies key specifier → table.get? key = table'.get? key) {target : String}
    (h : Hit table specifier target) : Hit table' specifier target := by
  have hself := hagree specifier (Or.inl rfl)
  cases h with
  | exact hkey => exact .exact (hself ▸ hkey)
  | below hexact hkey hslash hspecifier hlongest =>
    have hbegins : Applies _ specifier := Or.inr ⟨hslash, _, by
      rw [hspecifier, String.toList_append]⟩
    refine .below (hself ▸ hexact) (hagree _ hbegins ▸ hkey) hslash hspecifier ?_
    intro other value hother hotherSlash hotherPrefix
    exact hlongest other value (hagree other (Or.inr ⟨hotherSlash, hotherPrefix⟩) ▸ hother)
      hotherSlash hotherPrefix

/-! ## Scopes -/

variable {m m' : ImportMap} {importer : Option String}

/-- A scope holds an importer that begins with its key. -/
def Holds (scope : String) (importer : Option String) : Prop :=
  ∃ i, importer = some i ∧ scope.toList <+: i.toList

/-- What a scope of a map makes of a specifier. -/
def ScopeHit (m : ImportMap) (scope specifier target : String) : Prop :=
  ∃ table, m.scopes.get? scope = some table ∧ Hit table specifier target

/-- What a map makes of a specifier: the longest scope that holds the importer and has a hit
decides, and without such a scope the general table. -/
inductive Means (m : ImportMap) (specifier : String) (importer : Option String) :
    String → Prop where
  | inScope {scope target : String} (hholds : Holds scope importer)
      (hhit : ScopeHit m scope specifier target)
      (hlongest : ∀ other result, Holds other importer → ScopeHit m other specifier result →
        other.length ≤ scope.length) : Means m specifier importer target
  | general {target : String}
      (hscopes : ∀ scope result, Holds scope importer → ¬ScopeHit m scope specifier result)
      (hhit : Hit m.imports specifier target) : Means m specifier importer target

theorem ScopeHit.unique {scope target target' : String} (h : ScopeHit m scope specifier target)
    (h' : ScopeHit m scope specifier target') : target = target' := by
  obtain ⟨table, htable, hhit⟩ := h
  obtain ⟨table', htable', hhit'⟩ := h'
  obtain rfl := Option.some.inj (htable.symm.trans htable')
  exact Option.some.inj
    ((resolveIn_eq_some_iff.2 hhit).symm.trans (resolveIn_eq_some_iff.2 hhit'))

theorem Holds.unique {scope scope' : String} (h : Holds scope importer)
    (h' : Holds scope' importer) (hlength : scope.length = scope'.length) : scope = scope' := by
  obtain ⟨i, hi, hbegins⟩ := h
  obtain ⟨i', hi', hbegins'⟩ := h'
  obtain rfl := Option.some.inj (hi.symm.trans hi')
  exact eq_of_isPrefix hbegins hbegins' hlength

theorem mem_scopesOf {i scope : String} :
    (scope, table) ∈ m.scopesOf i ↔
      m.scopes.get? scope = some table ∧ scope.toList <+: i.toList := by
  rw [scopesOf, List.mem_mergeSort, List.mem_filter, List.isPrefixOf_iff_prefix,
    Dict.mem_entries_iff]

theorem pairwise_scopesOf (m : ImportMap) (i : String) :
    (m.scopesOf i).Pairwise fun a b => b.1.length ≤ a.1.length := by
  have hsorted : (m.scopesOf i).Pairwise fun a b => decide (b.1.length ≤ a.1.length) = true := by
    apply List.pairwise_mergeSort
    · intro a b c hab hbc
      exact decide_eq_true (Nat.le_trans (of_decide_eq_true hbc) (of_decide_eq_true hab))
    · intro a b
      simpa using Nat.le_total b.1.length a.1.length
  exact hsorted.imp of_decide_eq_true

/-- What the scopes that hold an importer make of a specifier. -/
def resolveScoped (m : ImportMap) (specifier : String) (importer : Option String) :
    Option String :=
  (importer.elim [] m.scopesOf).findSome? fun scope => resolveIn scope.2 specifier

theorem resolve_eq_or :
    m.resolve specifier importer =
      (m.resolveScoped specifier importer).or (resolveIn m.imports specifier) := by
  have hlast : [m.imports].findSome? (resolveIn · specifier) = resolveIn m.imports specifier := by
    cases hr : resolveIn m.imports specifier <;> simp [hr]
  cases importer with
  | none => exact hlast
  | some i =>
    show ((m.scopesOf i).map (·.2) ++ [m.imports]).findSome? (resolveIn · specifier) = _
    rw [List.findSome?_append, hlast, List.findSome?_map]
    rfl

/-- What the scopes find is the hit of the longest one that has any. -/
theorem exists_of_resolveScoped {target : String}
    (h : m.resolveScoped specifier importer = some target) :
    ∃ scope, Holds scope importer ∧ ScopeHit m scope specifier target ∧
      ∀ other result, Holds other importer → ScopeHit m other specifier result →
        other.length ≤ scope.length := by
  cases importer with
  | none => nomatch h
  | some i =>
    obtain ⟨front, ⟨scope, table⟩, back, hsplit, hresult, hnone⟩ :=
      List.findSome?_eq_some_iff.1 h
    have hsplit : m.scopesOf i = front ++ (scope, table) :: back := hsplit
    obtain ⟨htable, hbegins⟩ := mem_scopesOf.1 (show (scope, table) ∈ m.scopesOf i by
      rw [hsplit]; simp)
    refine ⟨scope, ⟨i, rfl, hbegins⟩, ⟨table, htable, resolveIn_eq_some_iff.1 hresult⟩, ?_⟩
    rintro other result ⟨j, hj, hother⟩ ⟨table', htable', hhit⟩
    obtain rfl := Option.some.inj hj
    have hmem := mem_scopesOf.2 ⟨htable', hother⟩
    have hsorted := m.pairwise_scopesOf i
    rw [hsplit] at hmem hsorted
    -- the longer ones stand in front, and what stands in front has no hit
    rcases List.mem_append.1 hmem with hmem | hmem
    · have hno := hnone _ hmem
      dsimp only at hno
      rw [resolveIn_eq_some_iff.2 hhit] at hno
      nomatch hno
    · rcases List.mem_cons.1 hmem with heq | hmem
      · exact Nat.le_of_eq (congrArg String.length (Prod.mk.inj heq).1)
      · exact List.rel_of_pairwise_cons (List.pairwise_append.1 hsorted).2.1 hmem

/-- The scopes find something as soon as one of them has a hit. -/
theorem isSome_resolveScoped {scope target : String} (hholds : Holds scope importer)
    (hhit : ScopeHit m scope specifier target) :
    ∃ result, m.resolveScoped specifier importer = some result := by
  obtain ⟨i, rfl, hbegins⟩ := hholds
  obtain ⟨table, htable, hhit⟩ := hhit
  rw [← Option.isSome_iff_exists, resolveScoped, List.findSome?_isSome_iff]
  refine ⟨(scope, table), mem_scopesOf.2 ⟨htable, hbegins⟩, ?_⟩
  rw [resolveIn_eq_some_iff.2 hhit]
  rfl

/-! ## Maps -/

/-- The table that decides. -/
theorem resolve_eq_some_iff {target : String} :
    m.resolve specifier importer = some target ↔ Means m specifier importer target := by
  rw [resolve_eq_or, Option.or_eq_some_iff]
  constructor
  · rintro (h | ⟨hnone, h⟩)
    · obtain ⟨scope, hholds, hhit, hlongest⟩ := exists_of_resolveScoped h
      exact .inScope hholds hhit hlongest
    · refine .general (fun scope result hholds hhit => ?_) (resolveIn_eq_some_iff.1 h)
      obtain ⟨found, hfound⟩ := isSome_resolveScoped hholds hhit
      rw [hnone] at hfound
      nomatch hfound
  · intro h
    cases h with
    | @inScope scope _ hholds hhit hlongest =>
      left
      obtain ⟨result, hresult⟩ := isSome_resolveScoped hholds hhit
      obtain ⟨found, hfoundHolds, hfoundHit, hfoundLongest⟩ := exists_of_resolveScoped hresult
      obtain rfl := hfoundHolds.unique hholds (Nat.le_antisymm
        (hlongest found result hfoundHolds hfoundHit) (hfoundLongest scope target hholds hhit))
      rw [hresult, hfoundHit.unique hhit]
    | general hscopes hhit =>
      refine Or.inr ⟨?_, resolveIn_eq_some_iff.2 hhit⟩
      rw [Option.eq_none_iff_forall_ne_some]
      intro result hresult
      obtain ⟨scope, hholds, hscopeHit, -⟩ := exists_of_resolveScoped hresult
      exact hscopes scope result hholds hscopeHit

/-- Something is found exactly if a key applies in a scope that holds the importer or in the
general table. -/
theorem isSome_resolve_iff :
    (m.resolve specifier importer).isSome = true ↔
      (∃ scope table key target, Holds scope importer ∧ m.scopes.get? scope = some table ∧
        table.get? key = some target ∧ Applies key specifier) ∨
      ∃ key target, m.imports.get? key = some target ∧ Applies key specifier := by
  rw [resolve_eq_or, Option.isSome_or, Bool.or_eq_true, Option.isSome_iff_exists,
    Option.isSome_iff_exists]
  refine or_congr ⟨?_, ?_⟩ ⟨?_, ?_⟩
  · rintro ⟨result, h⟩
    obtain ⟨scope, hholds, ⟨table, htable, hhit⟩, -⟩ := exists_of_resolveScoped h
    obtain ⟨key, target, hkey, happlies⟩ := hhit.exists_key
    exact ⟨scope, table, key, target, hholds, htable, hkey, happlies⟩
  · rintro ⟨scope, table, key, target, hholds, htable, hkey, happlies⟩
    obtain ⟨result, hhit⟩ := exists_hit hkey happlies
    exact isSome_resolveScoped hholds ⟨table, htable, hhit⟩
  · rintro ⟨result, h⟩
    exact (resolveIn_eq_some_iff.1 h).exists_key
  · rintro ⟨key, target, hkey, happlies⟩
    obtain ⟨result, hhit⟩ := exists_hit hkey happlies
    exact ⟨result, resolveIn_eq_some_iff.2 hhit⟩

/-! ## What does not apply -/

/-- The entry of a scope. -/
def scopedEntry (m : ImportMap) (scope key : String) : Option String :=
  (m.scopes.get? scope).bind (·.get? key)

theorem ScopeHit.congr {scope target : String}
    (hagree : ∀ key, Applies key specifier → m.scopedEntry scope key = m'.scopedEntry scope key)
    (h : ScopeHit m scope specifier target) : ScopeHit m' scope specifier target := by
  obtain ⟨table, htable, hhit⟩ := h
  have hentry (key : String) (happlies : Applies key specifier) :
      table.get? key = m'.scopedEntry scope key := by
    rw [← hagree key happlies, scopedEntry, htable, Option.bind_some]
  obtain ⟨key, value, hkey, happlies⟩ := hhit.exists_key
  -- an entry that applies is there in the other map, so the scope is
  cases htable' : m'.scopes.get? scope with
  | none =>
    rw [hentry key happlies, scopedEntry, htable'] at hkey
    nomatch hkey
  | some table' =>
    refine ⟨table', htable', hhit.congr fun key happlies => ?_⟩
    rw [hentry key happlies, scopedEntry, htable', Option.bind_some]

theorem Means.congr {target : String}
    (himports : ∀ key, Applies key specifier → m.imports.get? key = m'.imports.get? key)
    (hscopes : ∀ scope key, Holds scope importer → Applies key specifier →
      m.scopedEntry scope key = m'.scopedEntry scope key)
    (h : Means m specifier importer target) : Means m' specifier importer target := by
  have hback {scope result : String} (hholds : Holds scope importer)
      (h : ScopeHit m' scope specifier result) : ScopeHit m scope specifier result :=
    h.congr fun key happlies => (hscopes scope key hholds happlies).symm
  cases h with
  | inScope hholds hhit hlongest =>
    exact .inScope hholds (hhit.congr fun key => hscopes _ key hholds)
      fun other result hother h => hlongest other result hother (hback hother h)
  | general hnone hhit =>
    exact .general (fun scope result hholds h => hnone scope result hholds (hback hholds h))
      (hhit.congr himports)

/-- Maps that agree on what applies mean the same. -/
theorem resolve_congr
    (himports : ∀ key, Applies key specifier → m.imports.get? key = m'.imports.get? key)
    (hscopes : ∀ scope key, Holds scope importer → Applies key specifier →
      m.scopedEntry scope key = m'.scopedEntry scope key) :
    m.resolve specifier importer = m'.resolve specifier importer := by
  apply Option.ext
  intro target
  rw [resolve_eq_some_iff, resolve_eq_some_iff]
  constructor
  · exact Means.congr himports hscopes
  · exact Means.congr (fun key happlies => (himports key happlies).symm)
      fun scope key hholds happlies => (hscopes scope key hholds happlies).symm

theorem ne_of_not_applies {key other : String} (h : ¬Applies key specifier)
    (hother : Applies other specifier) : other ≠ key := fun heq => h (heq ▸ hother)

/-- A map with one more scope. -/
def addScope (m : ImportMap) (scope : String) (table : Dict String) : ImportMap :=
  { m with scopes := m.scopes.insert scope table }

/-- A map with one more general entry. -/
def addImport (m : ImportMap) (key target : String) : ImportMap :=
  { m with imports := m.imports.insert key target }

theorem scopedEntry_addScope (m : ImportMap) (scope : String) (table : Dict String)
    (other key : String) :
    (m.addScope scope table).scopedEntry other key =
      if other = scope then table.get? key else m.scopedEntry other key := by
  unfold scopedEntry addScope
  dsimp only
  rw [Dict.get?_insert]
  split
  · rw [Option.bind_some]
  · rfl

/-- A map finds a target exactly if a key applies in a scope that holds the importer or in the
general table.  The target is that of the longest scope that holds the importer and has a hit, and
of the general table only where no scope has one; in each table an exact key wins, and else the
longest one that ends in a slash and begins the specifier.  A scope that does not hold the importer
and an entry that does not apply, wherever it stands, change nothing. -/
theorem resolve_finds (m : ImportMap) (specifier : String) (importer : Option String) :
    ((m.resolve specifier importer).isSome = true ↔
      (∃ scope table key target, Holds scope importer ∧ m.scopes.get? scope = some table ∧
        table.get? key = some target ∧ Applies key specifier) ∨
      ∃ key target, m.imports.get? key = some target ∧ Applies key specifier) ∧
    (∀ target, m.resolve specifier importer = some target ↔ Means m specifier importer target) ∧
    (∀ scope table, ¬Holds scope importer →
      (m.addScope scope table).resolve specifier importer = m.resolve specifier importer) ∧
    (∀ key target, ¬Applies key specifier →
      (m.addImport key target).resolve specifier importer = m.resolve specifier importer) ∧
    ∀ scope table key target, m.scopes.get? scope = some table → ¬Applies key specifier →
      (m.addScope scope (table.insert key target)).resolve specifier importer =
        m.resolve specifier importer := by
  refine ⟨isSome_resolve_iff, fun target => resolve_eq_some_iff, ?_, ?_, ?_⟩
  · intro scope table hnot
    refine resolve_congr (fun key _ => rfl) fun other key hother _ => ?_
    rw [scopedEntry_addScope, if_neg]
    rintro rfl
    exact hnot hother
  · intro key target hnot
    refine resolve_congr (fun other hother => ?_) fun other key _ _ => rfl
    exact Dict.get?_insert_ne _ _ (ne_of_not_applies hnot hother)
  · intro scope table key target htable hnot
    refine resolve_congr (fun other _ => rfl) fun other k _ happlies => ?_
    rw [scopedEntry_addScope]
    split
    · rename_i heq
      rw [heq, Dict.get?_insert_ne _ _ (ne_of_not_applies hnot happlies), scopedEntry, htable,
        Option.bind_some]
    · rfl

/-- Two scopes of which one lies in the other and says nothing of the library. -/
def nestedMap : ImportMap :=
  ⟨Dict.ofList [("lib/", "./lib/")],
    Dict.ofList [("./vendor/", Dict.ofList [("lib/", "./v/"), ("lib/ui/", "./u/")]),
      ("./vendor/old/", Dict.ofList [("vue", "./vue.js")])]⟩

/-- The inner scope lets the outer one speak, and the longer of two keys wins.  A scope beside the
importer and a key without its slash change nothing. -/
theorem resolve_finds_nested :
    ¬Holds "./routes/" (some "./vendor/old/x.ts") ∧ ¬Applies "lib" "lib/ui/a.ts" ∧
      nestedMap.resolve "lib/ui/a.ts" (some "./vendor/old/x.ts") = some "./u/a.ts" ∧
      (nestedMap.addScope "./routes/" (Dict.ofList [("lib/ui/", "./r/")])).resolve "lib/ui/a.ts"
        (some "./vendor/old/x.ts") = some "./u/a.ts" ∧
      (nestedMap.addImport "lib" "./l/").resolve "lib/ui/a.ts" (some "./vendor/old/x.ts") =
        some "./u/a.ts" := by
  obtain ⟨-, hmeans, hscope, hkey, -⟩ :=
    resolve_finds nestedMap "lib/ui/a.ts" (some "./vendor/old/x.ts")
  have houtside : ¬Holds "./routes/" (some "./vendor/old/x.ts") := by
    rintro ⟨i, hi, hbegins⟩
    obtain rfl := Option.some.inj hi
    exact absurd hbegins (by decide +kernel)
  have hidle : ¬Applies "lib" "lib/ui/a.ts" := by
    rintro (heq | ⟨hslash, -⟩)
    · exact absurd heq (by decide +kernel)
    · exact absurd hslash (by decide +kernel)
  have hinner : (nestedMap.scopes.get? "./vendor/old/").bind (resolveIn · "lib/ui/a.ts") = none := by
    decide +kernel
  have houter : (nestedMap.scopes.get? "./vendor/").bind (resolveIn · "lib/ui/a.ts") =
      some "./u/a.ts" := by
    decide +kernel
  obtain ⟨table, htable, hresult⟩ := Option.bind_eq_some_iff.1 houter
  have hfound : nestedMap.resolve "lib/ui/a.ts" (some "./vendor/old/x.ts") = some "./u/a.ts" := by
    refine (hmeans _).2 (.inScope ⟨_, rfl, by decide +kernel⟩
      ⟨table, htable, resolveIn_eq_some_iff.1 hresult⟩ ?_)
    rintro other result - ⟨table', htable', hhit⟩
    have hother : other ∈ nestedMap.scopes.keys :=
      List.mem_map_of_mem (Dict.mem_entries_iff.2 htable')
    have hkeys : nestedMap.scopes.keys = ["./vendor/", "./vendor/old/"] := by decide +kernel
    rw [hkeys, List.mem_cons, List.mem_singleton] at hother
    rcases hother with rfl | rfl
    · exact Nat.le_refl _
    · rw [htable', Option.bind_some, resolveIn_eq_some_iff.2 hhit] at hinner
      nomatch hinner
  refine ⟨houtside, hidle, hfound, ?_, ?_⟩
  · rw [hscope "./routes/" _ houtside, hfound]
  · rw [hkey "lib" _ hidle, hfound]

end Waymark.ImportMap
