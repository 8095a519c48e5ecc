import Waymark.Graph.Snapshot
import Waymark.Proofs.Graph.Versions
import Waymark.Proofs.Json.ReadBack
import Waymark.Proofs.Text.Pieces
/-!
# A snapshot restores the graph

A build writes the records of its graph as JSON in a script module, and a production server
makes a graph of them again.  On the way the records go through text, in which any specifier,
dependency or style text may hold quotes, controls or the marks the module is made of, and
through a list, of which the last record of a specifier would count.

The text gives back the snapshot it was rendered from.  The list gives back the records since
each stands under its own specifier, `Keyed`, which every call keeps whatever the clock shows.

## Main results

* `Dict.ofList_entries` — a dictionary is made again of its entries.
* `ModuleRecord.ofJson?_toJson` — a record is read back from its object.
* `Snapshot.parse_render` — a snapshot is read back from its module text.
* `toGraph_parse_render` — the graph of a snapshot that was read back has the same records.
-/

namespace Waymark

/-! ## Dictionaries from their entries -/

namespace Dict

variable {α : Type}

/-- A key above all others goes to the end. -/
theorem insertEntry_of_lt {k : String} (v : α) {es : List (String × α)} (h : ∀ e ∈ es, e.1 < k) :
    insertEntry k v es = es ++ [(k, v)] := by
  induction es with
  | nil => rfl
  | cons e es ih =>
    obtain ⟨hlt, hes⟩ := List.forall_mem_cons.1 h
    have hnot : ¬k < e.1 := fun hk => String.lt_irrefl k (String.lt_trans hk hlt)
    have hne : k ≠ e.1 := fun heq => String.lt_irrefl k (heq ▸ hlt)
    rw [insertEntry, if_neg hnot, if_neg hne, ih hes]
    rfl

/-- Entries in order, inserted behind those of a dictionary, are listed behind them. -/
theorem entries_foldl_insert {es : List (String × α)} {d : Dict α}
    (h : KeysAscend (d.entries ++ es)) :
    (es.foldl (fun d e => d.insert e.1 e.2) d).entries = d.entries ++ es := by
  induction es generalizing d with
  | nil => exact (List.append_nil _).symm
  | cons e es ih =>
    have hlt : ∀ e' ∈ d.entries, e'.1 < e.1 := fun e' he' =>
      (List.pairwise_append.1 h).2.2 e' he' e (List.mem_cons_self ..)
    have hinsert : (d.insert e.1 e.2).entries = d.entries ++ [e] := insertEntry_of_lt e.2 hlt
    have happend : d.entries ++ e :: es = (d.insert e.1 e.2).entries ++ es := by
      rw [hinsert, List.append_assoc]
      rfl
    rw [happend] at h ⊢
    exact ih h

/-- A dictionary is made again of its entries. -/
theorem ofList_entries (d : Dict α) : ofList d.entries = d := by
  obtain ⟨es, hascends⟩ := d
  have hentries : (ofList es).entries = es := entries_foldl_insert hascends
  cases hd : ofList es with
  | mk es' hascends' =>
    rw [hd] at hentries
    exact (Dict.mk.injEq ..).mpr hentries

end Dict

/-! ## Records as JSON -/

namespace ModuleRecord

theorem strings?_ofStrings (texts : List String) :
    (Json.ofStrings texts).strings? = some texts := by
  have hback (t : String) : (Json.string t).string? = some t := rfl
  exact Json.mapM_map_eq_some hback texts

theorem version?_ofNat (v : Version) : version? (.ofNat v.toNat) = some v := by
  show (if v.toNat < UInt64.size then some (UInt64.ofNat v.toNat) else none) = some v
  rw [if_pos v.toNat_lt_size, UInt64.ofNat_toNat]

/-- A record is read back from its object, with or without a style text. -/
theorem ofJson?_toJson (r : ModuleRecord) : ofJson? r.toJson = some r := by
  obtain ⟨specifier, version, deps, css⟩ := r
  have hrecord : (toJson ⟨specifier, version, deps, css⟩).record?
      ["specifier", "version", "deps", "inlineCSS"] =
        some [some (.string specifier), some (.ofNat version.toNat), some (Json.ofStrings deps),
          css.map Json.string] := by
    cases css <;> rfl
  rw [ofJson?, hrecord]
  show (version? (.ofNat version.toNat)).bind _ = _
  rw [version?_ofNat, Option.bind_some]
  show ((Json.ofStrings deps).strings?).bind _ = _
  rw [strings?_ofStrings, Option.bind_some]
  cases css <;> rfl

theorem isWhole_ofStrings (texts : List String) : Json.IsWhole (Json.ofStrings texts) := by
  refine .array fun v hv => ?_
  obtain ⟨t, -, rfl⟩ := List.mem_map.1 hv
  exact .string t

theorem isWhole_toJson (r : ModuleRecord) : Json.IsWhole r.toJson := by
  refine .object fun e he => ?_
  rcases List.mem_append.1 he with he | he
  · have hall : ∀ e ∈ [("specifier", Json.string r.specifier),
        ("version", Json.ofNat r.version.toNat), ("deps", Json.ofStrings r.deps)],
        Json.IsWhole e.2 := by
      rw [List.forall_mem_cons, List.forall_mem_cons, List.forall_mem_singleton]
      exact ⟨.string r.specifier, .integer r.version.toNat, isWhole_ofStrings r.deps⟩
    exact hall e he
  · cases hcss : r.inlineCss with
    | none =>
      rw [hcss] at he
      nomatch he
    | some css =>
      rw [hcss] at he
      obtain rfl := List.mem_singleton.1 he
      exact .string css

end ModuleRecord

/-! ## Snapshots as text -/

namespace Text

/-- A text that begins and ends with no blank has none to lose. -/
theorem trim_eq_self {c d : Char} (hc : isBlank c = false) (hd : isBlank d = false)
    (s : List Char) : trim (c :: (s ++ [d])) = c :: (s ++ [d]) := by
  have hreverse : (c :: (s ++ [d])).reverse = d :: (c :: s).reverse := by simp
  rw [trim, trimStart, List.dropWhile_cons_of_neg (Bool.eq_false_iff.1 hc), trimEnd,
    dropEndWhile, hreverse, List.dropWhile_cons_of_neg (Bool.eq_false_iff.1 hd)]
  simp

end Text

namespace Snapshot

theorem ofJson?_toJson (s : Snapshot) : ofJson? s.toJson = some s := by
  show ((s.modules.map ModuleRecord.toJson).mapM ModuleRecord.ofJson?).bind _ = _
  rw [Json.mapM_map_eq_some ModuleRecord.ofJson?_toJson]
  rfl

theorem isWhole_toJson (s : Snapshot) : Json.IsWhole s.toJson := by
  refine .object fun e he => ?_
  obtain rfl := List.mem_singleton.1 he
  refine .array fun v hv => ?_
  obtain ⟨r, -, rfl⟩ := List.mem_map.1 hv
  exact r.isWhole_toJson

/-- A snapshot is read back from its module text. -/
theorem parse_render (s : Snapshot) : parse s.render = some s := by
  have htext : s.render.toList = exportMark ++ (s.toJson.write ++ [';']) := by
    rw [render, String.toList_ofList, List.append_assoc]
  have htrim : Text.trim s.render.toList = exportMark ++ (s.toJson.write ++ [';']) := by
    rw [htext]
    exact Text.trim_eq_self (by decide) (by decide) ("xport default ".toList ++ s.toJson.write)
  rw [parse, htrim, Text.isPrefixOf?_append, Option.getD_some, Text.dropSuffix?_append,
    Option.getD_some, Json.read_write s.isWhole_toJson, Option.bind_some, ofJson?_toJson]

end Snapshot

/-! ## Graphs -/

namespace Graph

/-- Each record stands under the specifier it holds. -/
def Keyed (g : Graph) : Prop :=
  ∀ (k : Specifier) (r : ModuleRecord), g.get? k = some r → r.specifier = k

/-- A record may be written under its own specifier. -/
theorem Keyed.insert {g : Graph} (hg : Keyed g) {s : Specifier} {r : ModuleRecord}
    (hr : r.specifier = s) (clock : Version) :
    Keyed { g with records := g.records.insert s r, clock } := by
  subst hr
  intro k r' hr'
  rw [get?_insert_records] at hr'
  split at hr'
  · rename_i hk
    obtain rfl := Option.some.inj hr'
    exact hk.symm
  · exact hg k r' hr'

/-- A call writes no record but under its own specifier, whatever the clock shows. -/
theorem Keyed.perform {g : Graph} (hg : Keyed g) (c : Call) : Keyed (g.perform c) := by
  obtain ⟨now, edit⟩ := c
  cases edit with
  | mark s deps css => exact hg.insert (r := ⟨s, g.nextVersion now, deps, css⟩) rfl _
  | update s =>
    show Keyed (g.update now s)
    cases hs : g.get? s with
    | none =>
      rw [update_of_none now hs]
      exact hg
    | some old =>
      rw [update, hs]
      exact hg.insert (r := { old with version := g.nextVersion now }) (hg s old hs) _

theorem Keyed.performAll {g : Graph} (hg : Keyed g) (calls : List Call) :
    Keyed (g.performAll calls) := by
  induction calls generalizing g with
  | nil => exact hg
  | cons c calls ih => exact ih (hg.perform c)

/-- The records, each under its specifier, are the entries they were taken from. -/
theorem Keyed.entries_modules {g : Graph} (hg : Keyed g) :
    g.modules.map (fun r => (r.specifier, r)) = g.records.entries := by
  rw [modules, Dict.values, List.map_map]
  refine (List.map_congr_left fun e he => ?_).trans (List.map_id _)
  exact congrArg (·, e.2) (hg e.1 e.2 (Dict.mem_entries_iff.1 he))

/-- A graph made of the records of another has the same records. -/
theorem Keyed.records_ofRecords {g : Graph} (hg : Keyed g) (now : Version) :
    (ofRecords now g.modules).records = g.records := by
  rw [ofRecords, hg.entries_modules]
  exact Dict.ofList_entries g.records

theorem Keyed.modules_ascend {g : Graph} (hg : Keyed g) :
    g.modules.Pairwise fun a b => a.specifier < b.specifier := by
  have hascends := g.records.ascends
  rw [← hg.entries_modules, KeysAscend, List.pairwise_map] at hascends
  exact hascends

theorem Keyed.mem_modules_iff {g : Graph} (hg : Keyed g) {r : ModuleRecord} :
    r ∈ g.modules ↔ g.get? r.specifier = some r := by
  rw [get?, ← Dict.mem_entries_iff, ← hg.entries_modules, List.mem_map]
  constructor
  · exact fun hr => ⟨r, hr, rfl⟩
  · rintro ⟨r', hr', heq⟩
    exact (Prod.mk.inj heq).2 ▸ hr'

/-- The snapshot of a graph, after any calls, is read back from its text.  It holds the records in
order of their specifiers, and the graph made of it, at any reading of the clock, lists the same
records, finds the same record for each specifier and has the same tokens for them.  Modules
without a record have the token of the reading at which a graph was made, so there the two agree
if the readings do. -/
theorem toGraph_parse_render {g₀ : Graph} {built : List ModuleRecord} (h : MadeOf g₀ built)
    (calls : List Call) (now : Version) :
    let g := g₀.performAll calls
    ∃ s, Snapshot.parse (Snapshot.ofGraph g).render = some s ∧
      (s.modules.Pairwise fun a b => a.specifier < b.specifier) ∧
      (∀ r, r ∈ s.modules ↔ g.get? r.specifier = some r) ∧
      (s.toGraph now).modules = g.modules ∧
      (∀ k, (s.toGraph now).get? k = g.get? k) ∧
      (∀ k, (s.toGraph now).versionsExcept k = g.versionsExcept k) ∧
      ∀ k, (g.get? k).isSome ∨ now = g.initial →
        ((s.toGraph now).versionOf k).token = (g.versionOf k).token := by
  intro g
  have hg : Keyed g := Keyed.performAll (fun _ _ hk => h.sound.specifier_eq hk) calls
  have hrecords : ((Snapshot.ofGraph g).toGraph now).records = g.records :=
    hg.records_ofRecords now
  have hget (k : Specifier) : ((Snapshot.ofGraph g).toGraph now).get? k = g.get? k := by
    rw [get?, hrecords]
    rfl
  refine ⟨_, Snapshot.parse_render _, hg.modules_ascend, fun r => hg.mem_modules_iff, ?_, hget, ?_,
    ?_⟩
  · rw [modules, hrecords]
    rfl
  · intro k
    rw [versionsExcept, hrecords]
    rfl
  · intro k hk
    rw [versionOf, versionOf, hget]
    cases hr : g.get? k with
    | some r => rfl
    | none =>
      rw [hr] at hk
      obtain rfl := hk.resolve_left Bool.false_ne_true
      rfl

/-- Records with quotes, controls and other alphabets in every field are restored, the one that
was marked twice with its second version. -/
theorem toGraph_parse_render_escaped :
    let built : List ModuleRecord :=
      [⟨"./\"a\\\n.ts", 300, ["https://esm.sh/é?a=\t", ""], some "\x00;\x7b\x7d"⟩]
    let g := (ofRecords 7 built).performAll [⟨3, .mark "./日本.tsx" ["./\"a\\\n.ts"] none⟩,
      ⟨9, .update "./gone.ts"⟩, ⟨500, .mark "./日本.tsx" [] (some "")⟩]
    MadeOf (ofRecords 7 built) built ∧
      g.modules = built ++ [⟨"./日本.tsx", 500, [], some ""⟩] ∧
      ∃ s, Snapshot.parse (Snapshot.ofGraph g).render = some s ∧
        (s.toGraph 1000).modules = g.modules ∧
        (s.toGraph 1000).get? "./日本.tsx" = some ⟨"./日本.tsx", 500, [], some ""⟩ ∧
        (s.toGraph 1000).versionsExcept "./日本.tsx" = g.versionsExcept "./日本.tsx" ∧
        ((s.toGraph 1000).versionOf "./日本.tsx").token = "1f4" := by
  intro built g
  have hmade : MadeOf (ofRecords 7 built) built := .ofRecords 7 built
  obtain ⟨s, hs, -, -, hmodules, hget, hexcept, htoken⟩ := toGraph_parse_render hmade
    [⟨3, .mark "./日本.tsx" ["./\"a\\\n.ts"] none⟩, ⟨9, .update "./gone.ts"⟩,
      ⟨500, .mark "./日本.tsx" [] (some "")⟩] 1000
  have hfound : g.get? "./日本.tsx" = some ⟨"./日本.tsx", 500, [], some ""⟩ := by decide +kernel
  have hmarked : (g.get? "./日本.tsx").isSome := by rw [hfound]; rfl
  refine ⟨hmade, by decide +kernel, s, hs, hmodules, (hget _).trans hfound, hexcept _, ?_⟩
  rw [htoken _ (Or.inl hmarked)]
  decide +kernel

end Graph
end Waymark
