/-!
# Dictionaries in key order

A dictionary keeps one value per text key and lists its entries in ascending
order of keys.  Texts are ordered by code point, which is also the order of their
UTF-8 octets.  Sets of texts are listed in the same order.

## Main results

* `get?_insert_self`, `get?_insert_ne` — inserting sets one key and leaves the others alone.
* `mem_insertEntry` — what an insertion leaves in the list.
* `mem_entries_iff` — what is listed is what is looked up.
* `get?_filter`, `get?_map` — looking up after a filter or a map.
* `mem_ordered`, `nodup_ordered` — a list put in order holds the same texts, each once.
* `mem_distinct`, `nodup_distinct` — taking repetitions out of a list neither loses nor invents
  an item.
-/

namespace Waymark

/-! ## Entries in order -/

/-- Sets a key in a list of entries in key order. -/
def insertEntry {α : Type} (k : String) (v : α) : List (String × α) → List (String × α)
  | [] => [(k, v)]
  | (k', v') :: es =>
    if k < k' then (k, v) :: (k', v') :: es
    else if k = k' then (k, v) :: es
    else (k', v') :: insertEntry k v es

theorem lt_of_not_lt_of_ne {a b : String} (h : ¬a < b) (hne : a ≠ b) : b < a :=
  Decidable.byContradiction fun h' =>
    hne (String.le_antisymm (String.not_lt.1 h') (String.not_lt.1 h))

/-- An insertion brings no other entry than its own. -/
theorem mem_insertEntry {α : Type} {k : String} {v : α} {es : List (String × α)}
    {e : String × α} (h : e ∈ insertEntry k v es) : e = (k, v) ∨ e ∈ es := by
  induction es with
  | nil => simpa [insertEntry] using h
  | cons e' es ih =>
    obtain ⟨k', v'⟩ := e'
    simp only [insertEntry] at h
    split at h
    · simpa using h
    · split at h
      · rcases List.mem_cons.1 h with h | h
        · exact Or.inl h
        · exact Or.inr (List.mem_cons_of_mem _ h)
      · rcases List.mem_cons.1 h with h | h
        · exact Or.inr (h ▸ List.mem_cons_self ..)
        · rcases ih h with h | h
          · exact Or.inl h
          · exact Or.inr (List.mem_cons_of_mem _ h)

/-- Entries in strictly ascending order of keys. -/
abbrev KeysAscend {α : Type} (es : List (String × α)) : Prop :=
  es.Pairwise fun a b => a.1 < b.1

/-- An insertion keeps the keys in order. -/
theorem keysAscend_insertEntry {α : Type} (k : String) (v : α) {es : List (String × α)}
    (h : KeysAscend es) : KeysAscend (insertEntry k v es) := by
  induction es with
  | nil => simp [insertEntry]
  | cons e es ih =>
    obtain ⟨k', v'⟩ := e
    obtain ⟨hhead, htail⟩ := List.pairwise_cons.1 h
    simp only [insertEntry]
    split
    · rename_i hlt
      refine List.pairwise_cons.2 ⟨?_, h⟩
      intro e he
      rcases List.mem_cons.1 he with rfl | he
      · exact hlt
      · exact String.lt_trans hlt (hhead e he)
    · rename_i hnlt
      split
      · rename_i heq
        subst heq
        exact List.pairwise_cons.2 ⟨hhead, htail⟩
      · rename_i hne
        refine List.pairwise_cons.2 ⟨?_, ih htail⟩
        intro e he
        rcases mem_insertEntry he with rfl | he
        · exact lt_of_not_lt_of_ne hnlt hne
        · exact hhead e he

/-! ## Dictionaries -/

/-- A dictionary from texts to values. -/
structure Dict (α : Type) where
  entries : List (String × α)
  ascends : KeysAscend entries

namespace Dict

variable {α β : Type}

/-- The dictionary without entries. -/
def empty : Dict α := ⟨[], List.Pairwise.nil⟩

instance : Inhabited (Dict α) := ⟨empty⟩

/-- The value of a key. -/
def get? (d : Dict α) (k : String) : Option α := d.entries.lookup k

/-- Whether the key has a value. -/
def contains (d : Dict α) (k : String) : Bool := (d.get? k).isSome

/-- The dictionary with a key set. -/
def insert (d : Dict α) (k : String) (v : α) : Dict α :=
  ⟨insertEntry k v d.entries, keysAscend_insertEntry k v d.ascends⟩

/-- The dictionary without a key. -/
def erase (d : Dict α) (k : String) : Dict α :=
  ⟨d.entries.filter (·.1 ≠ k), d.ascends.filter _⟩

/-- The dictionary of the entries that pass a test. -/
def filter (p : String → α → Bool) (d : Dict α) : Dict α :=
  ⟨d.entries.filter fun e => p e.1 e.2, d.ascends.filter _⟩

/-- The dictionary with every value mapped. -/
def map (f : String → α → β) (d : Dict α) : Dict β :=
  ⟨d.entries.map fun e => (e.1, f e.1 e.2), by
    simpa [KeysAscend, List.pairwise_map] using d.ascends⟩

/-- The dictionary of a list of entries.  Of entries with one key the last one counts. -/
def ofList (es : List (String × α)) : Dict α := es.foldl (fun d e => d.insert e.1 e.2) empty

/-- The keys, in order. -/
def keys (d : Dict α) : List String := d.entries.map (·.1)

/-- The values, in order of their keys. -/
def values (d : Dict α) : List α := d.entries.map (·.2)

/-- The number of entries. -/
def size (d : Dict α) : Nat := d.entries.length

/-- What was inserted is found under its key. -/
theorem lookup_insertEntry_self (k : String) (v : α) (es : List (String × α)) :
    (insertEntry k v es).lookup k = some v := by
  induction es with
  | nil => simp [insertEntry]
  | cons e es ih =>
    obtain ⟨k', v'⟩ := e
    simp only [insertEntry]
    split
    · simp
    · split
      · simp
      · rename_i hne
        have : (k == k') = false := by simpa using hne
        simp [List.lookup_cons, this, ih]

/-- Under every other key nothing is changed. -/
theorem lookup_insertEntry_ne {k k₂ : String} (v : α) (es : List (String × α)) (h : k₂ ≠ k) :
    (insertEntry k v es).lookup k₂ = es.lookup k₂ := by
  have hb : (k₂ == k) = false := by simpa using h
  induction es with
  | nil => simp [insertEntry, List.lookup_cons, hb]
  | cons e es ih =>
    obtain ⟨k', v'⟩ := e
    simp only [insertEntry]
    split
    · simp [List.lookup_cons, hb]
    · split
      · rename_i heq
        subst heq
        simp [List.lookup_cons, hb]
      · rw [List.lookup_cons, List.lookup_cons]
        split
        · rfl
        · exact ih

@[simp] theorem get?_insert_self (d : Dict α) (k : String) (v : α) :
    (d.insert k v).get? k = some v :=
  lookup_insertEntry_self k v d.entries

theorem get?_insert_ne (d : Dict α) {k k₂ : String} (v : α) (h : k₂ ≠ k) :
    (d.insert k v).get? k₂ = d.get? k₂ :=
  lookup_insertEntry_ne v d.entries h

/-- What is found after an insertion, under any key. -/
theorem get?_insert (d : Dict α) (k k₂ : String) (v : α) :
    (d.insert k v).get? k₂ = if k₂ = k then some v else d.get? k₂ := by
  split
  · rename_i h
    rw [h, get?_insert_self]
  · rename_i h
    exact get?_insert_ne d v h

@[simp] theorem get?_empty (k : String) : (empty : Dict α).get? k = none := rfl

/-- A dictionary of a list holds nothing that is not in the list. -/
theorem mem_of_get?_ofList {es : List (String × α)} {k : String} {v : α}
    (h : (ofList es).get? k = some v) : (k, v) ∈ es := by
  have hfold : ∀ (es : List (String × α)) (d : Dict α),
      (es.foldl (fun d e => d.insert e.1 e.2) d).get? k = some v →
        (k, v) ∈ es ∨ d.get? k = some v := by
    intro es
    induction es with
    | nil => exact fun d h => Or.inr h
    | cons e es ih =>
      intro d h
      rcases ih (d.insert e.1 e.2) h with hmem | hget
      · exact Or.inl (List.mem_cons_of_mem _ hmem)
      · rw [get?_insert] at hget
        split at hget
        · rename_i hk
          obtain rfl := Option.some.inj hget
          exact Or.inl (hk ▸ List.mem_cons_self ..)
        · exact Or.inr hget
  rcases hfold es empty h with hmem | hnone
  · exact hmem
  · simp at hnone

/-! ### Keys -/

/-- The keys after an insertion. -/
theorem mem_keys_insertEntry {k k₂ : String} {v : α} {es : List (String × α)} :
    k₂ ∈ (insertEntry k v es).map (·.1) ↔ k₂ = k ∨ k₂ ∈ es.map (·.1) := by
  induction es with
  | nil => simp [insertEntry]
  | cons e es ih =>
    obtain ⟨k', v'⟩ := e
    rw [insertEntry]
    split
    · simp
    · split
      · rename_i heq
        simp [heq]
      · rw [List.map_cons, List.mem_cons, ih, List.map_cons, List.mem_cons, or_left_comm]

/-- The keys of a dictionary are those of the list it is made from. -/
theorem mem_keys_ofList {es : List (String × α)} {k : String} :
    k ∈ (ofList es).keys ↔ k ∈ es.map (·.1) := by
  have hfold : ∀ (es : List (String × α)) (d : Dict α),
      k ∈ (es.foldl (fun d e => d.insert e.1 e.2) d).keys ↔ k ∈ d.keys ∨ k ∈ es.map (·.1) := by
    intro es
    induction es with
    | nil => simp
    | cons e es ih =>
      intro d
      have hinsert : k ∈ (d.insert e.1 e.2).keys ↔ k = e.1 ∨ k ∈ d.keys := mem_keys_insertEntry
      rw [List.foldl_cons, ih, hinsert, List.map_cons, List.mem_cons, or_assoc, or_left_comm]
  rw [ofList, hfold es empty]
  simp [keys, empty]

/-- No key occurs twice. -/
theorem nodup_keys (d : Dict α) : d.keys.Nodup := by
  refine List.pairwise_map.2 (d.ascends.imp ?_)
  intro a b hlt heq
  exact String.lt_irrefl a.1 (heq ▸ hlt)

/-! ### Entries -/

/-- Where keys ascend, what is found under a key is the entry with this key. -/
theorem lookup_eq_some_iff {es : List (String × α)} (h : KeysAscend es) {k : String} {v : α} :
    es.lookup k = some v ↔ (k, v) ∈ es := by
  induction es with
  | nil => simp
  | cons e es ih =>
    obtain ⟨k', v'⟩ := e
    obtain ⟨hhead, htail⟩ := List.pairwise_cons.1 h
    by_cases hk : k = k'
    · subst hk
      have hnot : (k, v) ∉ es := fun hmem => String.lt_irrefl k (hhead _ hmem)
      simp [hnot, eq_comm]
    · have hb : (k == k') = false := by simpa using hk
      rw [List.lookup_cons, hb, ih htail]
      simp [hk]

/-- The entries of a dictionary are what is found in it. -/
theorem mem_entries_iff {d : Dict α} {k : String} {v : α} :
    (k, v) ∈ d.entries ↔ d.get? k = some v :=
  (lookup_eq_some_iff d.ascends).symm

/-! ### Filters and maps -/

theorem lookup_filter {p : String → α → Bool} {k : String} {es : List (String × α)}
    (h : KeysAscend es) :
    (es.filter fun e => p e.1 e.2).lookup k = (es.lookup k).filter (p k) := by
  induction es with
  | nil => rfl
  | cons e es ih =>
    obtain ⟨k', v⟩ := e
    obtain ⟨hhead, htail⟩ := List.pairwise_cons.1 h
    have ih := ih htail
    by_cases hk : k = k'
    · subst hk
      by_cases hp : p k v = true
      · simp [hp, Option.filter]
      · -- The key stands at the head only, so the rest has nothing to offer for it.
        have hnone : es.lookup k = none := by
          rw [List.lookup_eq_none_iff]
          intro e he
          have hne : k ≠ e.1 := fun heq => String.lt_irrefl k (heq ▸ hhead e he)
          simpa using hne
        rw [hnone] at ih
        simp [hp, ih, Option.filter]
    · have hb : (k == k') = false := by simpa using hk
      by_cases hp : p k' v = true
      · simp [hp, List.lookup_cons, hb, ih]
      · simp [hp, List.lookup_cons, hb, ih]

theorem get?_filter (d : Dict α) (p : String → α → Bool) (k : String) :
    (d.filter p).get? k = (d.get? k).filter (p k) :=
  lookup_filter d.ascends

/-- What is found in a dictionary whose values were changed. -/
theorem get?_map (d : Dict α) (f : String → α → β) (k : String) :
    (d.map f).get? k = (d.get? k).map (f k) := by
  show (d.entries.map fun e => (e.1, f e.1 e.2)).lookup k = (d.entries.lookup k).map (f k)
  induction d.entries with
  | nil => rfl
  | cons e es ih =>
    obtain ⟨k', v⟩ := e
    by_cases hk : k = k'
    · subst hk
      simp
    · have hb : (k == k') = false := by simpa using hk
      simp [List.lookup_cons, hb, ih]

end Dict

/-! ## Sets of texts -/

/-- The items of a list, each where it first occurs. -/
def distinct {α : Type} [DecidableEq α] : List α → List α
  | [] => []
  | x :: xs => x :: (distinct xs).filter (· ≠ x)

@[simp] theorem mem_distinct {α : Type} [DecidableEq α] {x : α} {xs : List α} :
    x ∈ distinct xs ↔ x ∈ xs := by
  induction xs with
  | nil => simp [distinct]
  | cons y ys ih =>
    simp only [distinct, List.mem_cons, List.mem_filter, ih, decide_eq_true_eq]
    by_cases h : x = y <;> simp [h]

/-- Nothing is left that occurs twice. -/
theorem nodup_distinct {α : Type} [DecidableEq α] (xs : List α) : (distinct xs).Nodup := by
  induction xs with
  | nil => simp [distinct]
  | cons y ys ih =>
    simp only [distinct, List.nodup_cons, List.mem_filter, decide_eq_true_eq]
    exact ⟨fun h => h.2 rfl, ih.filter _⟩

/-- The texts of a list in ascending order, each once. -/
def ordered (xs : List String) : List String :=
  (Dict.ofList (xs.map fun x => (x, ()))).keys

/-- Texts that are put in order are the same texts. -/
@[simp] theorem mem_ordered {x : String} {xs : List String} : x ∈ ordered xs ↔ x ∈ xs := by
  rw [ordered, Dict.mem_keys_ofList, List.map_map]
  show x ∈ xs.map id ↔ x ∈ xs
  rw [List.map_id]

theorem nodup_ordered (xs : List String) : (ordered xs).Nodup :=
  Dict.nodup_keys _

end Waymark
