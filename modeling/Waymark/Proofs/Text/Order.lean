import Waymark.Dict
import Waymark.Proofs.Text.Utf8
/-!
# The order of texts is the order of their octets

Texts are compared character by character, and characters by their numbers.  UTF-8 is made so
that the octets compare the same way: the leading octet of a longer sequence is above that of a
shorter one, and the octets of a sequence hold the number from its highest bits down.  So a list
of texts in ascending order is one in the order of octets as well.

## Main results

* `encodeChar_lt` — of two characters the octets of the lower one come first, whatever follows.
* `encode_lt_iff` — texts compare as their octets do.
* `pairwise_ordered` — a list put in order ascends.
-/

namespace Waymark.Text.Utf8

/-! ## Characters -/

theorem ofNat_cons_lt {m n : Nat} {s t : List UInt8} (hm : m < 256) (hn : n < 256)
    (h : m < n ∨ m = n ∧ s < t) : UInt8.ofNat m :: s < UInt8.ofNat n :: t := by
  rw [List.cons_lt_cons_iff]
  rcases h with hlt | ⟨rfl, hrest⟩
  · left
    rw [UInt8.lt_iff_toNat_lt, toNat_ofNat hm, toNat_ofNat hn]
    exact hlt
  · exact Or.inr ⟨rfl, hrest⟩

/-- The octet that carries the lowest six bits of a higher number with the same upper bits is the
higher one. -/
theorem ofNat_tail_lt {v w : Nat} (s t : List UInt8) (hupper : v / 64 = w / 64) (h : v < w) :
    UInt8.ofNat (v % 64 + 128) :: s < UInt8.ofNat (w % 64 + 128) :: t :=
  ofNat_cons_lt (by omega) (by omega) (Or.inl (by omega))

/-- The octets of a lower character come before those of a higher one, whatever follows. -/
theorem encodeChar_lt {c d : Char} (h : c < d) (s t : List UInt8) :
    String.utf8EncodeChar c ++ s < String.utf8EncodeChar d ++ t := by
  have hd := toNat_valid d
  have h : c.val.toNat < d.val.toNat := h
  unfold String.utf8EncodeChar
  generalize c.val.toNat = v at h
  generalize d.val.toNat = w at h hd
  dsimp only
  -- The sequences differ in length and so in their leading octets, or else in the first octet
  -- in which the numbers differ.
  split
  · split
    · exact ofNat_cons_lt (by omega) (by omega) (Or.inl h)
    · split
      · exact ofNat_cons_lt (by omega) (by omega) (Or.inl (by omega))
      · split
        · exact ofNat_cons_lt (by omega) (by omega) (Or.inl (by omega))
        · exact ofNat_cons_lt (by omega) (by omega) (Or.inl (by omega))
  · split
    · rw [if_neg (by omega)]
      split
      · refine ofNat_cons_lt (by omega) (by omega) ?_
        by_cases hupper : v / 64 = w / 64
        · exact Or.inr ⟨by omega, ofNat_tail_lt _ _ hupper h⟩
        · exact Or.inl (by omega)
      · split
        · exact ofNat_cons_lt (by omega) (by omega) (Or.inl (by omega))
        · exact ofNat_cons_lt (by omega) (by omega) (Or.inl (by omega))
    · split
      · rw [if_neg (by omega), if_neg (by omega)]
        split
        · refine ofNat_cons_lt (by omega) (by omega) ?_
          by_cases htop : v / 4096 = w / 4096
          · refine Or.inr ⟨by omega, ofNat_cons_lt (by omega) (by omega) ?_⟩
            by_cases hupper : v / 64 = w / 64
            · exact Or.inr ⟨by omega, ofNat_tail_lt _ _ hupper h⟩
            · exact Or.inl (by omega)
          · exact Or.inl (by omega)
        · exact ofNat_cons_lt (by omega) (by omega) (Or.inl (by omega))
      · rw [if_neg (by omega), if_neg (by omega), if_neg (by omega)]
        refine ofNat_cons_lt (by omega) (by omega) ?_
        by_cases hfirst : v / 262144 = w / 262144
        · refine Or.inr ⟨by omega, ofNat_cons_lt (by omega) (by omega) ?_⟩
          by_cases htop : v / 4096 = w / 4096
          · refine Or.inr ⟨by omega, ofNat_cons_lt (by omega) (by omega) ?_⟩
            by_cases hupper : v / 64 = w / 64
            · exact Or.inr ⟨by omega, ofNat_tail_lt _ _ hupper h⟩
            · exact Or.inl (by omega)
          · exact Or.inl (by omega)
        · exact Or.inl (by omega)

/-! ## Texts -/

theorem encode_cons (c : Char) (s : List Char) :
    encode (c :: s) = String.utf8EncodeChar c ++ encode s := List.flatMap_cons

theorem encode_lt_of_lt {s t : List Char} (h : s < t) : encode s < encode t := by
  induction s generalizing t with
  | nil =>
    cases t with
    | nil => exact absurd h (List.lt_irrefl _)
    | cons d t =>
      rw [encode_cons]
      cases hd : String.utf8EncodeChar d with
      | nil => exact absurd hd String.utf8EncodeChar_ne_nil
      | cons b bs => exact List.nil_lt_cons b _
  | cons c s ih =>
    cases t with
    | nil => exact absurd h (List.not_lt_nil _)
    | cons d t =>
      rw [encode_cons, encode_cons]
      rcases List.cons_lt_cons_iff.1 h with hlt | ⟨rfl, hrest⟩
      · exact encodeChar_lt hlt _ _
      · exact List.append_left_lt (ih hrest)

/-- Texts are in the order of their octets. -/
theorem encode_lt_iff {a b : String} : encode a.toList < encode b.toList ↔ a < b := by
  constructor
  · intro h
    refine Decidable.byContradiction fun hnot => ?_
    by_cases heq : a = b
    · exact List.lt_irrefl _ (heq ▸ h)
    · have hgt : b < a := lt_of_not_lt_of_ne hnot heq
      exact List.lt_asymm h (encode_lt_of_lt (String.lt_iff.1 hgt))
  · intro h
    exact encode_lt_of_lt (String.lt_iff.1 h)

/-- A list put in order ascends, so that no text stands in it twice. -/
theorem pairwise_ordered (xs : List String) : (ordered xs).Pairwise (· < ·) :=
  List.pairwise_map.2 (Dict.ofList (xs.map fun x => (x, ()))).ascends

end Waymark.Text.Utf8
